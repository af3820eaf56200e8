import TextAdventure.World

/-!
# What words can refer to

An entity is anything a player's words can pick out: an object of a scene, or a figure that a game
brings in on its own. Every entity is called by a set of words. A figure may besides have a way of
its own to say how many of the player's words are meant for it, its *claim*; it may also decline and
leave the matter to its words.

A value is what a symbol of a rule stands for once it is resolved: an entity, or a document such as
the text of a phrase. Actions receive values.
-/

namespace TextAdventure

/-- An entity that a game brings in on its own. -/
structure Figure where
  /-- The words by which it is called. -/
  words : List String
  /-- Its name, if it has one. -/
  name : Option String
  /-- How it is written in messages. -/
  label : String
  /-- The number of words meant for it from a place on, or -1 to leave the matter to its words. -/
  claim : Option (List Document → Int → Int)

/-- Anything a player's words can pick out. -/
inductive Entity where
  | object (o : GameObject)
  | figure (f : Figure)

namespace Entity

/-- The words by which an entity is called. -/
def words : Entity → List String
  | .object o => o.words
  | .figure f => f.words

/-- The name of an entity. -/
def name? : Entity → Option String
  | .object o => some o.name
  | .figure f => f.name

/-- The number of words that an entity claims from a place on, if it does not decline. -/
def claimed? (e : Entity) (input : List Document) (start : Int) : Option Int :=
  match e with
  | .object _ => none
  | .figure f =>
    match f.claim with
    | none => none
    | some claim => if claim input start = -1 then none else some (claim input start)

/-- An entity in a message. -/
def quoted : Entity → String
  | .object o => o.quoted
  | .figure f => f.label

/-- Whether a word of the input is one of the words by which an entity is called. -/
def isCalled (e : Entity) (word : Document) : Bool := e.words.any word.isText

end Entity

/-- What a symbol stands for once it is resolved. -/
inductive Value where
  | document (d : Document)
  | entity (e : Entity)

namespace Value

/-- A value in a message. -/
def quoted : Value → String
  | .document d => d.quoted
  | .entity e => e.quoted

/-- A value inside a sentence. -/
def shown : Value → String
  | .document d => d.shown
  | .entity e => e.quoted

/-- Values in a message, in round brackets. A lone value is followed by a comma. -/
def quotedTuple : List Value → String
  | [v] => "(" ++ v.quoted ++ ",)"
  | vs => "(" ++ Document.listed (vs.map quoted) ++ ")"

end Value

end TextAdventure
