import TextAdventure.Reference
import TextAdventure.Phrase

/-!
# Resolvers and their registry

A grammar gives each of its symbols a resolver: references to the entities of a scope, a list of
phrases, or a way of its own that a game defines. The registry is the table of these resolvers by
the symbols' names. It is filled while a grammar is loaded; registering a name again replaces its
resolver and keeps its place.

The scope of a reference is mostly the scene in which the player is, so a resolver is used together
with the world as it is at that moment.
-/

namespace TextAdventure

/-- Where a reference looks for entities. -/
inductive Scope where
  /-- In the scene where the player is. -/
  | scene
  /-- Among the given ones. -/
  | given (entities : List Entity)

/-- What a symbol is resolved by. -/
inductive Resolver where
  | reference (scope : Scope)
  | phrases (known : List String)
  /-- A way that a game defines for itself. -/
  | custom (resolve : Resolve)
  /-- A resolver whose way was left to be defined. -/
  | undefined

namespace Resolver

/-- The entities of a scope. Without a world there is no scene to look in. -/
def entitiesIn (world : Option World) : Scope → Except Fault (List Entity)
  | .given es => .ok es
  | .scene =>
    match world with
    | none => .error .lacking
    | some w => w.objectsInScope.map fun os => os.map .object

/-- Resolves a symbol in a world. -/
def resolve (world : Option World) : Resolver → Resolve
  | .reference scope => fun input start =>
    match entitiesIn world scope with
    | .ok es => Reference.resolve es input start
    | .error f => .error f
  | .phrases known => Phrase.resolve known
  | .custom way => way
  | .undefined => fun _ _ => .error .undefined

end Resolver

/-- The resolvers of a grammar's symbols, by name. -/
abbrev Registry := Table Document Resolver

namespace Registry

/-- Registers a resolver under a name. Something that is no resolver is refused. -/
def register (registry : Registry) (name : Document) : Option Resolver → Except Fault Registry
  | none => .error (.misfit (.notAResolver name))
  | some r => if name.canBeKey then .ok (registry.insert name r) else .error .wrongKind

/-- The resolver registered under a name. -/
def get (registry : Registry) (name : Document) : Except Fault (Option Resolver) :=
  Document.lookUp name registry

/-- Whether a resolver is registered for the symbol of a name. -/
def knows (registry : Registry) (name : String) : Bool := Table.has (.text name) registry

/-- How the symbols of a rule are resolved in a world. -/
def resolves (registry : Registry) (world : Option World) (name : String) : Option Resolve :=
  (Table.get? (.text name) registry).map (Resolver.resolve world)

/-! ### Reading a grammar's symbols -/

/-- The definition of a symbol as a mapping; a text is short for a mapping with that type. -/
def definitionOf (name : Document) : Document → Except Fault (Table Document Document)
  | .text s => .ok [(.text "type", .text s)]
  | .mapping fields => .ok fields
  | _ => .error (.misfit (.symbolShape name))

/-- The type of a symbol's definition. A definition with phrases need not name it. -/
def typeOf (fields : Table Document Document) : Document :=
  (Document.field? "type" fields).getD
    (if (Document.field? "phrases" fields).isSome then .text "phrases" else .null)

/-- The phrases of a symbol's definition; a lone text is a list of one. -/
def phrasesOf (name field : Document) : Except Fault (List Document) :=
  if field.isEmpty then .error (.misfit (.noPhrases name))
  else match field with
    | .text s => .ok [.text s]
    | .list items => .ok items
    | d => .error (.misfit (.phrasesShape name d))

/-- The resolver that a symbol's definition asks for. -/
def resolverOf (world : Option World) (name definition : Document) : Except Fault Resolver := do
  let fields ← definitionOf name definition
  let type := typeOf fields
  if type.isText "entity" then
    if world.isNone then .error (.misfit (.symbolWithoutWorld name))
    else return .reference .scene
  else if type.isText "phrases" then
    let phrases ← phrasesOf name (Document.field "phrases" fields)
    return .phrases (← Phrase.ofDocuments phrases)
  else .error (.misfit (.resolverType name type))

/-- Registers the resolvers of some symbols. -/
def addSymbols (world : Option World) (registry : Registry) :
    List (Document × Document) → Except Fault Registry
  | [] => .ok registry
  | (name, definition) :: rest => do
    let r ← resolverOf world name definition
    addSymbols world (registry.insert name r) rest

/-- The registry that the symbols of a grammar document ask for. -/
def ofDocument (symbols : Document) (world : Option World) : Except Fault Registry :=
  if symbols.isEmpty then .ok []
  else match symbols.entries with
    | .ok fields => addSymbols world [] fields
    | .error f => .error f

end Registry

end TextAdventure
