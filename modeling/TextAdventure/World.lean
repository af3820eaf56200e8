import TextAdventure.Document.Access
import TextAdventure.Text.Lowercase

/-!
# Worlds

A world is a number of scenes, each with the objects that stand in it. The player is in one scene at
a time, and only the objects there can be referred to.

An object is called by the words of its name and of its aliases. Its words are listed with those of
the name first and then every word of an alias that is not yet there, so that the list shows the
object's full name in front (`TextAdventure.GameObject.wordsOf`).

Worlds are read from documents that people write, so much of this file is about what may be left out
and what is refused. A scene is found by its id, and an id may be any document that can be a key.
Two scenes with equal ids are one scene, described by the second and standing in the place of the
first.
-/

namespace TextAdventure

/-- An object of a scene. -/
structure GameObject where
  id : Document
  name : String
  aliases : List String
  description : Document
  /-- The words by which the object is called. -/
  words : List String

namespace GameObject

/-- The words of a name in lower case. -/
def nameWords (s : String) : List String := Text.words (Text.lower s)

/-- Adds a word to a list, unless it is there. -/
def addWord (ws : List String) (w : String) : List String := if ws.contains w then ws else ws ++ [w]

/-- The words by which an object is called: those of its name, then those of its aliases that are
not yet there. -/
def wordsOf (name : String) (aliases : List String) : List String :=
  (aliases.flatMap nameWords).foldl addWord (nameWords name)

/-- The aliases in a field: a lone text is a list of one, and an empty field of none. -/
def aliasesIn (id field : Document) : Except Fault (List Document) :=
  if field.isEmpty then .ok []
  else match field with
    | .text s => .ok [.text s]
    | .list items => .ok items
    | d => .error (.misfit (.aliasesShape id d))

/-- The object that a document describes under an id. The id is its name where it has none. -/
def ofDocument (id data : Document) : Except Fault GameObject := do
  let fields ← data.entries
  let name := (Document.field? "name" fields).getD id
  let aliases ← aliasesIn id (Document.field "aliases" fields)
  match name with
  | .text name =>
    let aliases ← Document.texts (fun d => .misfit (.aliasText name d)) aliases
    return { id, name, aliases
             description := (Document.field? "description" fields).getD (.text "")
             words := wordsOf name aliases }
  | d => .error (.misfit (.objectName id d))

/-- An object in a message. -/
def quoted (o : GameObject) : String := "GameObject(" ++ Text.quoted o.name ++ ")"

end GameObject

/-- A scene with the objects in it. -/
structure Scene where
  id : Document
  name : Document
  description : Document
  objects : List GameObject

namespace Scene

/-- The object that an entry of a scene's objects describes. A text is the name of an object without
further description. An object without an id has its name as its id, and one without a name the
scene's id and its own number. -/
def objectOf (scene : Document) (number : Nat) : Document → Except Fault GameObject
  | .text s => GameObject.ofDocument (.text s) (.mapping [(.text "name", .text s)])
  | .mapping fields =>
    let generated := Document.text (scene.shown ++ "-" ++ counted number)
    let id := (Document.field? "id" fields).getD ((Document.field? "name" fields).getD generated)
    GameObject.ofDocument id (.mapping fields)
  | d => .error (.misfit (.objectShape scene d))

/-- The objects of a scene, numbered from `number` on. -/
def objectsOf (scene : Document) (number : Nat) : List Document → Except Fault (List GameObject)
  | [] => .ok []
  | d :: ds => do
    let o ← objectOf scene number d
    let os ← objectsOf scene (number + 1) ds
    return o :: os

/-- The scene that a document describes under an id. -/
def ofDocument (id data : Document) : Except Fault Scene := do
  let fields ← data.entries
  let entries ← ((Document.field "objects" fields).orElse (.list [])).parts
  let objects ← objectsOf id 0 entries
  return { id
           name := (Document.field? "name" fields).getD id
           description := (Document.field? "description" fields).getD (.text "")
           objects }

end Scene

/-- A world, and the scene in which the player is. -/
structure World where
  title : Document
  scenes : Table Document Scene
  current : Document

namespace World

/-- The id of a scene's document. Only a mapping has fields, but a text or a list may hold the word
`id` and pass for one that has. -/
def sceneId (data : Document) : Except Fault Document := do
  if ← data.contains "id" then
    match data with
    | .mapping fields => return Document.field "id" fields
    | _ => .error .wrongKind
  else .error (.misfit .sceneWithoutId)

/-- Enters the scenes of some documents into a table. -/
def addScenes (table : Table Document Scene) : List Document → Except Fault (Table Document Scene)
  | [] => .ok table
  | d :: ds => do
    let id ← sceneId d
    let scene ← Scene.ofDocument id d
    if id.canBeKey then addScenes (table.insert id scene) ds else .error .wrongKind

/-- The world that a document describes. The player starts in the first scene unless the document
says otherwise. -/
def ofDocument (data : Document) : Except Fault World := do
  let fields ← data.entries
  let entries ← ((Document.field "scenes" fields).orElse (.list [])).parts
  let scenes ← addScenes [] entries
  match scenes with
  | [] => .error (.misfit .noScenes)
  | (first, _) :: _ =>
    let current := (Document.field? "start_scene" fields).getD first
    match ← Document.lookUp current scenes with
    | some _ =>
      return { title := (Document.field? "title" fields).getD (.text "Untitled"), scenes, current }
    | none => .error (.misfit (.noStartScene current))

/-- The world in a file's document, which has to be a mapping. -/
def ofFile : Document → Except Fault World
  | .mapping fields => ofDocument (.mapping fields)
  | _ => .error (.misfit .worldShape)

/-- The scene in which the player is. -/
def scene (w : World) : Except Fault Scene := do
  match ← Document.lookUp w.current w.scenes with
  | some s => return s
  | none => .error .noSuchKey

/-- The objects that the player can refer to. -/
def objectsInScope (w : World) : Except Fault (List GameObject) := w.scene.map Scene.objects

/-- The world with the player in another scene, which need not exist. -/
def goTo (w : World) (scene : Document) : World := { w with current := scene }

end World

end TextAdventure
