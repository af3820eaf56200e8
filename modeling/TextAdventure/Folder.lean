import TextAdventure.Bundle
import TextAdventure.Document.Access

/-!
# Files

The files that a program reads and writes: those of its working folder, by name, and the bundled
ones, which are only read. A path comes from the settings, so it may be any document; only a text
can be a path. The working folder has no folders in it, so a path that leads through one finds
nothing.
-/

namespace TextAdventure

/-- The files of the working folder with their texts. -/
abbrev Folder := Table String String

namespace Folder

/-- Where a path leads. -/
inductive Target where
  /-- To a file of the working folder, which may not exist. -/
  | file (name : String)
  /-- To a bundled text. -/
  | bundled (text : String)
  | folder
  | nowhere

/-- Cuts a path at its slashes. Parts that stay in the same folder are left out. -/
def steps (path : List Char) : List (List Char) :=
  (Text.runs (· ≠ '/') path).filter (· ≠ ['.'])

/-- Where a path leads. -/
def target (path : String) : Target :=
  if path == Bundle.grammarPath then .bundled Bundle.grammarText
  else if path == Bundle.worldPath then .bundled Bundle.worldText
  else if path.isEmpty then .nowhere
  else match steps path.toList with
    | [] => .folder
    | [name] =>
      if name = ['.', '.'] then .folder
      else if path.toList.head? = some '/' then .nowhere
      else .file (String.ofList name)
    | _ => .nowhere

/-- The text of a document that is to be a path. -/
def pathText : Document → Except Fault String
  | .text s => .ok s
  | _ => .error .wrongKind

/-- Whether there is something at a path. -/
def hasPath (folder : Folder) (path : String) : Bool :=
  match target path with
  | .file name => folder.has name
  | .bundled _ => true
  | .folder => true
  | .nowhere => false

/-- The text of the file at a path, with its lines ended by line feeds. -/
def read (folder : Folder) (path : String) : Except Fault String :=
  match target path with
  | .file name =>
    match folder.get? name with
    | some s => .ok (String.ofList (Text.withLineFeeds s.toList))
    | none => .error (.noSuchFile path)
  | .bundled s => .ok s
  | .folder => .error .isFolder
  | .nowhere => .error (.noSuchFile path)

/-- Writes a text to the file at a path. -/
def write (folder : Folder) (path text : String) : Except Fault Folder :=
  match target path with
  | .file name => .ok (folder.insert name text)
  | .folder => .error .isFolder
  | .bundled _ | .nowhere => .error (.noSuchFile path)

end Folder

end TextAdventure
