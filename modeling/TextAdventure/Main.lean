import TextAdventure.Session

/-!
# The program

The outer layer: it reads the environment and the files that the settings name, shows events as
plain text, asks the player for answers, and writes the files that a step has changed. What happens
is decided by `TextAdventure.Session` alone.
-/

namespace TextAdventure.Program

/-- What a fault is called. -/
def reason : Fault → String
  | .misfit cause => cause.message
  | .unreadable => "the text is not a document"
  | .wrongKind => "a value is of the wrong kind"
  | .lacking => "a value lacks what was asked of it"
  | .noSuchKey => "there is no such key"
  | .badValue => "a value cannot be used"
  | .badMarkup => "a closing tag has nothing to close"
  | .outOfRange => "a place lies outside"
  | .undefined => "the operation is not defined"
  | .noSuchFile name => "there is no file " ++ name
  | .isFolder => "the name is that of a folder"
  | .noMoreAnswers => "there are no more answers"

/-- What is said of a game that cannot be loaded. -/
def loadReason (folder : Folder) (settings : Settings) : String :=
  match Game.load folder settings with
  | .error f => reason f
  | .ok _ => ""

/-- What the program runs on: a screen that knows the styles by their names in small letters. -/
def host (env : Environment) : Session.Host := ⟨env, Item.isDrawable Text.lower, loadReason⟩

/-- The lines in which an item is shown where there is no layout. -/
def lines : Item → List String
  | .line markup => [markup]
  | .article source => [source]
  | .table columns rows => (columns :: rows).map fun row => Text.join " | " row
  | .panel body title _ => title.toList ++ lines body

/-- Shows an event. -/
def showEvent : Event → IO Unit
  | .print item => (lines item).forM fun s => IO.println s
  | .ask question _ _ => IO.print (question ++ " ")
  | .write text => IO.print text
  | .clear => pure ()

/-- Adds the file at a path to the working folder, if it exists there. -/
def addFile (folder : Folder) (path : Document) : IO Folder := do
  match path with
  | .text s =>
    match Folder.target s with
    | .file name =>
      try
        return folder.insert name (← IO.FS.readFile name)
      catch _ => return folder
    | _ => return folder
  | _ => return folder

/-- The files of the working folder that a session may read: that of the settings, and those that
the settings name. -/
def gather (env : Environment) : IO Folder := do
  let folder ← addFile [] (Settings.path env .null)
  match (Settings.load env folder .null).2 with
  | .error _ => return folder
  | .ok settings =>
    let folder ← addFile folder ((settings.get? Settings.worldFile).getD .null)
    addFile folder ((settings.get? Settings.grammarFile).getD .null)

/-- Writes the files that differ from the former ones. -/
def writeChanges (before after : Folder) : IO Unit :=
  after.forM fun (name, text) =>
    if before.get? name == some text then pure () else IO.FS.writeFile name text

/-- Shows what happened, and goes on with the next answer until the session is over. -/
partial def loop (frame : Session.Frame) (input : IO.FS.Stream) (before : Folder)
    (h : Session.Happening) : IO UInt32 := do
  h.1.forM showEvent
  writeChanges before h.2.folder
  match h.2.stage with
  | .over (.failed f) =>
    IO.eprintln (reason f)
    return 1
  | .over _ => return 0
  | _ =>
    let line ← input.getLine
    if line.isEmpty then
      IO.eprintln (reason .noMoreAnswers)
      return 1
    else
      let answer := Text.trim line
      let folder ← gather frame.env
      loop frame input folder
        (Session.step frame { h.2 with folder } (if answer.isEmpty then "1" else answer))

end TextAdventure.Program

open TextAdventure in
/-- Runs the program in the working folder. -/
def main : IO UInt32 := do
  let env : Environment :=
    ⟨← IO.getEnv "LORE_PARSER_CONFIG", ← IO.getEnv "LORE_PARSER_DEBUG"⟩
  let folder ← Program.gather env
  let frame : Session.Frame := ⟨Program.host env, true⟩
  Program.loop frame (← IO.getStdin) folder (Session.openMenu frame folder)
