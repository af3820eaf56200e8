import TextAdventure.Settings
import TextAdventure.Screen
import TextAdventure.Action.Storeroom

/-!
# Sessions

A session is a conversation: the program puts something on the screen and asks, the player answers,
and so on. Between two answers a session rests in a stage – the menu waits for a choice, or a game
for a command – and an answer takes it from one stage to the next, with events on the way
(`TextAdventure.Session.step`). So a whole session is a fold over the answers
(`TextAdventure.Session.run`), and everything it remembers stands in its stage and in the files.

The menu loads the settings afresh every time it is shown. Toggling the debug mode, in the menu or
in a game, saves them.

Nearly everything that a session prints is fixed or escaped. Only when a game begins, the title of
the world and the name and description of its scene are put into the markup as they are; so it is
only there that a document may turn out not to be writable, or a text not to be markup, and that the
screen is asked whether it can draw an item (`TextAdventure.Session.present`). A session that cannot
show one of them ends.
-/

namespace TextAdventure

/-- A game that has been loaded. -/
structure Game where
  world : World
  listener : Listener

namespace Game

/-- The document in the file that a setting names. -/
def documentAt (folder : Folder) (settings : Settings) (name : Document) :
    Except Fault Document := do
  match settings.get? name with
  | none => .error .noSuchKey
  | some path => Yaml.read (← folder.read (← Folder.pathText path))

/-- A setting that has to be there. -/
def setting (settings : Settings) (name : Document) : Except Fault Document :=
  match settings.get? name with
  | some d => .ok d
  | none => .error .noSuchKey

/-- Loads the game that the settings name: the world, then the grammar, then the listener. -/
def load (folder : Folder) (settings : Settings) : Except Fault Game := do
  let world ← World.ofFile (← documentAt folder settings Settings.worldFile)
  let grammar ← Grammar.ofDocument (← documentAt folder settings Settings.grammarFile)
    Action.storeroom (some world)
  let listener ← Listener.make grammar (← setting settings Settings.articles)
    (← setting settings Settings.notUnderstood)
  return ⟨world, listener⟩

end Game

/-- What a fault says. Misfits and missing files have texts of their own; the text of any other
error is up to whoever raises it and is given. -/
def Fault.text (given : String) : Fault → String
  | .misfit cause => cause.message
  | .noSuchFile name => "[Errno 2] No such file or directory: " ++ Text.quoted name
  | _ => given

namespace Session

/-- What a program runs on. -/
structure Host where
  env : Environment
  /-- Whether the screen can draw an item. -/
  draws : Item → Bool
  /-- What the error says by which a game cannot be loaded from some files with some settings, where
  it is none of the library's own. -/
  errorText : Folder → Settings → String

/-! ### What is shown -/

/-- The panel for a game that cannot be loaded. -/
def loadFailure (given : String) (f : Fault) : Item :=
  let details := Text.escapeMarkup (f.text given)
  let text := match f with
    | .noSuchFile _ => "[warning]ERROR: Game data not found.[/] Missing file: " ++ details
    | .unreadable =>
      "[warning]YAML STRUCTURE ERROR:[/]\nCheck your grammar and world files for indentation or "
        ++ "syntax errors.\nDetails: " ++ details
    | .misfit _ => "[warning]GRAMMAR ERROR:[/]\n" ++ details
    | _ =>
      "[warning]CRITICAL LOAD ERROR:[/]\nFailed to load game data.\nDetails: " ++ details
  .framed text "warning"

/-- The items with which a game begins, each with the document that stands in it as it is. -/
def opening (title : Document) (scene : Scene) : List (Document × Item) :=
  [(title, .panel (.line ("[bold blue]" ++ title.shown ++ "[/bold blue]")) (some "GAME STARTED")
      "info"),
    (scene.name, .line ("\n[bold]SCENE: " ++ scene.name.shown ++ "[/bold]")),
    (scene.description, .line ("\n" ++ scene.description.shown))]

/-- Why an item cannot be shown in which a document stands as it is, if it cannot. -/
def Host.refusal? (host : Host) (subject : Document) (item : Item) : Option Fault :=
  if !subject.isWritable then some .badValue
  else if !host.draws item then some .badMarkup
  else none

/-- Prints items one after the other, up to the first that cannot be shown. -/
def present (host : Host) : List (Document × Item) → List Event × Option Fault
  | [] => ([], none)
  | (subject, item) :: rest =>
    match host.refusal? subject item with
    | some f => ([], some f)
    | none =>
      let (events, refusal) := present host rest
      (.print item :: events, refusal)

/-- How to get out of a game, and how to toggle its debug mode. -/
def hint : Event :=
  .print (.line "[dim]Type 'quit' to return to menu, 'debug' to toggle the rule trace.[/dim]\n")

/-- The question for the next command. -/
def askCommand : Event := .ask "[info]>[/info]" none none

/-- One line of the menu. -/
def menuLine (key label : String) : Event :=
  .print (.line (" [[info]" ++ key ++ "[/info]] " ++ label))

/-- The menu and its question. -/
def welcome (settings : Settings) : List Event :=
  [.clear,
    .print (.panel (.article
      ("# LORE-PARSER\n\nType what you want to do. The grammar decides if it makes sense.\n\n"
        ++ "> *The grammar is the whole game.*")) none "info"),
    .print (.line "\n[dim]Select an option:[/dim]\n"),
    menuLine "1" "Start Playing",
    menuLine "D"
      ("Toggle Debug Mode (current: " ++ (if settings.isDebug then "On" else "Off") ++ ")"),
    menuLine "2" "Quit",
    .write "\n",
    .ask " >" (some ["1", "2", "D"]) (some "1")]

/-- The panel for the debug mode after it was toggled. -/
def debugPanel (settings : Settings) : Event :=
  .print (.framed
    ("[info]DEBUG MODE:[/][bold]" ++ (if settings.isDebug then " ON" else " OFF") ++ "[/bold]")
    "info")

/-! ### Stages -/

/-- How a session ended. -/
inductive Ending where
  /-- The game was left, and there is no menu to go back to. -/
  | returned
  /-- The player chose to quit. -/
  | quit
  | failed (f : Fault)

/-- Where a session rests. -/
inductive Stage where
  /-- The menu waits for a choice. -/
  | menu (settings : Settings)
  /-- A game waits for a command. -/
  | playing (settings : Settings) (game : Game)
  | over (ending : Ending)

/-- The files, and where the session rests. -/
structure State where
  folder : Folder
  stage : Stage

/-- Something that happens in a session: events, and the state afterwards. -/
abbrev Happening := List Event × State

/-- Puts events in front of a happening. -/
def first (events : List Event) (h : Happening) : Happening := (events ++ h.1, h.2)

/-- What all sessions of a program share: what it runs on, and whether there is a menu. -/
structure Frame extends Host where
  hasMenu : Bool

/-- Ends a session by a fault. -/
def fail (folder : Folder) (f : Fault) : Happening := ([], ⟨folder, .over (.failed f)⟩)

/-- Loads the settings and shows the menu. -/
def openMenu (frame : Frame) (folder : Folder) : Happening :=
  match Settings.load frame.env folder .null with
  | (folder, .error f) => fail folder f
  | (folder, .ok settings) => (welcome settings, ⟨folder, .menu settings⟩)

/-- Leaves a game: to the menu, if there is one. -/
def leaveGame (frame : Frame) (folder : Folder) : Happening :=
  if frame.hasMenu then openMenu frame folder else ([], ⟨folder, .over .returned⟩)

/-- Loads a game and begins it. A game that cannot be loaded is left at once; one whose beginning
cannot be shown ends the session. -/
def openGame (frame : Frame) (folder : Folder) (settings : Settings) : Happening :=
  match Game.load folder settings with
  | .error f =>
    first [.clear, .print (loadFailure (frame.errorText folder settings) f)]
      (leaveGame frame folder)
  | .ok game =>
    match game.world.scene with
    | .error f => first [.clear] (fail folder f)
    | .ok scene =>
      match present frame.toHost (opening game.world.title scene) with
      | (events, some f) => first (.clear :: events) (fail folder f)
      | (events, none) =>
        (.clear :: events ++ [hint, askCommand], ⟨folder, .playing settings game⟩)

/-- Changes the debug mode over, saves the settings, says so, and goes on. -/
def toggle (frame : Frame) (folder : Folder) (settings : Settings)
    (next : Folder → Settings → Happening) : Happening :=
  match Settings.save frame.env folder settings.toggled .null with
  | (folder, .error f) => fail folder f
  | (folder, .ok _) => first [debugPanel settings.toggled] (next folder settings.toggled)

/-- The choices that toggle the debug mode. -/
def toggleChoices : List String := ["D", "d"]

/-- What a choice in the menu leads to. -/
def choose (frame : Frame) (folder : Folder) (settings : Settings) (answer : String) : Happening :=
  if answer == "1" then openGame frame folder settings
  else if toggleChoices.contains answer then
    toggle frame folder settings fun folder _ => openMenu frame folder
  else if answer == "2" then
    ([.print (.line "\nGoodbye.")], ⟨folder, .over .quit⟩)
  else openMenu frame folder

/-- The commands that leave a game. -/
def exitCommands : List String := ["quit", "exit", "menu"]

/-- The word by which an answer may leave a game or toggle its debug mode. -/
def control (answer : String) : String := Text.trim (Text.lower answer)

/-- What an answer in a game leads to. -/
def play (frame : Frame) (folder : Folder) (settings : Settings) (game : Game) (answer : String) :
    Happening :=
  if exitCommands.contains (control answer) then leaveGame frame folder
  else if control answer == "debug" then
    toggle frame folder settings fun folder settings =>
      ([askCommand], ⟨folder, .playing settings game⟩)
  else
    let turn := game.listener.turn (some game.world) (.text answer) settings.isDebug
    match turn.result with
    | .error f => first turn.events (fail folder f)
    | .ok _ => (turn.events ++ [askCommand], ⟨folder, .playing settings game⟩)

/-- What an answer leads to. -/
def step (frame : Frame) (s : State) (answer : String) : Happening :=
  match s.stage with
  | .menu settings => choose frame s.folder settings answer
  | .playing settings game => play frame s.folder settings game answer
  | .over _ => ([], s)

/-- Goes on with a session through some answers. A session that still waits when the answers have
run out fails. -/
def run (frame : Frame) (s : State) : List String → Happening
  | [] =>
    match s.stage with
    | .over _ => ([], s)
    | _ => fail s.folder .noMoreAnswers
  | answer :: rest =>
    let (events, s) := step frame s answer
    first events (run frame s rest)

/-- A whole session from its first happening on. -/
def complete (frame : Frame) (h : Happening) (answers : List String) : Happening :=
  first h.1 (run frame h.2 answers)

/-- A game with the given settings. -/
def game (host : Host) (folder : Folder) (settings : Settings) (answers : List String) :
    Happening :=
  complete ⟨host, false⟩ (openGame ⟨host, false⟩ folder settings) answers

/-- The whole program, which begins with the menu. -/
def program (host : Host) (folder : Folder) (answers : List String) : Happening :=
  complete ⟨host, true⟩ (openMenu ⟨host, true⟩ folder) answers

end Session

end TextAdventure
