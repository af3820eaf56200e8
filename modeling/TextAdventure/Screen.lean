import TextAdventure.Listener
import TextAdventure.Text.Markup

/-!
# The screen

What the player sees and is asked, in order: events. A print puts an item on the screen – a line of
marked-up text, a table, or a panel around another item – and a question waits for an answer. How an
item is drawn is up to the screen. A screen that reads the markup cannot draw every item
(`TextAdventure.Item.isDrawable`).

A turn prints up to two panels: in debug mode a table of all rules that were tried, with the verdict
on each, and then the answer to the player. Everything that comes from the player or from the data
files is escaped.
-/

namespace TextAdventure

/-- Something that can be put on the screen. -/
inductive Item where
  /-- A line of text with markup. -/
  | line (markup : String)
  /-- A text that is set out by the rules of a markup language for documents. -/
  | article (source : String)
  /-- A table with its column headers and rows. -/
  | table (columns : List String) (rows : List (List String))
  /-- An item in a frame with a title and a style. -/
  | panel (body : Item) (title : Option String) (style : String)

/-- What happens on the screen. -/
inductive Event where
  | print (item : Item)
  /-- A question, the answers it offers, and the one it assumes. -/
  | ask (question : String) (choices : Option (List String)) (default : Option String)
  /-- Plain text, written without regard to the screen's layout. -/
  | write (text : String)
  | clear

/-- Whether an item can be drawn by a screen that reads the tags of its texts. -/
def Item.isDrawable (styleName : String → String) : Item → Bool
  | .line markup => Text.isMarkup styleName markup
  | .article _ => true
  | .table columns rows =>
    (columns :: rows).all fun row => row.all fun cell => Text.isMarkup styleName cell
  | .panel body title _ =>
    body.isDrawable styleName && title.all fun markup => Text.isMarkup styleName markup

/-- A panel around a line. -/
def Item.framed (markup : String) (style : String) : Item := .panel (.line markup) none style

namespace Screen

/-- How a value is named in the trace: by its name if it has one. -/
def paramName : Value → String
  | .entity e => e.name?.getD e.quoted
  | v => v.shown

/-- Details in one line, each as its name and its document. -/
def detailLine (details : Details) : String :=
  Document.listed (details.map fun e => e.1 ++ "=" ++ e.2.shown)

/-- Whether a character is trimmed off the ends of a detail: the space and the bar that separate the
details from the words left. -/
def isSeparator (c : Char) : Bool := c = ' ' || c = '|'

/-- The details of a failure and the words that were left. -/
def failureLine (cause : Failure) (leftover : List Document) : String :=
  if leftover.isEmpty then detailLine cause.details
  else
    Text.trimWith isSeparator
      (detailLine cause.details ++ " | left: " ++ Text.spaced (leftover.map Document.shown))

/-- The row of an attempt in the trace: its pattern, its verdict and what there is to say about
it. -/
def attemptRow (a : Attempt) : List String :=
  let pattern := Text.escapeMarkup (Pattern.describe a.rule.tokens)
  match a.verdict with
  | .matched params =>
    let call := a.rule.label.shown ++ "(" ++ Document.listed (params.map paramName) ++ ")"
    [pattern, "[success]MATCH[/success]", Text.escapeMarkup call]
  | .failed cause leftover =>
    [pattern, "[warning]" ++ cause.reason.shown ++ "[/warning]",
      Text.escapeMarkup (failureLine cause leftover)]

/-- The word for how an interpretation failed, or nothing. -/
def failureReason (i : Interpretation) : String :=
  match i.conclusion with
  | .matched _ _ => Document.null.shown
  | .unmatched cause => cause.reason

/-- The rows of the trace. If no rule was tried, one row says why. -/
def traceRows (i : Interpretation) : List (List String) :=
  if i.trace.isEmpty then [["-", "[warning]" ++ failureReason i ++ "[/warning]", ""]]
  else i.trace.map attemptRow

/-- The rules that were tried for a command, in a panel. -/
def trace (i : Interpretation) : Item :=
  .panel (.table ["Rule", "Outcome", "Detail"] (traceRows i))
    (some (Text.escapeMarkup ("[DEBUG: Words " ++ (Document.ofTexts i.words).quoted ++ "]"))) "dim"

/-- The answer to a command, in a panel. A listener that says something other than a text to
commands it does not understand cannot be shown. -/
def answer (l : Listener) (i : Interpretation) : Except Fault Item :=
  match i.conclusion with
  | .matched _ reply => .ok (.framed (Text.escapeMarkup reply.shown) "success")
  | .unmatched _ =>
    match l.notUnderstood with
    | .text s => .ok (.framed (Text.escapeMarkup s) "warning")
    | _ => .error .wrongKind

end Screen

/-- What a turn puts on the screen, and what it comes to. -/
structure Turn where
  events : List Event
  result : Except Fault Interpretation

/-- Plays a turn: interprets a command, shows the trace in debug mode, and shows the answer. -/
def Listener.turn (l : Listener) (world : Option World) (command : Document) (debug : Bool) :
    Turn :=
  match l.interpret world command with
  | .error f => ⟨[], .error f⟩
  | .ok i =>
    let shown := if debug then [Event.print (Screen.trace i)] else []
    match Screen.answer l i with
    | .error f => ⟨shown, .error f⟩
    | .ok item => ⟨shown ++ [.print item], .ok i⟩

end TextAdventure
