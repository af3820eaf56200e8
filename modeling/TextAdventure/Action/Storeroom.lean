import TextAdventure.Action.Basic
import TextAdventure.Text.Lowercase

/-!
# The actions of the storeroom

The actions that the grammar of the bundled storeroom names. A real game would change its world
here; these only say what the player does.
-/

namespace TextAdventure.Action

/-- A text as a reply. -/
def say (s : String) : Reply := .value (.document (.text s))

/-- How an action calls a value: by its name in lower case, or by its words if it has no name. A
document has neither. -/
def called : Value → Except Fault String
  | .document _ => .error .lacking
  | .entity e =>
    match e.name? with
    | some name => .ok (if name.isEmpty then Text.spaced e.words else Text.lower name)
    | none => .ok (Text.spaced e.words)

/-- An action that calls one value. -/
def one (name parameter : String) (sentence : String → String) : Action where
  name
  signature := some [.required parameter]
  run
    | [v] => do return say (sentence (← called v))
    | _ => .error .wrongKind

/-- An action that calls two values. -/
def two (name first second : String) (sentence : String → String → String) : Action where
  name
  signature := some [.required first, .required second]
  run
    | [v, w] => do return say (sentence (← called v) (← called w))
    | _ => .error .wrongKind

/-- Taking an object. -/
def take : Action := one "take" "obj" fun o => "You take the " ++ o ++ "."

/-- Taking an object from another. -/
def takeFrom : Action :=
  two "take_from" "obj" "container" fun o c => "You take the " ++ o ++ " from the " ++ c ++ "."

/-- What is said when an object is given to somebody. -/
def giving (recipient object : String) : String :=
  "You give the " ++ object ++ " to the " ++ recipient ++ "."

/-- Giving somebody an object. -/
def give : Action := two "give" "recipient" "obj" giving

/-- Giving an object to somebody. -/
def giveReversed : Action := two "give_reversed" "obj" "recipient" fun o r => giving r o

/-- Dancing. -/
def dance : Action where
  name := "dance"
  signature := some []
  run
    | [] => .ok (say "You flail around wildly. Everyone judges you.")
    | _ => .error .wrongKind

/-- Dancing in a style. -/
def danceWithStyle : Action where
  name := "dance_with_style"
  signature := some [.required "style"]
  run
    | [v] => .ok (say ("You dance the " ++ v.shown ++ " very well."))
    | _ => .error .wrongKind

/-- Putting an object on another. -/
def put : Action :=
  two "put" "obj" "surface" fun o s => "You put the " ++ o ++ " on the " ++ s ++ "."

/-- The actions of the storeroom. -/
def storeroom : Actions :=
  [take, takeFrom, give, giveReversed, dance, danceWithStyle, put].map
    fun a => (a.name, .action a)

end TextAdventure.Action
