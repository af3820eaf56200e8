import TextAdventure.Entity

/-!
# Actions

An action is what a rule triggers: a function that takes one value per symbol of the rule's pattern.
Its signature says how many values it takes, so that a rule that can never call its action is
refused when the grammar is loaded and not in the middle of a game. An action may have no signature;
nothing can be checked then.

What an action returns, the reply, is shown to the player: a value, or several values at once.
-/

namespace TextAdventure

/-- A parameter of an action. -/
inductive Parameter where
  | required (name : String)
  /-- A parameter that may be left out, with its default as it is written. -/
  | optional (name default : String)
  /-- A parameter that takes all further values. -/
  | rest (name : String)
  /-- A parameter that has to be given by its name, which a rule cannot do. -/
  | byName (name : String)

/-- The parameters of an action. -/
abbrev Signature := List Parameter

namespace Signature

/-- Whether a parameter has to be filled by a value. -/
def isRequired : Parameter → Bool
  | .required _ => true
  | _ => false

/-- Whether a parameter takes a single value. -/
def isSingle : Parameter → Bool
  | .required _ | .optional _ _ => true
  | _ => false

/-- Whether a parameter takes all further values. -/
def isRest : Parameter → Bool
  | .rest _ => true
  | _ => false

/-- Whether a parameter has to be given by its name. -/
def isByName : Parameter → Bool
  | .byName _ => true
  | _ => false

/-- Whether an action of this signature can be called with `n` values: all required parameters are
filled, no value is left over, and nothing has to be given by its name. -/
def accepts (signature : Signature) (n : Nat) : Bool :=
  signature.countP isRequired ≤ n
    && (signature.any isRest || n ≤ signature.countP isSingle)
    && !signature.any isByName

/-- A parameter as it is written. -/
def written : Parameter → String
  | .required name => name
  | .optional name default => name ++ "=" ++ default
  | .rest name => "*" ++ name
  | .byName name => name

/-- The parameters as they are written: a star alone goes before the first that has to be given by
its name, unless a parameter that takes the rest has gone before. -/
def writtenFrom (starred : Bool) : Signature → List String
  | [] => []
  | .rest name :: ps => written (.rest name) :: writtenFrom true ps
  | .byName name :: ps =>
    if starred then name :: writtenFrom true ps else "*" :: name :: writtenFrom true ps
  | p :: ps => written p :: writtenFrom starred ps

/-- A signature in a message. -/
def quoted (signature : Signature) : String :=
  "(" ++ Document.listed (writtenFrom false signature) ++ ")"

end Signature

/-- What an action returns. -/
inductive Reply where
  | value (v : Value)
  | values (vs : List Value)

/-- A reply as it is shown to the player. -/
def Reply.shown : Reply → String
  | .value v => v.shown
  | .values vs => "[" ++ Document.listed (vs.map Value.quoted) ++ "]"

/-- What a rule triggers. -/
structure Action where
  name : String
  signature : Option Signature
  run : List Value → Except Fault Reply

/-- What stands under a name in a table of actions: an action, or something that cannot be
called. -/
inductive Binding where
  | action (a : Action)
  | other (d : Document)

/-- What a binding is called when nothing else is said. -/
def Binding.label : Binding → Document
  | .action a => .text a.name
  | .other d => .text d.quoted

/-- The actions that a grammar may name. -/
abbrev Actions := Table String Binding

/-- The binding under the name that a document gives. -/
def Actions.find (actions : Actions) (name : Document) : Except Fault (Option Binding) :=
  if !name.canBeKey then .error .wrongKind
  else match name with
    | .text s => .ok (Table.get? s actions)
    | _ => .ok none

end TextAdventure
