import TextAdventure.Grammar

/-!
# Matching a rule

A rule is tried against the words of the input from the word after the verb on. Its tokens are gone
through in order: a literal has to be the next word, and a symbol is handed over to its resolver,
which says where to go on. The rule matches only if tokens and words run out together; a rule that
fits a beginning of the input and leaves words behind fails.

An attempt that fails says why and what was left of the input where it failed. The matcher only
looks at the place that a resolver returns, never at the place where the resolver left its own
cursor.
-/

namespace TextAdventure

/-- Why a rule does not match. -/
inductive Failure where
  /-- The next word is not the literal, or there is none. -/
  | literalMismatch (expected : String) (got : Option Document)
  /-- There is no resolver for a symbol. -/
  | unregisteredSymbol (symbol : String)
  /-- A symbol could not be resolved. -/
  | refused (symbol : String) (cause : Refusal)
  /-- The rule is over and there are words left. -/
  | inputRemaining

namespace Failure

/-- The word for the cause of a failure. -/
def reason : Failure → Document
  | .literalMismatch _ _ => .text "literal_mismatch"
  | .unregisteredSymbol _ => .text "unregistered_symbol"
  | .refused _ cause => cause.reason
  | .inputRemaining => .text "input_remaining"

/-- The details of a failure; those of a refusal are completed by the symbol. -/
def details : Failure → Details
  | .literalMismatch expected got => [("expected", .text expected), ("got", got.getD .null)]
  | .unregisteredSymbol symbol => [("symbol", .text symbol)]
  | .refused symbol cause => cause.details.insert "symbol" (.text symbol)
  | .inputRemaining => []

end Failure

/-- What trying a rule comes to. -/
inductive Verdict where
  /-- The rule matches, with the values of its symbols. -/
  | matched (params : List Value)
  /-- The rule fails, and these words were left. -/
  | failed (cause : Failure) (leftover : List Document)

/-- The verdict on a rule that goes on after a symbol, from the symbol's value and the verdict on
the rest of the rule. -/
def Verdict.after (value : Value) : Verdict → Verdict
  | .matched params => .matched (value :: params)
  | .failed cause leftover => .failed cause leftover

namespace Match

/-- The verdict when all tokens have been used. -/
def atEnd (input : List Document) (place : Int) : Verdict :=
  match itemAt? input place with
  | some _ => .failed .inputRemaining (itemsFrom input place)
  | none => .matched []

/-- Tries tokens against the words of the input from a place on. -/
def tokens (resolves : String → Option Resolve) (input : List Document) :
    List Token → Int → Except Fault Verdict
  | [], place => .ok (atEnd input place)
  | .literal word :: rest, place =>
    match itemAt? input place with
    | none => .ok (.failed (.literalMismatch word none) (itemsFrom input place))
    | some d =>
      if d.isText word then tokens resolves input rest (place + 1)
      else .ok (.failed (.literalMismatch word (some d)) (itemsFrom input place))
  | .symbol name :: rest, place =>
    match resolves name with
    | none => .ok (.failed (.unregisteredSymbol name) (itemsFrom input place))
    | some resolve =>
      match resolve input place with
      | .error f => .error f
      | .ok ⟨.refused cause, _⟩ => .ok (.failed (.refused name cause) (itemsFrom input place))
      | .ok ⟨.resolved value next, _⟩ =>
        match tokens resolves input rest next with
        | .error f => .error f
        | .ok verdict => .ok (verdict.after value)

end Match

/-- A rule that was tried, and what came of it. -/
structure Attempt where
  rule : Rule
  verdict : Verdict

/-- Tries a rule against the words of the input from a place on. -/
def Rule.attempt (r : Rule) (resolves : String → Option Resolve) (input : List Document)
    (start : Int) : Except Fault Attempt :=
  match Match.tokens resolves input r.tokens start with
  | .ok verdict => .ok ⟨r, verdict⟩
  | .error f => .error f

/-- An attempt in a message. -/
def Attempt.quoted (a : Attempt) : String :=
  match a.verdict with
  | .matched params =>
    "Match(" ++ Text.quoted a.rule.pattern ++ ", params=" ++ Value.quotedTuple params ++ ")"
  | .failed cause _ =>
    "Match(" ++ Text.quoted a.rule.pattern ++ ", failed=" ++ cause.reason.quoted ++ ")"

end TextAdventure
