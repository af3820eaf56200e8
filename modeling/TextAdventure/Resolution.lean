import TextAdventure.Entity
import TextAdventure.Cursor

/-!
# Resolutions

A symbol is resolved against the words of the input from a place on. The result is an outcome – the
value that the symbol stands for and the place after the words it took, or a refusal with its cause
– together with the place where the resolver left its own cursor.

A refusal names its cause by a word and gives details: a table that whoever debugs a grammar can
read. Resolvers that a game defines for itself have causes and details of their own.
-/

namespace TextAdventure

/-- Details of a refusal or a failure: names with documents, in order. -/
abbrev Details := Table String Document

/-- Why a symbol could not be resolved. -/
inductive Refusal where
  /-- The words name no entity. -/
  | noReference (words : List Document)
  /-- The words fit several entities equally well. -/
  | ambiguous (candidates : List String) (score : Int)
  /-- The words begin with none of the phrases. -/
  | unknownPhrase (words : List Document) (known : List String)
  /-- A cause that a game defines for itself. -/
  | other (reason : Document) (details : Details)

namespace Refusal

/-- The word for the cause of a refusal. -/
def reason : Refusal → Document
  | .noReference _ => .text "no_matching_reference"
  | .ambiguous _ _ => .text "ambiguous_reference"
  | .unknownPhrase _ _ => .text "unknown_phrase"
  | .other reason _ => reason

/-- The details of a refusal. -/
def details : Refusal → Details
  | .noReference words => [("words", .list words)]
  | .ambiguous candidates score =>
    [("candidates", .ofTexts candidates), ("score", .int score)]
  | .unknownPhrase words known => [("words", .list words), ("known", .ofTexts known)]
  | .other _ details => details

end Refusal

/-- Details as a document. -/
def Details.document (details : Details) : Document :=
  .mapping (details.map fun e => (.text e.1, e.2))

/-- What resolving a symbol comes to. -/
inductive Outcome where
  /-- A value, and the place after the words that stand for it. -/
  | resolved (value : Value) (position : Int)
  | refused (cause : Refusal)

/-- An outcome in a message. -/
def Outcome.quoted : Outcome → String
  | .resolved value position =>
    "Resolved(" ++ value.quoted ++ ", position=" ++ (Document.int position).quoted ++ ")"
  | .refused cause =>
    "Failed(" ++ cause.reason.quoted ++ ", " ++ cause.details.document.quoted ++ ")"

/-- An outcome, and the place where the resolver left its cursor. -/
structure Resolution where
  outcome : Outcome
  cursor : Int

/-- A way to resolve a symbol against the words of the input from a place on. -/
abbrev Resolve := List Document → Int → Except Fault Resolution

end TextAdventure
