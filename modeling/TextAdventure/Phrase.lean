import TextAdventure.Resolution
import TextAdventure.Text.Lowercase

/-!
# Phrases

A symbol may stand for one of a fixed list of phrases, such as the names of dances. Phrases are kept
in lower case with single spaces. The first phrase of the list whose words are the next words of the
input is meant, even if a later one would cover more; a blank phrase always fits.
-/

namespace TextAdventure.Phrase

/-- A phrase as it is kept: its words in lower case with single spaces between. -/
def canonical (s : String) : String := Text.spaced (Text.words (Text.lower s))

/-- The phrases in some documents, which all have to be texts. -/
def ofDocuments (ds : List Document) : Except Fault (List String) :=
  match Document.texts (fun d => .misfit (.phraseText d)) ds with
  | .ok ss => .ok (ss.map canonical)
  | .error f => .error f

/-- Whether the input begins with some words. -/
def begins : List String → List Document → Bool
  | [], _ => true
  | w :: ws, d :: ds => d.isText w && begins ws ds
  | _ :: _, [] => false

/-- Whether a phrase's words are the next words of the input from a place on. -/
def fits (phrase : String) (input : List Document) (start : Int) : Bool :=
  begins (Text.words phrase) (if start < 0 then [] else input.drop start.toNat)

/-- The outcome for the first phrase of a list that fits. -/
def outcome (known : List String) (input : List Document) (start : Int) : Outcome :=
  match known.find? fun phrase => fits phrase input start with
  | some phrase => .resolved (.document (.text phrase)) (start + (Text.words phrase).length)
  | none => .refused (.unknownPhrase (itemsFrom input start) known)

/-- Resolves a phrase. -/
def resolve (known : List String) : Resolve := fun input start =>
  match outcome known input start with
  | .resolved value position => .ok ⟨.resolved value position, position⟩
  | .refused cause => .ok ⟨.refused cause, start⟩

end TextAdventure.Phrase
