import TextAdventure.Document.Access
import TextAdventure.Text.Lowercase

/-!
# Patterns

A rule's pattern says what may follow the verb: words in double quotes stand for themselves, any
other part is the name of a symbol, which stands for an object of the scene or for a phrase. So
`"up" single "on" single` is the word *up*, an object, the word *on* and another object.

## Parts

A pattern is cut into parts at its blanks, but blanks inside quotes do not count. Where a part
begins with a quote and a later quote stands on the same line with at least one character in
between, the part is *quoted* and ends with the nearest such quote, whatever follows. Otherwise the
part is *bare* and goes on to the next blank, quotes included. The scan below walks along the
pattern and counts down the characters that already belong to a part.

## Tokens

A quoted part is a literal for each run of small letters in its lower case; a bare part is a symbol
with the part as its name. Digits, accents and punctuation in a quoted part only separate its words.
-/

namespace TextAdventure

/-- A piece of a pattern. -/
inductive Token where
  /-- A word that stands for itself. -/
  | literal (word : String)
  /-- A symbol of a grammar. -/
  | symbol (name : String)
  deriving DecidableEq

namespace Pattern

/-- The characters up to the nearest quote, if it stands on the same line, and that quote. -/
def toQuote? : List Char → Option (List Char)
  | [] => none
  | c :: cs =>
    if c = '"' then some [c]
    else if c = '\n' then none
    else (toQuote? cs).map (c :: ·)

/-- The quoted part at the front of a text that begins with a quote: at least one character, on one
line, stands between its quotes. -/
def quoted? : List Char → Option (List Char)
  | '"' :: c :: cs => if c = '\n' then none else (toQuote? cs).map ('"' :: c :: ·)
  | _ => none

/-- The part at the front of a text that does not begin with a blank. -/
def partOf (cs : List Char) : List Char :=
  match quoted? cs with
  | some part => part
  | none => cs.takeWhile Text.isInk

/-- The parts of a text of which the first `taken` characters belong to a part already. -/
def scan : Nat → List Char → List (List Char)
  | _, [] => []
  | taken + 1, _ :: cs => scan taken cs
  | 0, c :: cs =>
    if Text.isBlank c then scan 0 cs
    else partOf (c :: cs) :: scan ((partOf (c :: cs)).length - 1) cs

/-- The parts of a pattern, in order. -/
def parts (cs : List Char) : List (List Char) := scan 0 cs

/-- Whether a part is a quoted one: it has a quote at both ends and something in between. -/
def isQuoted (part : List Char) : Bool :=
  part.head? == some '"' && 2 < part.length && part.getLast? == some '"'

/-- Whether a character is a small letter of the alphabet. -/
def isSmallLetter (c : Char) : Bool := 'a' ≤ c && c ≤ 'z'

/-- The words of a quoted part. -/
def literals (part : List Char) : List String :=
  (Text.runs isSmallLetter (Text.lowerChars part)).map String.ofList

/-- The tokens of a part. -/
def tokensOf (part : List Char) : List Token :=
  if isQuoted part then (literals part).map .literal else [.symbol (String.ofList part)]

/-- The tokens of a pattern. -/
def compile (pattern : String) : List Token := (parts pattern.toList).flatMap tokensOf

/-- A token as it stands in a pattern. -/
def describeToken : Token → String
  | .literal word => "\"" ++ word ++ "\""
  | .symbol name => name

/-- Tokens as they stand in a pattern; a pattern without tokens is named as blank. -/
def describe (tokens : List Token) : String :=
  if tokens.isEmpty then "[blank]" else Text.spaced (tokens.map describeToken)

/-- The names of the symbols among some tokens, in order. -/
def symbolsOf : List Token → List String
  | [] => []
  | .literal _ :: rest => symbolsOf rest
  | .symbol name :: rest => name :: symbolsOf rest

/-- The pattern that a document stands for: a text, or the blank pattern for anything empty. -/
def ofDocument (d : Document) : Except Fault String :=
  if d.isEmpty then .ok ""
  else match d with
    | .text s => .ok s
    | _ => .error .wrongKind

end Pattern

end TextAdventure
