import TextAdventure.Fault

/-!
# The text of a document file, as it is read

A file is read character by character from left to right. Where a character stands matters twice:
its column decides what it belongs to, since nesting is shown by indentation, and a key has to be
followed by its colon on the same line and within 1024 characters. So the reader carries the rest of
the text together with the number of characters, lines and columns already passed.

Past the end there is an endless supply of the character zero, which no file may contain.
-/

namespace TextAdventure.Yaml

/-- The rest of a text, and where it begins. -/
structure Source where
  rest : List Char
  /-- The number of characters before the rest. -/
  index : Nat
  /-- The number of lines before the line in which the rest begins. -/
  line : Nat
  /-- The column in which the rest begins. -/
  column : Nat

/-- Whether a character ends a line: line feed, next line, line separator, paragraph separator. -/
def isBreak (c : Char) : Bool :=
  c = '\n' || c = '\u0085' || c = '\u2028' || c = '\u2029'

/-- Whether a character ends a line or stands past the end of the text. -/
def endsLine (c : Char) : Bool := c = '\x00' || isBreak c

/-- Whether a character is a space, ends a line or stands past the end. -/
def endsField (c : Char) : Bool := c = ' ' || endsLine c

/-- Whether a character is a space or a tab, ends a line or stands past the end. -/
def endsWord (c : Char) : Bool := c = '\t' || endsField c

/-- Whether a file may contain a character. -/
def isAllowed (c : Char) : Bool :=
  let n := c.toNat
  n == 0x09 || n == 0x0A || n == 0x0D || (0x20 ≤ n && n ≤ 0x7E) || n == 0x85
    || (0xA0 ≤ n && n ≤ 0xD7FF) || (0xE000 ≤ n && n ≤ 0xFFFD) || 0x10000 ≤ n

/-- Whether a character may stand in the name of an anchor, a handle or a directive. -/
def isNameChar (c : Char) : Bool :=
  ('0' ≤ c && c ≤ '9') || ('A' ≤ c && c ≤ 'Z') || ('a' ≤ c && c ≤ 'z') || c = '-' || c = '_'

namespace Source

/-- The next character. -/
def peek (s : Source) : Char := s.rest.headD '\x00'

/-- The character that stands `n` places after the next one. -/
def peekAt (s : Source) (n : Nat) : Char := (s.rest[n]?).getD '\x00'

/-- Passes one character. The byte order mark takes no column. -/
def skip (s : Source) : Source :=
  match s.rest with
  | [] => s
  | c :: rest =>
    if isBreak c then ⟨rest, s.index + 1, s.line + 1, 0⟩
    else if c = '\uFEFF' then ⟨rest, s.index + 1, s.line, s.column⟩
    else ⟨rest, s.index + 1, s.line, s.column + 1⟩

/-- Passes `n` characters. -/
def skipMany (s : Source) : Nat → Source
  | 0 => s
  | n + 1 => skipMany s.skip n

/-- The characters up to the first one that does not satisfy `p`, and the source after them. -/
def takeWhile (s : Source) (p : Char → Bool) : List Char × Source :=
  let taken := s.rest.takeWhile p
  (taken, s.skipMany taken.length)

/-- The source after all characters in front that satisfy `p`. -/
def skipWhile (s : Source) (p : Char → Bool) : Source := (s.takeWhile p).2

/-- Passes the end of a line, if the source is at one, and gives the break that it stands for: the
line and paragraph separators stand for themselves, the others for a line feed. -/
def lineBreak (s : Source) : List Char × Source :=
  let c := s.peek
  if c = '\n' || c = '\u0085' then (['\n'], s.skip)
  else if c = '\u2028' || c = '\u2029' then ([c], s.skip)
  else ([], s)

/-- Whether the source is at three dashes or three dots that stand alone. -/
def atMarker (s : Source) (c : Char) : Bool :=
  s.peek = c && s.peekAt 1 = c && s.peekAt 2 = c && endsWord (s.peekAt 3)

/-- Whether the source is at the beginning or the end of a document. -/
def atSeparator (s : Source) : Bool := s.atMarker '-' || s.atMarker '.'

end Source

end TextAdventure.Yaml
