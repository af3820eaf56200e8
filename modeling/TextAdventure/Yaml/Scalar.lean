import TextAdventure.Yaml.Source

/-!
# Reading scalars off the page

A scalar is a text without parts. It is written plain, in single or double quotes, or as a block of
lines after a bar or an angle bracket. Each form has its own rules for line ends: in the first
three, a single line end inside stands for a space and each further one for itself; a block keeps
its line ends or folds them in the same way.

The readers below start at the first character of a scalar and return its text together with the
source after it. They repeat a step for as long as there are characters; the number of characters
left bounds the number of steps.
-/

namespace TextAdventure.Yaml

/-- What a reader of one item returns: the item and the source after it. -/
abbrev Scanned (α : Type) := Except Fault (α × Source)

/-! ### Quoted scalars -/

/-- The character that a letter after a backslash stands for. -/
def escaped? (c : Char) : Option Char :=
  match c with
  | '0' => some '\x00'
  | 'a' => some '\x07'
  | 'b' => some '\x08'
  | 't' => some '\t'
  | '\t' => some '\t'
  | 'n' => some '\n'
  | 'v' => some '\x0B'
  | 'f' => some '\x0C'
  | 'r' => some '\r'
  | 'e' => some '\x1B'
  | ' ' => some ' '
  | '"' => some '"'
  | '\\' => some '\\'
  | '/' => some '/'
  | 'N' => some '\u0085'
  | '_' => some '\u00A0'
  | 'L' => some '\u2028'
  | 'P' => some '\u2029'
  | _ => none

/-- The number of hexadecimal digits that a letter after a backslash announces. -/
def escapeWidth? (c : Char) : Option Nat :=
  match c with
  | 'x' => some 2
  | 'u' => some 4
  | 'U' => some 8
  | _ => none

/-- The line ends after the first one inside a quoted scalar, with the spaces around them
dropped. -/
def quotedBreaks (s : Source) : Nat → Scanned (List Char)
  | 0 => .ok ([], s)
  | fuel + 1 =>
    if s.atSeparator then .error .unreadable
    else
      let s := s.skipWhile fun c => c = ' ' || c = '\t'
      if isBreak s.peek then
        let (b, s) := s.lineBreak
        match quotedBreaks s fuel with
        | .ok (more, s) => .ok (b ++ more, s)
        | .error f => .error f
      else .ok ([], s)

/-- What a line end inside a scalar stands for: a line feed alone becomes a space, and disappears
before further line ends; other breaks stay. -/
def foldedBreak (first more : List Char) : List Char :=
  if first ≠ ['\n'] then first ++ more
  else if more.isEmpty then [' ']
  else more

/-- Spaces, tabs and line ends inside a quoted scalar. -/
def quotedSpaces (s : Source) : Scanned (List Char) :=
  let (spaces, s) := s.takeWhile fun c => c = ' ' || c = '\t'
  let c := s.peek
  if c = '\x00' then .error .unreadable
  else if isBreak c then
    let (first, s) := s.lineBreak
    match quotedBreaks s s.rest.length.succ with
    | .ok (more, s) => .ok (foldedBreak first more, s)
    | .error f => .error f
  else .ok (spaces, s)

/-- The character of a number. There is none from `0x110000` on. -/
def charOf (n : Nat) : Except Fault Char :=
  if n < 0x110000 then .ok (Char.ofNat n) else .error .badValue

/-- What a backslash and the characters after it stand for in a double-quoted scalar; the source is
at the character after the backslash. -/
def escape (s : Source) : Scanned (List Char) :=
  let c := s.peek
  match escaped? c, escapeWidth? c with
  | some d, _ => .ok ([d], s.skip)
  | none, some width =>
    let s := s.skip
    let digits := s.rest.take width
    if digits.length = width then
      match Decimal.readNat? 16 digits with
      | some n =>
        match charOf n with
        | .ok d => .ok ([d], s.skipMany width)
        | .error f => .error f
      | none => .error .unreadable
    else .error .unreadable
  | none, none =>
    if isBreak c then
      let s := s.lineBreak.2
      quotedBreaks s s.rest.length.succ
    else .error .unreadable

/-- The text of a quoted scalar up to its closing quote, which is passed. -/
def quotedBody (double : Bool) (s : Source) : Nat → Scanned (List Char)
  | 0 => .error .unreadable
  | fuel + 1 =>
    let quote := if double then '"' else '\''
    let c := s.peek
    let continued (part : Scanned (List Char)) : Scanned (List Char) :=
      match part with
      | .error f => .error f
      | .ok (front, s) =>
        match quotedBody double s fuel with
        | .ok (more, s) => .ok (front ++ more, s)
        | .error f => .error f
    if c = quote then
      if !double && s.peekAt 1 = quote then continued (.ok ([quote], s.skipMany 2))
      else .ok ([], s.skip)
    else if double && c = '\\' then continued (escape s.skip)
    else if c = ' ' || c = '\t' || endsLine c then continued (quotedSpaces s)
    else continued (.ok ([c], s.skip))

/-- A scalar in quotes. -/
def quotedScalar (double : Bool) (s : Source) : Scanned (List Char) :=
  quotedBody double s.skip s.rest.length.succ

/-! ### Plain scalars -/

/-- Whether a character has a meaning of its own inside brackets. -/
def isFlowMark (c : Char) : Bool :=
  c = ',' || c = '[' || c = ']' || c = '\x7b' || c = '\x7d'

/-- Whether a plain scalar stops before a character that is followed by `next`. -/
def endsPlain (inFlow : Bool) (c next : Char) : Bool :=
  endsWord c
    || (c = ':' && (endsWord next || (inFlow && isFlowMark next)))
    || (inFlow && (isFlowMark c || c = '?'))

/-- How many characters at the front of a text belong to a plain scalar. -/
def plainLength (inFlow : Bool) : List Char → Nat
  | [] => 0
  | c :: cs => if endsPlain inFlow c (cs.headD '\x00') then 0 else plainLength inFlow cs + 1

/-- The line ends after the first one inside a plain scalar, and whether a new document begins after
them. -/
def plainBreaks (s : Source) : Nat → List Char × Bool × Source
  | 0 => ([], false, s)
  | fuel + 1 =>
    if s.peek = ' ' then plainBreaks s.skip fuel
    else if isBreak s.peek then
      let (b, s) := s.lineBreak
      if s.atSeparator then ([], true, s)
      else
        let (more, stop, s) := plainBreaks s fuel
        (b ++ more, stop, s)
    else ([], false, s)

/-- The space after a part of a plain scalar: the text it stands for, whether a line ended in it,
and the source after it. Before a new document it stands for nothing. -/
def plainSpaces (s : Source) : List Char × Bool × Source :=
  let (spaces, s) := s.takeWhile fun c => c = ' '
  if isBreak s.peek then
    let (first, s) := s.lineBreak
    if s.atSeparator then ([], true, s)
    else
      let (more, stop, s) := plainBreaks s s.rest.length.succ
      (if stop then [] else foldedBreak first more, true, s)
  else (spaces, false, s)

/-- A plain scalar that may not go on in a line indented less than `indent`: its text, whether a
line ended after its last part, and the source after it. The `gap` is the space before the next
part. -/
def plainBody (inFlow : Bool) (indent : Int) (gap : List Char) (ended : Bool) (s : Source) :
    Nat → List Char × Bool × Source
  | 0 => ([], ended, s)
  | fuel + 1 =>
    let length := plainLength inFlow s.rest
    if s.peek = '#' || length = 0 then ([], ended, s)
    else
      let part := s.rest.take length
      let (next, ended, s) := plainSpaces (s.skipMany length)
      if next.isEmpty || s.peek = '#' || (!inFlow && (s.column : Int) < indent) then
        (gap ++ part, ended, s)
      else
        let (more, ended, s) := plainBody inFlow indent next ended s fuel
        (gap ++ part ++ more, ended, s)

/-! ### Block scalars -/

/-- What becomes of the line ends after a block: all are dropped, the first is kept, or all are
kept. -/
inductive Chomping where
  | strip
  | clip
  | keep

/-- The header of a block: what becomes of its last line ends, and its indentation, if given. -/
def blockHeader (s : Source) : Scanned (Chomping × Option Nat) :=
  let chomping? (c : Char) : Option Chomping :=
    if c = '+' then some .keep else if c = '-' then some .strip else none
  let indent? (c : Char) : Option Nat :=
    if '0' ≤ c && c ≤ '9' then some (c.toNat - 48) else none
  let finish (chomping : Option Chomping) (indent : Option Nat) (s : Source) :
      Scanned (Chomping × Option Nat) :=
    if indent = some 0 || !endsField s.peek then .error .unreadable
    else .ok ((chomping.getD .clip, indent), s)
  match chomping? s.peek with
  | some chomping =>
    let s := s.skip
    match indent? s.peek with
    | some n => finish (some chomping) (some n) s.skip
    | none => finish (some chomping) none s
  | none =>
    match indent? s.peek with
    | some n =>
      let s := s.skip
      match chomping? s.peek with
      | some chomping => finish (some chomping) (some n) s.skip
      | none => finish none (some n) s
    | none => finish none none s

/-- The rest of a line on which only a comment may follow. -/
def ignoredLine (s : Source) : Except Fault Source :=
  let s := s.skipWhile (· = ' ')
  let s := if s.peek = '#' then s.skipWhile (fun c => !endsLine c) else s
  if endsLine s.peek then .ok s.lineBreak.2 else .error .unreadable

/-- The empty lines before a block whose indentation is not given, and the widest column reached in
them. -/
def blockIndentation (s : Source) (widest : Nat) : Nat → List Char × Nat × Source
  | 0 => ([], widest, s)
  | fuel + 1 =>
    if s.peek = ' ' then
      let s := s.skip
      blockIndentation s (max widest s.column) fuel
    else if isBreak s.peek then
      let (b, s) := s.lineBreak
      let (more, widest, s) := blockIndentation s widest fuel
      (b ++ more, widest, s)
    else ([], widest, s)

/-- Passes spaces up to a column. -/
def skipIndent (indent : Nat) (s : Source) : Nat → Source
  | 0 => s
  | fuel + 1 =>
    if s.column < indent && s.peek = ' ' then skipIndent indent s.skip fuel else s

/-- The empty lines inside a block. -/
def blockBreaks (indent : Nat) (s : Source) : Nat → List Char × Source
  | 0 => ([], s)
  | fuel + 1 =>
    let s := skipIndent indent s indent
    if isBreak s.peek then
      let (b, s) := s.lineBreak
      let (more, s) := blockBreaks indent s fuel
      (b ++ more, s)
    else ([], s)

/-- The lines of a block, from its first line on: the text without the last line ends, the last line
end, the empty lines after it, and the source after them. -/
def blockLines (folded : Bool) (indent : Nat) (s : Source) (ended breaks : List Char) :
    Nat → List Char × List Char × List Char × Source
  | 0 => ([], ended, breaks, s)
  | fuel + 1 =>
    if s.column = indent && s.peek ≠ '\x00' then
      let leading := s.peek ≠ ' ' && s.peek ≠ '\t'
      let (line, s) := s.takeWhile fun c => !endsLine c
      let (b, s) := s.lineBreak
      let (empty, s) := blockBreaks indent s s.rest.length.succ
      if s.column = indent && s.peek ≠ '\x00' then
        let between :=
          if folded && b = ['\n'] && leading && s.peek ≠ ' ' && s.peek ≠ '\t' then
            (if empty.isEmpty then [' '] else [])
          else b
        let (more, ended, after, s) := blockLines folded indent s b empty fuel
        (breaks ++ line ++ between ++ more, ended, after, s)
      else (breaks ++ line, b, empty, s)
    else ([], ended, breaks, s)

/-- A block scalar inside a collection indented by `outer`. -/
def blockScalar (folded : Bool) (outer : Int) (s : Source) : Scanned (List Char) :=
  match blockHeader s.skip with
  | .error f => .error f
  | .ok ((chomping, given), s) =>
    match ignoredLine s with
    | .error f => .error f
    | .ok s =>
      let least := (max (outer + 1) 1).toNat
      let fuel := s.rest.length.succ
      let (indent, breaks, s) :=
        match given with
        | some n =>
          let indent := least + n - 1
          let (breaks, s) := blockBreaks indent s fuel
          (indent, breaks, s)
        | none =>
          let (breaks, widest, s) := blockIndentation s 0 fuel
          (max least widest, breaks, s)
      let (body, ended, after, s) := blockLines folded indent s [] breaks fuel
      let tail := match chomping with
        | .strip => []
        | .clip => ended
        | .keep => ended ++ after
      .ok (body ++ tail, s)

end TextAdventure.Yaml
