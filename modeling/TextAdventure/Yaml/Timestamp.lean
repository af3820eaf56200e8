import TextAdventure.Fault

/-!
# Timestamps in a document file

A day is written as year, month and day with dashes between; a moment goes on with a `T` or blanks
and a clock, and may end in its distance from universal time or in a `Z`. A text of this form is a
timestamp even if no calendar has that day; reading its value fails then.
-/

namespace TextAdventure.Yaml

/-- How a moment names its distance from universal time. -/
inductive Zone where
  /-- Not at all. -/
  | unnamed
  /-- By a `Z`, for none. -/
  | universal
  /-- By a sign, hours and minutes. -/
  | offset (negative : Bool) (hours minutes : Nat)

/-- The clock of a moment, as it is written. -/
structure Clock where
  hour : Nat
  minute : Nat
  second : Nat
  /-- The digits after the point of the second. -/
  fraction : List Char
  zone : Zone

/-- A timestamp, as it is written. -/
structure WrittenTime where
  day : Day
  /-- Whether month and day are written with two digits each. -/
  padded : Bool
  clock : Option Clock

/-- A number of exactly `width` digits in front of a text, and the rest. -/
def fixed? (width : Nat) (cs : List Char) : Option (Nat × List Char) :=
  let ds := cs.take width
  if ds.length = width && ds.all Char.isDigit then
    (Decimal.readNat? 10 ds).map fun n => (n, cs.drop width)
  else none

/-- A number of two digits, or else of one, in front of a text, and the rest. -/
def short? (cs : List Char) : Option (Nat × List Char) := (fixed? 2 cs).orElse fun _ => fixed? 1 cs

/-- A text without the character `c` in front. -/
def after? (c : Char) : List Char → Option (List Char)
  | d :: cs => if d = c then some cs else none
  | [] => none

/-- Whether a character is a space or a tab. -/
def isGap (c : Char) : Bool := c = ' ' || c = '\t'

/-- The zone at the end of a moment. -/
def zone? (cs : List Char) : Option Zone :=
  match cs.dropWhile isGap with
  | [] => if cs.isEmpty then some .unnamed else none
  | ['Z'] => some .universal
  | sign :: rest =>
    if sign = '+' || sign = '-' then
      match short? rest with
      | some (hours, []) => some (.offset (sign = '-') hours 0)
      | some (hours, ':' :: rest) =>
        match fixed? 2 rest with
        | some (minutes, []) => some (.offset (sign = '-') hours minutes)
        | _ => none
      | _ => none
    else none

/-- The digits after the point of a second, if it has one, and the rest. -/
def fraction : List Char → List Char × List Char
  | '.' :: cs => (cs.takeWhile Char.isDigit, cs.dropWhile Char.isDigit)
  | cs => ([], cs)

/-- A clock with its zone. -/
def clock? (cs : List Char) : Option Clock := do
  let (hour, cs) ← short? cs
  let (minute, cs) ← fixed? 2 (← after? ':' cs)
  let (second, cs) ← fixed? 2 (← after? ':' cs)
  let (digits, cs) := fraction cs
  let zone ← zone? cs
  return ⟨hour, minute, second, digits, zone⟩

/-- The clock after a `T` or after blanks. -/
def clockAfterDay? : List Char → Option Clock
  | 'T' :: cs => clock? cs
  | 't' :: cs => clock? cs
  | c :: cs => if isGap c then clock? (cs.dropWhile isGap) else none
  | [] => none

/-- A timestamp. -/
def time? (cs : List Char) : Option WrittenTime := do
  let (year, cs) ← fixed? 4 cs
  let cs ← after? '-' cs
  let (month, cs') ← short? cs
  let cs' ← after? '-' cs'
  let (day, rest) ← short? cs'
  let padded := (fixed? 2 cs).isSome && (fixed? 2 cs').isSome
  match rest with
  | [] => return ⟨⟨year, month, day⟩, padded, none⟩
  | _ => return ⟨⟨year, month, day⟩, padded, some (← clockAfterDay? rest)⟩

/-- Whether a text looks like a timestamp. A day alone needs two digits for month and day. -/
def looksTime (cs : List Char) : Bool :=
  match time? cs with
  | some t => t.clock.isSome || t.padded
  | none => false

/-- Microseconds from the digits after the point of a second; digits after the sixth are ignored. -/
def microseconds (digits : List Char) : Nat :=
  (Decimal.readNat? 10 ((digits ++ List.replicate 6 '0').take 6)).getD 0

/-- The distance from universal time in minutes. -/
def Zone.minutes : Zone → Option Int
  | .unnamed => none
  | .universal => some 0
  | .offset negative hours minutes =>
    let n : Int := hours * 60 + minutes
    some (if negative then -n else n)

/-- The timestamp that a text stands for. -/
def timeOf (cs : List Char) : Except Fault Timestamp :=
  match time? cs with
  | none => .error .lacking
  | some ⟨day, _, none⟩ => if day.isValid then .ok (.day day) else .error .badValue
  | some ⟨day, _, some c⟩ =>
    let m : Moment := ⟨day, c.hour, c.minute, c.second, microseconds c.fraction, c.zone.minutes⟩
    if m.isValid then .ok (.moment m) else .error .badValue

end TextAdventure.Yaml
