import TextAdventure.Decimal.Shortest

/-!
# Numerals

How numbers are written, and how a numeral is read. Whole numbers are written in plain decimal. A
floating-point number is written by its shortest digits, in positional form while its first digit
stands between the fourth place after the point and the sixteenth before it, and with an exponent of
at least two digits otherwise. The two places where such numbers are written differ in details,
which a `TextAdventure.Decimal.Style` records.
-/

namespace TextAdventure.Decimal

/-- The details in which two ways of writing floating-point numbers differ. -/
structure Style where
  /-- Whether a lone digit before an exponent is followed by a point and a zero. -/
  pointBeforeExponent : Bool
  /-- How infinity is written. -/
  infinity : String
  /-- How the undefined value is written. -/
  undefined : String

/-- Numbers in messages: `1e+22`, `inf`. -/
def Style.shown : Style := ⟨false, "inf", "nan"⟩

/-- Numbers in a data file: `1.0e+22`, `.inf`. -/
def Style.stored : Style := ⟨true, ".inf", ".nan"⟩

/-- The decimal digits of a natural number. -/
def digits (n : Nat) : List Char := Nat.toDigits 10 n

/-- A whole number in plain decimal. -/
def ofInt (n : Int) : List Char :=
  if n < 0 then '-' :: digits n.natAbs else digits n.natAbs

/-- How many digits a whole number may have that is read or written in decimal. -/
def digitLimit : Nat := 4300

/-- Whether a natural number has no more digits than that. -/
def isWritable (n : Nat) : Bool := n < Nat.pow 10 digitLimit

/-- A decimal `n * 10 ^ place` in positional form, with at least one digit on both sides of the
point. -/
def positional (n : Nat) (place : Int) : List Char :=
  let ds := digits n
  let first : Int := ds.length + place
  if 0 ≤ place then ds ++ List.replicate place.toNat '0' ++ ['.', '0']
  else if 0 < first then ds.take first.toNat ++ '.' :: ds.drop first.toNat
  else '0' :: '.' :: List.replicate (-first).toNat '0' ++ ds

/-- A decimal `n * 10 ^ place` with one digit before the point and an exponent. -/
def withExponent (style : Style) (n : Nat) (place : Int) : List Char :=
  let ds := digits n
  let exponent : Int := ds.length + place - 1
  let tail := match ds.drop 1 with
    | [] => if style.pointBeforeExponent then ['.', '0'] else []
    | more => '.' :: more
  let size := digits exponent.natAbs
  ds.take 1 ++ tail ++ ['e', if exponent < 0 then '-' else '+']
    ++ (if size.length < 2 then '0' :: size else size)

/-- A positive decimal `n * 10 ^ place`, positional from the fourth place after the point up to the
sixteenth before it. -/
def decimal (style : Style) (n : Nat) (place : Int) : List Char :=
  let exponent : Int := digitCount n + place - 1
  if -4 ≤ exponent && exponent < 16 then positional n place else withExponent style n place

/-- A floating-point number as text. -/
def ofFloat (style : Style) (x : Float) : List Char :=
  let (negative, power, fraction) := fields x
  let size :=
    if power = 2047 then
      (if fraction = 0 then style.infinity else style.undefined).toList
    else if power = 0 && fraction = 0 then ['0', '.', '0']
    else
      let (mantissa, exponent) := magnitude power fraction
      let (n, place) := shortest mantissa exponent
      decimal style n place
  if negative && !(power = 2047 && fraction ≠ 0) then '-' :: size else size

/-! ### Reading -/

/-- The number that a digit stands for, in any base up to sixteen. -/
def digitValue? (c : Char) : Option Nat :=
  if '0' ≤ c && c ≤ '9' then some (c.toNat - 48)
  else if 'a' ≤ c && c ≤ 'f' then some (c.toNat - 87)
  else if 'A' ≤ c && c ≤ 'F' then some (c.toNat - 55)
  else none

/-- The number that a list of digits adds to `sofar`, or `none` if one of them is no digit of the
base. -/
def readMore? (base : Nat) (sofar : Nat) : List Char → Option Nat
  | [] => some sofar
  | c :: cs =>
    match digitValue? c with
    | some d => if d < base then readMore? base (sofar * base + d) cs else none
    | none => none

/-- The natural number that a non-empty list of digits stands for in a base. -/
def readNat? (base : Nat) : List Char → Option Nat
  | [] => none
  | cs => readMore? base 0 cs

/-- The natural number that a non-empty list of decimal digits stands for, if there are not too many
of them. -/
def readDecimal? (cs : List Char) : Option Nat :=
  if cs.length ≤ digitLimit then readNat? 10 cs else none

/-- The floating-point number nearest to `n * 10 ^ place`. Decimals far outside the range of
floating-point numbers are settled by their length alone. -/
def toFloat (n : Nat) (place : Int) : Float :=
  let leading : Int := digitCount n + place
  if n = 0 || leading < -400 then 0.0
  else if 400 < leading then Float.ofScientific 1 false 400
  else if 0 ≤ place then Float.ofScientific n false place.toNat
  else Float.ofScientific n true (-place).toNat

/-- Splits a list at its first element that satisfies `p`, which is left out. -/
def splitAtFirst (p : Char → Bool) (cs : List Char) : List Char × Option (List Char) :=
  match cs.dropWhile (fun c => !p c) with
  | [] => (cs, none)
  | _ :: rest => (cs.takeWhile (fun c => !p c), some rest)

/-- The exponent after an `e`: digits with or without a sign. -/
def readExponent? : List Char → Option Int
  | '+' :: cs => (readNat? 10 cs).map Int.ofNat
  | '-' :: cs => (readNat? 10 cs).map fun n => -(n : Int)
  | cs => (readNat? 10 cs).map Int.ofNat

/-- The floating-point number that an unsigned decimal numeral stands for: digits with a point among
them or not, at least one digit, and an exponent or none. -/
def readFloat? (cs : List Char) : Option Float :=
  let (body, exponent) := splitAtFirst (fun c => c = 'e' || c = 'E') cs
  let (whole, fraction) := splitAtFirst (fun c => c = '.') body
  let places := fraction.getD []
  match readNat? 10 (whole ++ places), (match exponent with
      | none => some 0
      | some e => readExponent? e) with
  | some n, some e => some (toFloat n (e - places.length))
  | _, _ => none

end TextAdventure.Decimal
