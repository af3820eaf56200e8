import TextAdventure.Decimal.Exact

/-!
# The fewest digits that read back

A floating-point number stands for every real number that rounds to it, an interval around its exact
value. Its decimal text is the one with the fewest digits among the decimals of that interval, and
of those the one nearest to the exact value.

The search goes through the decimal grids from coarse to fine: one digit, two digits, up to
seventeen, which always suffice. On each grid only the two neighbours of the exact value are tried,
because if any point of a grid lies in the interval, one of these does. Everything is exact
arithmetic on natural numbers: value and interval are scaled by four times the denominator, so that
the ends of the interval, halfway to the neighbouring numbers, are whole as well.
-/

namespace TextAdventure.Decimal

/-- The numerator over `denominator` of a positive number and of the ends of its interval. -/
structure Interval where
  /-- The lower end. -/
  low : Nat
  /-- The number itself. -/
  value : Nat
  /-- The upper end. -/
  high : Nat
  /-- The common denominator. -/
  denominator : Nat
  /-- Whether the ends belong to the interval. -/
  closed : Bool

/-- The interval of the positive number `mantissa * 2 ^ exponent`. The gap below a power of two is
half the gap above it, but for the smallest normal number; a number with an even mantissa also gets
the reals halfway to its neighbours. -/
def Interval.of (mantissa : Nat) (exponent : Int) : Interval :=
  let below := if mantissa = Nat.pow 2 52 && exponent > -1074 then 1 else 2
  let up := Nat.pow 2 (exponent - 2).toNat
  { low := (4 * mantissa - below) * up
    value := 4 * mantissa * up
    high := (4 * mantissa + 2) * up
    denominator := Nat.pow 2 (2 - exponent).toNat
    closed := mantissa % 2 == 0 }

/-- Whether a number lies in the interval, given by its numerator over the interval's denominator
times `factor`. -/
def Interval.holds (i : Interval) (factor scaled : Nat) : Bool :=
  if i.closed then i.low * factor ≤ scaled && scaled ≤ i.high * factor
  else i.low * factor < scaled && scaled < i.high * factor

/-- The neighbour of the value on the grid of the multiples of `10 ^ place` that lies in the
interval, the nearer one if both do and the even one if both are as near. -/
def Interval.onGrid? (i : Interval) (place : Int) : Option Nat :=
  let factor := Nat.pow 10 (-place).toNat
  let unit := i.denominator * Nat.pow 10 place.toNat
  let value := i.value * factor
  let below := value / unit
  let above := below + 1
  match i.holds factor (below * unit), i.holds factor (above * unit) with
  | false, false => none
  | true, false => some below
  | false, true => some above
  | true, true =>
    let down := value - below * unit
    let up := above * unit - value
    if down < up || (down == up && below % 2 == 0) then some below else some above

/-- How many decimal digits a natural number has; zero has one. -/
def digitCount (n : Nat) : Nat := (Nat.toDigits 10 n).length

/-- The exponent of the first decimal digit of the interval's value. No number of 64 bits is as
small as `10 ^ -400`, so the value multiplied by `10 ^ 400` has its first digit before the point. -/
def Interval.leading (i : Interval) : Int :=
  (digitCount (i.value * Nat.pow 10 400 / i.denominator) : Int) - 401

/-- The first grid with a point in the interval, of at most `fuel` grids from `place` downwards. -/
def Interval.search (i : Interval) (place : Int) : Nat → Nat × Int
  | 0 => (0, place)
  | fuel + 1 =>
    match i.onGrid? place with
    | some n => (n, place)
    | none => i.search (place - 1) fuel

/-- Divides out factors of ten, at most `fuel` of them, and counts them in the exponent. -/
def withoutTrailingZeros : Nat → Nat → Int → Nat × Int
  | 0, n, place => (n, place)
  | fuel + 1, n, place =>
    if n ≠ 0 && n % 10 == 0 then withoutTrailingZeros fuel (n / 10) (place + 1) else (n, place)

/-- The shortest decimal `n * 10 ^ place` that reads back as the positive number
`mantissa * 2 ^ exponent`. -/
def shortest (mantissa : Nat) (exponent : Int) : Nat × Int :=
  let i := Interval.of mantissa exponent
  let (n, place) := i.search i.leading 18
  withoutTrailingZeros 20 n place

end TextAdventure.Decimal
