/-!
# The exact value of a floating-point number

A floating-point number of 64 bits is a sign, a whole number below `2 ^ 53` and a power of two, or
one of three special values. Read off the bits, a finite number is `mantissa * 2 ^ exponent`
exactly, with no rounding anywhere. Numbers of different kinds are compared by these exact values,
so a whole number equals a floating-point number exactly when both are the same real number, however
large.
-/

namespace TextAdventure.Decimal

/-- The exact value of a number. -/
inductive Exact where
  /-- The real number `mantissa * 2 ^ exponent`. -/
  | finite (mantissa exponent : Int)
  /-- One of the two infinities. -/
  | infinite (negative : Bool)
  /-- The value of an undefined operation. It has no place in the order of the numbers. -/
  | undefined

/-- The sign, the exponent field and the fraction field of a number's bits. -/
def fields (x : Float) : Bool × Nat × Nat :=
  let n := x.toBits.toNat
  (n / Nat.pow 2 63 == 1, n / Nat.pow 2 52 % Nat.pow 2 11, n % Nat.pow 2 52)

/-- The size of a finite number as `mantissa * 2 ^ exponent`, from its exponent and fraction
fields. -/
def magnitude (power fraction : Nat) : Nat × Int :=
  if power = 0 then (fraction, -1074) else (Nat.pow 2 52 + fraction, (power : Int) - 1075)

/-- The exact value of a floating-point number. -/
def Exact.ofFloat (x : Float) : Exact :=
  let (negative, power, fraction) := fields x
  if power = 2047 then
    if fraction = 0 then .infinite negative else .undefined
  else
    let (mantissa, exponent) := magnitude power fraction
    .finite (if negative then -(mantissa : Int) else mantissa) exponent

/-- The exact value of a whole number. -/
def Exact.ofInt (n : Int) : Exact := .finite n 0

/-- A mantissa for an exponent that is smaller by `n`, which is not negative. -/
def scaled (mantissa n : Int) : Int := mantissa * (Nat.pow 2 n.toNat : Nat)

/-- Whether two exact values are the same. So that a value read from a file can be found again, the
undefined value is the same as itself. -/
def Exact.same : Exact → Exact → Bool
  | .finite m e, .finite m' e' =>
    if e ≤ e' then m == scaled m' (e' - e) else scaled m (e - e') == m'
  | .infinite negative, .infinite negative' => negative == negative'
  | .undefined, .undefined => true
  | _, _ => false

/-- Whether an exact value is the number zero. -/
def Exact.isZero : Exact → Bool
  | .finite m _ => m == 0
  | _ => false

end TextAdventure.Decimal
