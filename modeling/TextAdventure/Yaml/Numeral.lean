import TextAdventure.Fault

/-!
# Numerals in a document file

Which plain texts are numbers, and which numbers they are. A whole number may be written in binary,
octal, decimal or hexadecimal, with underscores between its digits, and as a run of sexagesimal
places, so that `12:30` is a number of minutes. In decimal it may have no more digits than
`TextAdventure.Decimal.digitLimit`; in the other bases there is no limit. A floating-point number
has a point; its exponent, if it has one, has a sign.
-/

namespace TextAdventure.Yaml

/-- A text without a sign in front. -/
def unsigned : List Char → List Char
  | '+' :: cs => cs
  | '-' :: cs => cs
  | cs => cs

/-- Whether a character is a digit or an underscore, which may separate digits. -/
def isSpacedDigit (c : Char) : Bool := c.isDigit || c = '_'

/-- Cuts a text at every colon. -/
def places (cs : List Char) : List (List Char) :=
  cs.foldr (fun c parts =>
    if c = ':' then [] :: parts
    else match parts with
      | [] => [[c]]
      | part :: parts => (c :: part) :: parts) [[]]

/-- Whether a text is a number below sixty, written with one digit or with two. -/
def isSexagesimalPlace : List Char → Bool
  | [a] => a.isDigit
  | [a, b] => '0' ≤ a && a ≤ '5' && b.isDigit
  | _ => false

/-- Whether a text is a run of sexagesimal places, at least one, each after a colon. -/
def isSexagesimal (cs : List Char) : Bool :=
  match places cs with
  | [] :: part :: parts => (part :: parts).all isSexagesimalPlace
  | _ => false

/-- Whether a text looks like a whole number: zero, octal digits after a zero, binary ones after
`0b`, hexadecimal ones after `0x`, or decimal ones, which sexagesimal places may follow. -/
def looksInt (cs : List Char) : Bool :=
  match unsigned cs with
  | ['0'] => true
  | '0' :: 'b' :: ds => !ds.isEmpty && ds.all fun c => c = '0' || c = '1' || c = '_'
  | '0' :: 'x' :: ds =>
    !ds.isEmpty && ds.all fun c => (Decimal.digitValue? c).isSome || c = '_'
  | '0' :: ds => ds.all fun c => ('0' ≤ c && c ≤ '7') || c = '_'
  | c :: ds =>
    let rest := ds.dropWhile isSpacedDigit
    '1' ≤ c && c ≤ '9' && (rest.isEmpty || isSexagesimal rest)
  | [] => false

/-- Whether a text is empty or an exponent: an `e`, a sign and digits. -/
def looksExponent : List Char → Bool
  | [] => true
  | e :: sign :: ds =>
    (e = 'e' || e = 'E') && (sign = '+' || sign = '-') && !ds.isEmpty && ds.all Char.isDigit
  | _ => false

/-- Whether a text is the name of infinity. -/
def isInfinity (cs : List Char) : Bool :=
  cs = ".inf".toList || cs = ".Inf".toList || cs = ".INF".toList

/-- Whether a text is the name of the undefined number. -/
def isUndefined (cs : List Char) : Bool :=
  cs = ".nan".toList || cs = ".NaN".toList || cs = ".NAN".toList

/-- Whether a text looks like a floating-point number. One that begins with its point has no
sign. -/
def looksFloat (cs : List Char) : Bool :=
  isUndefined cs || isInfinity (unsigned cs) ||
    match cs, unsigned cs with
    | '.' :: d :: ds, _ => d.isDigit && looksExponent (ds.dropWhile isSpacedDigit)
    | _, c :: ds =>
      let rest := ds.dropWhile isSpacedDigit
      c.isDigit
        && (match rest with
          | '.' :: ds => looksExponent (ds.dropWhile isSpacedDigit)
          | ':' :: _ =>
            let fraction := rest.dropWhile (· ≠ '.')
            isSexagesimal (rest.takeWhile (· ≠ '.'))
              && !fraction.isEmpty && fraction.tail.all isSpacedDigit
          | _ => false)
    | _, [] => false

/-! ### Values -/

/-- The value of sexagesimal places from the first to the last. -/
def sexagesimal (parts : List Nat) : Nat := parts.foldl (fun n part => n * 60 + part) 0

/-- The natural number that a text stands for after its sign and without underscores. -/
def natOf (cs : List Char) : Except Fault Nat :=
  let value (n? : Option Nat) : Except Fault Nat :=
    match n? with
    | some n => .ok n
    | none => .error .badValue
  match cs with
  | [] => .error .outOfRange
  | ['0'] => .ok 0
  | '0' :: 'b' :: ds => value (Decimal.readNat? 2 ds)
  | '0' :: 'x' :: ds => value (Decimal.readNat? 16 ds)
  | '0' :: _ => value (Decimal.readNat? 8 cs)
  | _ =>
    if cs.contains ':' then value (((places cs).mapM Decimal.readDecimal?).map sexagesimal)
    else value (Decimal.readDecimal? cs)

/-- The whole number that a text stands for. -/
def intOf (cs : List Char) : Except Fault Int :=
  let cs := cs.filter (· ≠ '_')
  match natOf (unsigned cs) with
  | .ok n => .ok (if cs.head? = some '-' then -(n : Int) else n)
  | .error f => .error f

/-- The value of sexagesimal places, of which the last may have a point. -/
def sexagesimalFloat (parts : List Float) : Float :=
  (parts.reverse.foldl (fun (sum, base) part => (sum + part * base, base * 60.0)) (0.0, 1.0)).1

/-- The floating-point number that a text stands for. -/
def floatOf (cs : List Char) : Except Fault Float :=
  let cs := (cs.filter (· ≠ '_')).map Char.toLower
  let body := unsigned cs
  let size? : Option Float :=
    if body = ".inf".toList then some (1.0 / 0.0)
    else if body = ".nan".toList then some (0.0 / 0.0)
    else if body.contains ':' then ((places body).mapM Decimal.readFloat?).map sexagesimalFloat
    else Decimal.readFloat? body
  if cs.isEmpty then .error .outOfRange
  else match size? with
    | some x => .ok (if cs.head? = some '-' then -x else x)
    | none => .error .badValue

end TextAdventure.Yaml
