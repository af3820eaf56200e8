import TextAdventure.Decimal.Numeral

/-!
# Days and moments

A data file may hold a day of the calendar, or a moment of such a day to the microsecond, with or
without the distance of its clock from universal time. They are values of their own: a day is no
text, which is why a name like `2024-01-02` has to be quoted in a file.
-/

namespace TextAdventure

/-- A day of the calendar. -/
structure Day where
  year : Nat
  month : Nat
  day : Nat
  deriving DecidableEq

/-- A moment of a day. -/
structure Moment where
  date : Day
  hour : Nat
  minute : Nat
  second : Nat
  microsecond : Nat
  /-- The distance of the clock from universal time in minutes, where it is known. -/
  offset : Option Int
  deriving DecidableEq

/-- A day or a moment. -/
inductive Timestamp where
  | day (d : Day)
  | moment (m : Moment)
  deriving DecidableEq

namespace Day

/-- Whether a year has a 29th of February. -/
def isLeap (year : Nat) : Bool := year % 4 == 0 && (year % 100 != 0 || year % 400 == 0)

/-- The number of days of a month; none if there is no such month. -/
def monthLength (year month : Nat) : Nat :=
  match month with
  | 2 => if isLeap year then 29 else 28
  | 4 | 6 | 9 | 11 => 30
  | 1 | 3 | 5 | 7 | 8 | 10 | 12 => 31
  | _ => 0

/-- Whether the calendar has the day. Years are counted from 1 to 9999. -/
def isValid (d : Day) : Bool :=
  1 ≤ d.year && d.year ≤ 9999 && 1 ≤ d.day && d.day ≤ monthLength d.year d.month

/-- The number of days before the first of a month in its year. -/
def daysBeforeMonth (year month : Nat) : Nat :=
  (List.range (month - 1)).foldl (fun days m => days + monthLength year (m + 1)) 0

/-- The number of the day, counted from the beginning of the calendar. -/
def number (d : Day) : Nat :=
  let y := d.year - 1
  y * 365 + y / 4 - y / 100 + y / 400 + daysBeforeMonth d.year d.month + d.day

end Day

namespace Moment

/-- Whether clock and calendar have the moment; a clock's offset is less than a day. -/
def isValid (m : Moment) : Bool :=
  m.date.isValid && m.hour < 24 && m.minute < 60 && m.second < 60 && m.microsecond < 1000000
    && (match m.offset with
      | none => true
      | some o => o.natAbs < 24 * 60)

/-- The microseconds since the beginning of the calendar on the moment's own clock. -/
def localMicroseconds (m : Moment) : Int :=
  ((((m.date.number * 24 + m.hour) * 60 + m.minute) * 60 + m.second) * 1000000
    + m.microsecond : Nat)

/-- Whether two moments are the same point of time. One whose offset is unknown never is the same as
one whose offset is known. -/
def same (m m' : Moment) : Bool :=
  match m.offset, m'.offset with
  | none, none => m.localMicroseconds == m'.localMicroseconds
  | some o, some o' =>
    m.localMicroseconds - o * 60000000 == m'.localMicroseconds - o' * 60000000
  | _, _ => false

end Moment

/-- Whether two timestamps are the same. A day is not the same as any moment. -/
def Timestamp.same : Timestamp → Timestamp → Bool
  | .day d, .day d' => d == d'
  | .moment m, .moment m' => m.same m'
  | _, _ => false

/-! ### Text -/

/-- A number in decimal, filled up with zeros to a width. -/
def padded (width n : Nat) : String :=
  let ds := Decimal.digits n
  String.ofList (List.replicate (width - ds.length) '0' ++ ds)

/-- The offset of a clock, as hours and minutes with a sign. -/
def offsetText (o : Int) : String :=
  (if o < 0 then "-" else "+") ++ padded 2 (o.natAbs / 60) ++ ":" ++ padded 2 (o.natAbs % 60)

/-- A day as year, month and day. -/
def Day.text (d : Day) : String :=
  padded 4 d.year ++ "-" ++ padded 2 d.month ++ "-" ++ padded 2 d.day

/-- A timestamp in the form in which files hold it. -/
def Timestamp.text : Timestamp → String
  | .day d => d.text
  | .moment m =>
    m.date.text ++ " " ++ padded 2 m.hour ++ ":" ++ padded 2 m.minute ++ ":" ++ padded 2 m.second
      ++ (if m.microsecond = 0 then "" else "." ++ padded 6 m.microsecond)
      ++ (match m.offset with
        | none => ""
        | some o => offsetText o)

/-- The numbers of a list with commas between them. -/
def commas (ns : List Nat) : String :=
  String.ofList (List.intercalate [',', ' '] (ns.map Decimal.digits))

/-- The offset of a clock as messages name it: universal time, or a difference in days and seconds
of which the seconds are never negative. -/
def offsetName (o : Int) : String :=
  if o = 0 then "datetime.timezone.utc"
  else
    let seconds := "seconds=" ++ String.ofList (Decimal.ofInt (o * 60 % 86400))
    let days := if o < 0 then "days=-1, " else ""
    "datetime.timezone(datetime.timedelta(" ++ days ++ seconds ++ "))"

/-- A timestamp as messages name it, with the numbers it is made of. A moment names its seconds only
if they or the microseconds are not zero, and its microseconds only if they are not zero. -/
def Timestamp.quoted : Timestamp → String
  | .day d => "datetime.date(" ++ commas [d.year, d.month, d.day] ++ ")"
  | .moment m =>
    let tail :=
      if m.microsecond ≠ 0 then [m.second, m.microsecond]
      else if m.second ≠ 0 then [m.second]
      else []
    "datetime.datetime("
      ++ commas ([m.date.year, m.date.month, m.date.day, m.hour, m.minute] ++ tail)
      ++ (match m.offset with
        | none => ")"
        | some o => ", tzinfo=" ++ offsetName o ++ ")")

end TextAdventure
