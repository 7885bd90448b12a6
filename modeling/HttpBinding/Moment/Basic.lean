import HttpBinding.Number.Decimal

/-!
# Moments

A moment is a wall-clock reading together with the offset of its clock from
universal time, when that is known. Readings count microseconds from the start
of the year 1 in the Gregorian calendar, which ends with the year 9999.
-/

namespace HttpBinding

/-- A wall-clock reading and the offset of the clock, both in microseconds. -/
structure Moment where
  reading : Int
  offset : Option Int
  deriving DecidableEq, Repr

namespace Moment

/-- Microseconds in a second. -/
def second : Int := 1000000

/-- Microseconds in a day. -/
def day : Int := 86400 * second

/-- Whether a year of the Gregorian calendar has a leap day. -/
def isLeap (year : Nat) : Bool :=
  year % 4 == 0 && (year % 100 != 0 || year % 400 == 0)

/-- The days of a month. -/
def daysInMonth (year month : Nat) : Nat :=
  if month = 2 then (if isLeap year then 29 else 28)
  else if month = 4 || month = 6 || month = 9 || month = 11 then 30
  else 31

/-- The days before a year. -/
def daysBeforeYear (year : Nat) : Nat :=
  let past := year - 1
  past * 365 + past / 4 - past / 100 + past / 400

/-- The days of a year before a month. -/
def daysBeforeMonth (year month : Nat) : Nat :=
  (List.range (month - 1)).foldl (fun days m => days + daysInMonth year (m + 1)) 0

/-- The number of readings in the calendar. -/
def calendarEnd : Int := daysBeforeYear 10000 * day

/-- A date and time of day. -/
structure Fields where
  year : Nat
  month : Nat
  day : Nat
  hour : Nat
  minute : Nat
  second : Nat
  micro : Nat
  deriving DecidableEq, Repr

/-- The reading of a date and time of day, if the calendar has it. -/
def Fields.reading? (f : Fields) : Option Int :=
  if 1 ≤ f.year && f.year ≤ 9999 && 1 ≤ f.month && f.month ≤ 12 && 1 ≤ f.day
      && f.day ≤ daysInMonth f.year f.month && f.hour < 24 && f.minute < 60 && f.second < 60
      && f.micro < 1000000 then
    let days : Int := daysBeforeYear f.year + daysBeforeMonth f.year f.month + (f.day - 1)
    let seconds : Int := f.hour * 3600 + f.minute * 60 + f.second
    some (days * Moment.day + seconds * Moment.second + f.micro)
  else none

/-- The year that holds a day counted from the start of the calendar, and the day in it. -/
def yearOf (days : Nat) : Nat × Nat :=
  let guess := days / 366 + 1
  let year := (List.range 30).foldl
    (fun year _ => if daysBeforeYear (year + 1) ≤ days then year + 1 else year) guess
  (year, days - daysBeforeYear year)

/-- The month that holds a day of a year, and the day in it, both from one. -/
def monthOf (year days : Nat) : Nat × Nat :=
  let month := (List.range 11).foldl
    (fun month _ => if daysBeforeMonth year (month + 1) ≤ days then month + 1 else month) 1
  (month, days - daysBeforeMonth year month + 1)

/-- The date and time of day of a reading. -/
def fieldsOf (reading : Int) : Fields :=
  let micros := reading.toNat
  let seconds := micros / 1000000
  let (year, inYear) := yearOf (seconds / 86400)
  let (month, day) := monthOf year inYear
  let inDay := seconds % 86400
  ⟨year, month, day, inDay / 3600, inDay / 60 % 60, inDay % 60, micros % 1000000⟩

/-- A number in at least `width` decimal digits. -/
def padded (width n : Nat) : String :=
  let ds := Number.digits n
  String.ofList (List.replicate (width - ds.length) '0' ++ ds)

/-- An offset as sign, hours, minutes, and seconds and their fraction when there are any. -/
def offsetText (offset : Int) : String :=
  let micro := offset.natAbs % 1000000
  let size := offset.natAbs / 1000000
  let fraction := if micro = 0 then "" else "." ++ padded 6 micro
  let seconds := if size % 60 = 0 && micro = 0 then "" else ":" ++ padded 2 (size % 60) ++ fraction
  (if offset < 0 then "-" else "+") ++ padded 2 (size / 3600) ++ ":" ++ padded 2 (size / 60 % 60)
    ++ seconds

/-- The moment in the international format for dates and times. -/
def text (m : Moment) : String :=
  let f := fieldsOf m.reading
  let micros := if f.micro = 0 then "" else "." ++ padded 6 f.micro
  padded 4 f.year ++ "-" ++ padded 2 f.month ++ "-" ++ padded 2 f.day ++ "T"
    ++ padded 2 f.hour ++ ":" ++ padded 2 f.minute ++ ":" ++ padded 2 f.second ++ micros
    ++ (match m.offset with
      | some offset => offsetText offset
      | none => "")

/-- The moment some seconds later, unless that is outside the calendar. -/
def addSeconds? (m : Moment) (seconds : Int) : Option Moment :=
  let later := m.reading + seconds * second
  if 0 ≤ later && later < calendarEnd then some { m with reading := later } else none

/-- The reading a clock with no offset would show, when the offset is known. -/
def universal? (m : Moment) : Option Int :=
  m.offset.map fun offset => m.reading - offset

/-- The microseconds from one moment to another, when both offsets are known or neither is. -/
def since? (later earlier : Moment) : Option Int :=
  match later.offset, earlier.offset with
  | none, none => some (later.reading - earlier.reading)
  | some a, some b => some ((later.reading - a) - (earlier.reading - b))
  | _, _ => none

end Moment

end HttpBinding
