import HttpBinding.Moment.Basic
import HttpBinding.Number.Numeral

/-!
# Reading moments

The international format for dates and times has several forms. A date is given
by year, month and day or by year, week and day of the week, with or without
hyphens between them. Any character may stand between date and time. A time of
day has hours and, if they follow, minutes, seconds and a fraction of them, with
or without colons; after it there may be an offset in the same form.
-/

namespace HttpBinding.Moment

/-- A time of day. -/
structure TimeOfDay where
  hour : Nat := 0
  minute : Nat := 0
  second : Nat := 0
  micro : Nat := 0
  deriving DecidableEq, Repr

namespace TimeOfDay

/-- The microseconds since midnight. -/
def micros (t : TimeOfDay) : Int :=
  ((t.hour * 3600 + t.minute * 60 + t.second : Nat) : Int) * Moment.second + t.micro

end TimeOfDay

/-- Takes so many decimal digits. -/
def takeDigits (count : Nat) (chars : List Char) : Option (Nat × List Char) :=
  let ds := chars.take count
  if ds.length = count && ds.all Char.isDigit then
    some (Number.digitsValue ds, chars.drop count)
  else none

/-- Takes a given character. -/
def expect (c : Char) : List Char → Option (List Char)
  | d :: rest => if c = d then some rest else none
  | [] => none

/--
How many characters the date has that a text begins with. Where both a hyphen and a digit
could be what stands between a week and a time, it is the hyphen; an odd number of digits
after a week begins with the day.
-/
def dateLength? (chars : List Char) : Option Nat :=
  if chars.length < 7 then none
  else if chars.length = 7 then some 7
  else if chars[4]? = some '-' then
    if chars[5]? != some 'W' then some 10
    else if chars[8]? != some '-' then some 8
    else if chars.length = 9 then none
    else if chars[10]?.any Char.isDigit then some 8
    else some 10
  else if chars[4]? = some 'W' then
    let digits := ((chars.drop 7).takeWhile Char.isDigit).length
    if digits < 2 then some (7 + digits) else if digits % 2 = 1 then some 7 else some 8
  else some 8

/-- The day of the week of the first day of a year, counted from Monday. -/
def firstWeekday (year : Nat) : Nat :=
  daysBeforeYear year % 7

/-- Whether a year has a week. -/
def hasWeek (year week : Nat) : Bool :=
  1 ≤ week && (week ≤ 52 ||
    week = 53 && (firstWeekday year = 3 || firstWeekday year = 2 && isLeap year))

/-- The day of a week, counted from the start of the calendar. -/
def dayOfWeek? (year week day : Nat) : Option Nat :=
  if 1 ≤ year && hasWeek year week && 1 ≤ day && day ≤ 7 then
    let past := daysBeforeYear year + (week - 1) * 7 + (day - 1)
    let lead := firstWeekday year
    some (if 3 < lead then past + 7 - lead else past - lead)
  else none

/-- The fields of a date given by a day from the start of the calendar. -/
def dateOfDay (days : Nat) : Fields :=
  let (year, inYear) := yearOf days
  let (month, day) := monthOf year inYear
  ⟨year, month, day, 0, 0, 0, 0⟩

/-- Reads week and day after the year; without a day it is the first one. -/
def readWeek? (year : Nat) (hyphens : Bool) (chars : List Char) : Option Fields := do
  let (week, rest) ← takeDigits 2 chars
  match rest with
  | [] => (dayOfWeek? year week 1).map dateOfDay
  | rest => do
    let rest ← if hyphens then expect '-' rest else some rest
    let (day, _) ← takeDigits 1 rest
    (dayOfWeek? year week day).map dateOfDay

/-- Reads month and day after the year. -/
def readMonth? (year : Nat) (hyphens : Bool) (chars : List Char) : Option Fields := do
  let (month, rest) ← takeDigits 2 chars
  let rest ← if hyphens then expect '-' rest else some rest
  let (day, rest) ← takeDigits 2 rest
  if rest.isEmpty then some ⟨year, month, day, 0, 0, 0, 0⟩ else none

/-- Reads a date. -/
def readDate? (chars : List Char) : Option Fields := do
  let (year, rest) ← takeDigits 4 chars
  let hyphens := rest.head? == some '-'
  match if hyphens then rest.drop 1 else rest with
  | 'W' :: rest => readWeek? year hyphens rest
  | rest => readMonth? year hyphens rest

/-- Reads a fraction of a second, and whether nothing is left; digits after the sixth are dropped. -/
def readFraction? (chars : List Char) : Option (Nat × Bool) := do
  let count := min 6 chars.length
  let (part, rest) ← takeDigits count chars
  some (part * Nat.pow 10 (6 - count), (rest.dropWhile Char.isDigit).isEmpty)

/--
Reads a time of day, and whether nothing is left of the text. A single character may be
left at any place where more could follow.
-/
def readTime? (chars : List Char) : Option (TimeOfDay × Bool) := do
  let (hour, rest) ← takeDigits 2 chars
  let colons := rest.head? == some ':'
  let next (chars : List Char) : Option (List Char) :=
    if colons then expect ':' chars
    else if chars.head? == some '.' || chars.head? == some ',' then none
    else some chars
  if rest.length < 2 then some ({ hour := hour }, rest.isEmpty)
  else do
    let (minute, rest) ← takeDigits 2 (← next rest)
    if rest.length < 2 then some ({ hour := hour, minute := minute }, rest.isEmpty)
    else do
      let (second, rest) ← takeDigits 2 (← next rest)
      if rest.length < 2 then
        some ({ hour := hour, minute := minute, second := second }, rest.isEmpty)
      else do
        let fraction ←
          if rest.head? == some '.' || rest.head? == some ',' then some (rest.drop 1)
          else if colons then none
          else some rest
        let (micro, isWhole) ← readFraction? fraction
        some (⟨hour, minute, second, micro⟩, isWhole)

/-- Whether a character begins an offset. -/
def beginsOffset (c : Char) : Bool :=
  c = '+' || c = '-' || c = 'Z'

/-- The microseconds of a day. -/
def dayMicros : Int := 86400 * second

/-- Reads an offset after its sign, which must be less than a day. -/
def readOffset? (negative : Bool) (chars : List Char) : Option Int := do
  let (time, isWhole) ← readTime? chars
  if isWhole && time.micros < dayMicros then
    some (if negative then -time.micros else time.micros)
  else none

/-- Reads a time of day with its offset, if it tells one. -/
def readClock? (chars : List Char) : Option (TimeOfDay × Option Int) := do
  let clock := chars.takeWhile (!beginsOffset ·)
  let (time, isWhole) ← readTime? clock
  match chars.drop clock.length with
  | [] => if isWhole then some (time, none) else none
  | ['Z'] => some (time, some 0)
  | 'Z' :: _ => none
  | sign :: rest => (readOffset? (sign == '-') rest).map fun offset => (time, some offset)

/-- Reads a moment. Without a time of day it is midnight. -/
def read? (text : String) : Option Moment := do
  let chars := text.toList
  let length ← dateLength? chars
  let date ← readDate? (chars.take length)
  let (time, offset) ←
    match chars.drop length with
    | [] | [_] => some (({} : TimeOfDay), none)
    | _ :: rest => readClock? rest
  let reading ← Fields.reading?
    { date with hour := time.hour, minute := time.minute, second := time.second, micro := time.micro }
  some ⟨reading, offset⟩

end HttpBinding.Moment
