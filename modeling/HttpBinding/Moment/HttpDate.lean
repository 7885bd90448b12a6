import HttpBinding.Moment.Basic
import HttpBinding.Number.Numeral
import HttpBinding.Text.Case
import HttpBinding.Text.Split

/-!
# Dates in headers

A date in a header is words between blanks: an optional day name, day, month
name, year, time of day and zone. Day and month may be exchanged, year and time
may be exchanged, two-digit years are those around the turn of the century, and
the zone is a name or a number of hours and minutes. Reading says whether the
words are a date, are none, or hold a number that no calendar field can take.
-/

namespace HttpBinding.HttpDate

open Text

/-- What reading a date comes to. -/
inductive Outcome where
  | moment (m : Moment)
  | notADate
  | outOfRange
  deriving DecidableEq, Repr

/-- Month names, short and long, in the order of the year. -/
def monthNames : List String :=
  ["jan", "feb", "mar", "apr", "may", "jun", "jul", "aug", "sep", "oct", "nov", "dec",
    "january", "february", "march", "april", "may", "june", "july", "august", "september",
    "october", "november", "december"]

/-- Day names. -/
def dayNames : List String :=
  ["mon", "tue", "wed", "thu", "fri", "sat", "sun"]

/-- Zone names with their offset, hours in the hundreds and minutes below. -/
def zoneNames : List (String × Int) :=
  [("UT", 0), ("UTC", 0), ("GMT", 0), ("Z", 0), ("AST", -400), ("ADT", -300), ("EST", -500),
    ("EDT", -400), ("CST", -600), ("CDT", -500), ("MST", -700), ("MDT", -600), ("PST", -800),
    ("PDT", -700)]

/-- The words between blanks. -/
def wordsOf (text : List Char) : List (List Char) :=
  (splitOn ' ' (text.map fun c => if isBlank c then ' ' else c)).filter (!·.isEmpty)

/-- A word in lower case, as a string. -/
def lowerWord (word : List Char) : String :=
  String.ofList (lower word)

/-- The part of a word after its last comma. -/
def afterComma (word : List Char) : List Char :=
  (word.reverse.takeWhile (· != ',')).reverse

/-- A word without one comma at its end. -/
def dropComma (word : List Char) : List Char :=
  if word.getLast? = some ',' then word.dropLast else word

/-- Drops the day name from the first word, which it may be or may begin. -/
def dropDayName : List (List Char) → List (List Char)
  | [] => []
  | word :: rest =>
    if word.getLast? = some ',' || dayNames.contains (lowerWord word) then rest
    else if word.contains ',' then afterComma word :: rest
    else word :: rest

/-- Divides day, month and year that are one word with hyphens, when three words are left. -/
def divideDate : List (List Char) → List (List Char)
  | [date, time, zone] =>
    match splitOn '-' date with
    | [day, month, year] => [day, month, year, time, zone]
    | _ => [date, time, zone]
  | words => words

/-- Divides a time from a zone that follows it with a sign, when there is no fifth word. -/
def divideZone : List (List Char) → List (List Char)
  | [day, month, year, time] =>
    let sign := if time.contains '+' then '+' else '-'
    let clock := time.takeWhile (· != sign)
    if time.contains sign && !clock.isEmpty then
      [day, month, year, clock, time.drop clock.length]
    else [day, month, year, time, []]
  | words => words

/-- The number of a month, from one. -/
def monthOf? (word : List Char) : Option Nat :=
  (monthNames.findIdx? (· == lowerWord word)).map (· % 12 + 1)

/-- Whether a word holds a colon, other than as its first character. -/
def isClock (word : List Char) : Bool :=
  word.contains ':' && word.head? != some ':'

/-- Hours, minutes and seconds of a time of day, divided by colons or else by points. -/
def clockWords (word : List Char) : Option (List Char × List Char × List Char) :=
  match splitOn ':' word with
  | [hour, minute] => some (hour, minute, ['0'])
  | [hour, minute, second] => some (hour, minute, second)
  | [_] =>
    if word.contains '.' then
      match splitOn '.' word with
      | [hour, minute] => some (hour, minute, ['0'])
      | [hour, minute, second] => some (hour, minute, second)
      | _ => none
    else none
  | _ => none

/-- The integer that a word is. -/
def intOf? (word : List Char) : Option Int :=
  Number.readInt? (String.ofList word)

/-- A year given by its last two digits lies between 1969 and 2068. -/
def fullYear (year : Int) : Int :=
  if year < 100 then (if 68 < year then year + 1900 else year + 2000) else year

/-- The offset in seconds of a zone, if it tells one. Minus zero tells none. -/
def zoneOffset? (word : List Char) : Option Int :=
  let zone := upper word
  let hundreds : Option Int :=
    match zoneNames.lookup (String.ofList zone) with
    | some offset => some offset
    | none =>
      match intOf? zone with
      | some 0 => if zone.head? = some '-' then none else some 0
      | other => other
  hundreds.map fun n =>
    let size : Int := n.natAbs
    let seconds := size / 100 * 3600 + size % 100 * 60
    if n < 0 then -seconds else seconds

/-- The numbers of a date, with the offset of its zone. -/
structure Numbers where
  year : Int
  month : Nat
  day : Int
  hour : Int
  minute : Int
  second : Int
  offset : Option Int

/-- Reads the five words of a date. -/
def numbersOf? (day month year time zone : List Char) : Option Numbers := do
  if day.isEmpty || month.isEmpty || year.isEmpty then none
  let (day, monthNumber) ←
    match monthOf? month with
    | some number => some (day, number)
    | none => (monthOf? day).map fun number => (lower month, number)
  let day := dropComma day
  let (year, time) := if isClock year then (time, year) else (year, time)
  let yearWord := dropComma year
  let first ← yearWord.head?
  let (year, zone) := if isDigit first then (yearWord, zone) else (zone, yearWord)
  let (hour, minute, second) ← clockWords (dropComma time)
  let year ← intOf? year
  let day ← intOf? day
  let hour ← intOf? hour
  let minute ← intOf? minute
  let second ← intOf? second
  some ⟨fullYear year, monthNumber, day, hour, minute, second, zoneOffset? zone⟩

/-- Whether a calendar field can take a number at all. -/
def isFieldSized (n : Int) : Bool :=
  -2147483648 ≤ n && n ≤ 2147483647

/-- The most seconds that a duration has. -/
def maxDuration : Int := 86400 * 1000000000

/-- The moment of the numbers of a date. -/
def Numbers.outcome (n : Numbers) : Outcome :=
  let duration := n.offset.getD 0
  if duration < -(maxDuration - 86400) || maxDuration ≤ duration then .outOfRange
  else if duration ≤ -86400 || 86400 ≤ duration then .notADate
  else if !([n.year, n.day, n.hour, n.minute, n.second].all isFieldSized) then .outOfRange
  else if n.year < 1 || n.day < 1 || n.hour < 0 || n.minute < 0 || n.second < 0 then .notADate
  else
    match Moment.Fields.reading?
      ⟨n.year.toNat, n.month, n.day.toNat, n.hour.toNat, n.minute.toNat, n.second.toNat, 0⟩ with
    | some reading => .moment ⟨reading, n.offset.map (· * Moment.second)⟩
    | none => .notADate

/-- Reads a date. -/
def read (text : String) : Outcome :=
  match divideZone (divideDate (dropDayName (wordsOf text.toList))) with
  | day :: month :: year :: time :: zone :: _ =>
    match numbersOf? day month year time zone with
    | some numbers => numbers.outcome
    | none => .notADate
  | _ => .notADate

end HttpBinding.HttpDate
