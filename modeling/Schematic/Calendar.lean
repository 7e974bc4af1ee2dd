/-!
Days of the calendar and moments of a day, as files can name them. A moment may know how far its
clock is ahead of the common time; two that do are the same when they are at once.
-/

namespace Schematic

/-- Why there is no such day or moment. -/
inductive CalendarFault where
  | year (found : Nat)
  | month
  | day
  | hour
  | minute
  | second
  | offset (seconds : Int)
  deriving DecidableEq, Repr

structure Date where
  year : Nat
  month : Nat
  day : Nat
  deriving DecidableEq, Repr, Inhabited

/-- A moment by the clock of some place. The offset is how many seconds this clock is ahead of the
common time, where that is known. -/
structure Moment where
  date : Date
  hour : Nat
  minute : Nat
  second : Nat
  microsecond : Nat
  offset : Option Int
  deriving DecidableEq, Repr, Inhabited

namespace Date

def isLeap (year : Nat) : Bool := year % 4 == 0 && (year % 100 != 0 || year % 400 == 0)

def monthLength (year month : Nat) : Nat :=
  if month = 2 then if isLeap year then 29 else 28
  else if [4, 6, 9, 11].contains month then 30 else 31

def of? (year month day : Nat) : Except CalendarFault Date :=
  if year < 1 ∨ 9999 < year then .error (.year year)
  else if month < 1 ∨ 12 < month then .error .month
  else if day < 1 ∨ monthLength year month < day then .error .day
  else .ok ⟨year, month, day⟩

def dayNumber (d : Date) : Nat :=
  let before := d.year - 1
  let months := (List.range (d.month - 1)).map fun m => monthLength d.year (m + 1)
  before * 365 + before / 4 - before / 100 + before / 400 + months.foldr (· + ·) 0 + d.day

end Date

namespace Moment

def daySeconds : Int := 86400

def checkOffset (seconds : Int) : Except CalendarFault Unit :=
  if -daySeconds < seconds ∧ seconds < daySeconds then .ok () else .error (.offset seconds)

def of? (year month day hour minute second microsecond : Nat) (offset : Option Int) :
    Except CalendarFault Moment := do
  match offset with
  | some seconds => checkOffset seconds
  | none => .ok ()
  let date ← Date.of? year month day
  if 23 < hour then .error .hour
  else if 59 < minute then .error .minute
  else if 59 < second then .error .second
  else .ok ⟨date, hour, minute, second, microsecond, offset⟩

def localCount (m : Moment) : Int :=
  let seconds : Int := ((m.date.dayNumber * 24 + m.hour) * 60 + m.minute) * 60 + m.second
  seconds * 1000000 + m.microsecond

/-- Whether two moments are the same. One that knows its offset differs from one that does not. -/
def same (m n : Moment) : Bool :=
  match m.offset, n.offset with
  | some a, some b => m.localCount - a * 1000000 == n.localCount - b * 1000000
  | none, none => m.localCount == n.localCount
  | _, _ => false

end Moment

def paddedNumber (width n : Nat) : String :=
  let digits := toString n
  String.ofList (List.replicate (width - digits.length) '0') ++ digits

/-- A length of time by days and seconds, of which the seconds are not negative. -/
def durationText (seconds : Int) : String :=
  let days := seconds / Moment.daySeconds
  let rest := seconds % Moment.daySeconds
  let parts := (if days = 0 then [] else ["days=" ++ toString days]) ++
    (if rest = 0 then [] else ["seconds=" ++ toString rest])
  "datetime.timedelta(" ++ (if parts.isEmpty then "0" else ", ".intercalate parts) ++ ")"

namespace Date

def plain (d : Date) : String :=
  paddedNumber 4 d.year ++ "-" ++ paddedNumber 2 d.month ++ "-" ++ paddedNumber 2 d.day

def numbers (d : Date) : List Nat := [d.year, d.month, d.day]

def quoted (d : Date) : String :=
  "datetime.date(" ++ ", ".intercalate (d.numbers.map toString) ++ ")"

end Date

namespace Moment

def offsetText (seconds : Int) : String :=
  let minutes := seconds.natAbs / 60
  (if seconds < 0 then "-" else "+") ++ paddedNumber 2 (minutes / 60) ++ ":" ++
    paddedNumber 2 (minutes % 60)

/-- The moment as it is usually written. A fraction of a second is left out when it is nothing. -/
def plain (m : Moment) : String :=
  m.date.plain ++ " " ++ paddedNumber 2 m.hour ++ ":" ++ paddedNumber 2 m.minute ++ ":" ++
    paddedNumber 2 m.second ++
    (if m.microsecond = 0 then "" else "." ++ paddedNumber 6 m.microsecond) ++
    (match m.offset with
      | some seconds => offsetText seconds
      | none => "")

def zoneText (seconds : Int) : String :=
  if seconds = 0 then "datetime.timezone.utc"
  else "datetime.timezone(" ++ durationText seconds ++ ")"

/-- The moment by its numbers; seconds and microseconds at its end are left out when they are
nothing. -/
def quoted (m : Moment) : String :=
  let small :=
    if m.microsecond ≠ 0 then [m.second, m.microsecond]
    else if m.second ≠ 0 then [m.second] else []
  let numbers := (m.date.numbers ++ [m.hour, m.minute] ++ small).map toString
  let zone := match m.offset with
    | some seconds => ["tzinfo=" ++ zoneText seconds]
    | none => []
  "datetime.datetime(" ++ ", ".intercalate (numbers ++ zone) ++ ")"

end Moment

namespace CalendarFault

def describe : CalendarFault → String
  | year found => "year " ++ toString found ++ " is out of range"
  | month => "month must be in 1..12"
  | day => "day is out of range for month"
  | hour => "hour must be in 0..23"
  | minute => "minute must be in 0..59"
  | second => "second must be in 0..59"
  | offset seconds =>
    "offset must be a timedelta strictly between -timedelta(hours=24) and timedelta(hours=24), " ++
      "not " ++ durationText seconds ++ "."

end CalendarFault

end Schematic
