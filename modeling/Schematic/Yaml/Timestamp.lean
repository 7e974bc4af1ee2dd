import Schematic.Calendar

/-!
The notation of days and moments: a day by its three numbers, and behind it a time of day, which may
have a fraction of a second and a zone.
-/

namespace Schematic.Yaml

/-- How far a clock is ahead of the common time, as it is written. -/
inductive Zone where
  | common
  | shifted (negative : Bool) (hours minutes : Nat)
  deriving DecidableEq, Repr

/-- A time of day, as it is written. -/
structure Clock where
  hour : Nat
  minute : Nat
  second : Nat
  fraction : List Char
  zone : Option Zone
  deriving DecidableEq, Repr

/-- A day or moment, as it is written. It is padded when month and day have two digits. -/
structure Timestamp where
  year : Nat
  month : Nat
  day : Nat
  isPadded : Bool
  clock : Option Clock
  deriving DecidableEq, Repr

namespace Timestamp

def digitsValue (digits : List Char) : Nat :=
  digits.foldl (fun n d => 10 * n + (d.toNat - '0'.toNat)) 0

/-- The digits at the front of a text, at least and at most so many, and the rest. -/
def digits? (least most : Nat) (cs : List Char) : Option (List Char × List Char) :=
  let digits := (cs.takeWhile Char.isDigit).take most
  if digits.length < least then none else some (digits, cs.drop digits.length)

def behind? (c : Char) : List Char → Option (List Char)
  | d :: rest => if d = c then some rest else none
  | [] => none

/-- The text behind what separates a day from a time: a letter, or blanks. -/
def behindSeparator? (cs : List Char) : Option (List Char) :=
  match cs with
  | 'T' :: rest => some rest
  | 't' :: rest => some rest
  | _ =>
    let rest := cs.dropWhile fun c => c == ' ' || c == '\t'
    if rest.length < cs.length then some rest else none

/-- The fraction of a second at the front of a text, and the rest. -/
def fraction (cs : List Char) : List Char × List Char :=
  match cs with
  | '.' :: rest => (rest.takeWhile Char.isDigit, rest.dropWhile Char.isDigit)
  | _ => ([], cs)

def shift? (negative : Bool) (cs : List Char) : Option Zone := do
  let (hours, rest) ← digits? 1 2 cs
  match rest with
  | [] => some (.shifted negative (digitsValue hours) 0)
  | _ =>
    let rest ← behind? ':' rest
    let (minutes, rest) ← digits? 2 2 rest
    if rest = [] then some (.shifted negative (digitsValue hours) (digitsValue minutes)) else none

/-- The zone that is all that is left of a text; there may be none. -/
def zone? (cs : List Char) : Option (Option Zone) :=
  match cs, cs.dropWhile fun c => c == ' ' || c == '\t' with
  | [], _ => some none
  | _, ['Z'] => some (some .common)
  | _, '+' :: rest => (shift? false rest).map some
  | _, '-' :: rest => (shift? true rest).map some
  | _, _ => none

def clock? (cs : List Char) : Option Clock := do
  let rest ← behindSeparator? cs
  let (hour, rest) ← digits? 1 2 rest
  let rest ← behind? ':' rest
  let (minute, rest) ← digits? 2 2 rest
  let rest ← behind? ':' rest
  let (second, rest) ← digits? 2 2 rest
  let (fraction, rest) := fraction rest
  let zone ← zone? rest
  pure ⟨digitsValue hour, digitsValue minute, digitsValue second, fraction, zone⟩

def ofText? (cs : List Char) : Option Timestamp := do
  let (year, rest) ← digits? 4 4 cs
  let rest ← behind? '-' rest
  let (month, rest) ← digits? 1 2 rest
  let rest ← behind? '-' rest
  let (day, rest) ← digits? 1 2 rest
  let clock ← match rest with
    | [] => some none
    | _ => (clock? rest).map some
  pure
    { year := digitsValue year
      month := digitsValue month
      day := digitsValue day
      isPadded := month.length = 2 && day.length = 2
      clock }

/-- Whether a plain text with this notation is a day or moment. A day alone must be padded. -/
def isPlain (t : Timestamp) : Bool := t.clock.isSome || t.isPadded

def microseconds (fraction : List Char) : Nat :=
  let digits := fraction.take 6
  digitsValue (digits ++ List.replicate (6 - digits.length) '0')

def offsetOf : Zone → Int
  | .common => 0
  | .shifted negative hours minutes =>
    let seconds : Int := ((hours * 60 + minutes) * 60 : Nat)
    if negative then -seconds else seconds

def momentOf (t : Timestamp) (c : Clock) : Except CalendarFault Moment :=
  Moment.of? t.year t.month t.day c.hour c.minute c.second (microseconds c.fraction)
    (c.zone.map offsetOf)

end Timestamp

end Schematic.Yaml
