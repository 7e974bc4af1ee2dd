import Schematic.Number.Shortest

/-!
How a floating-point number is written: the shortest digits that read back, set in positional
notation for exponents in a fixed range and with an exponent outside it. Reading decimal text is
here too.
-/

namespace Schematic

/-- The decisions that turn digits into text. -/
structure FloatLayout where
  leastPositional : Int
  positionalEnd : Int
  exponentWidth : Nat
  infinity : String
  notANumber : String

namespace FloatLayout

/-- Values are shown with positional notation from `0.0001` to below `10 ^ 16`. -/
def display : FloatLayout := ⟨-4, 16, 2, "inf", "nan"⟩

def document : FloatLayout := { display with infinity := "Infinity", notANumber := "NaN" }

def zeros (n : Nat) : String := String.ofList (List.replicate n '0')

def exponentText (f : FloatLayout) (e : Int) : String :=
  let digits := toString e.natAbs
  let padded := zeros (f.exponentWidth - digits.length) ++ digits
  "e" ++ (if e < 0 then "-" else "+") ++ padded

/-- A positive decimal. A positional number always has a digit after its point. -/
def decimalText (f : FloatLayout) (d : Decimal) : String :=
  let digits := toString d.digits
  let count := digits.length
  let e : Int := d.power + count - 1
  if f.leastPositional ≤ e ∧ e < f.positionalEnd then
    if e < 0 then "0." ++ zeros (-e - 1).toNat ++ digits
    else if (count : Int) ≤ e + 1 then digits ++ zeros (e + 1 - count).toNat ++ ".0"
    else
      String.ofList (digits.toList.take (e + 1).toNat) ++ "." ++
        String.ofList (digits.toList.drop (e + 1).toNat)
  else
    let head := String.ofList (digits.toList.take 1)
    let tail := String.ofList (digits.toList.drop 1)
    head ++ (if tail = "" then "" else "." ++ tail) ++ f.exponentText e

def text (f : FloatLayout) : Binary64 → String
  | .infinite negative => (if negative then "-" else "") ++ f.infinity
  | .finite negative m e =>
    let sign := if negative then "-" else ""
    if m = 0 then sign ++ "0.0" else sign ++ f.decimalText (shortestDecimal m e)

end FloatLayout

inductive FloatReading where
  | number (x : Binary64)
  | notANumber
  deriving DecidableEq, Repr

namespace FloatReading

def digitsValue (cs : List Char) : Nat :=
  cs.foldl (fun n c => 10 * n + (c.toNat - '0'.toNat)) 0

/-- The number written by a sign, the digits before and after the point, and an exponent. -/
def ofParts (negative : Bool) (whole fraction : List Char) (exponent : Int) : Binary64 :=
  .ofDecimal negative (digitsValue (whole ++ fraction)) (exponent - fraction.length)

def exponentOf? : List Char → Option Int
  | [] => some 0
  | mark :: rest =>
    if mark = 'e' ∨ mark = 'E' then
      let (negative, digits) := match rest with
        | '-' :: ds => (true, ds)
        | '+' :: ds => (false, ds)
        | ds => (false, ds)
      if digits ≠ [] ∧ digits.all Char.isDigit then
        some (if negative then -(digitsValue digits : Int) else digitsValue digits)
      else none
    else none

/-- An unsigned number: digits with at most one point among them, then an exponent. -/
def unsigned? (negative : Bool) (cs : List Char) : Option Binary64 :=
  let whole := cs.takeWhile Char.isDigit
  match cs.dropWhile Char.isDigit with
  | '.' :: rest =>
    let fraction := rest.takeWhile Char.isDigit
    if whole = [] ∧ fraction = [] then none
    else (exponentOf? (rest.dropWhile Char.isDigit)).map (ofParts negative whole fraction)
  | rest => if whole = [] then none else (exponentOf? rest).map (ofParts negative whole [])

/-- Decimal text with an optional sign, in any notation, or the word for an infinity or for
not-a-number in any case. -/
def ofText? (s : String) : Option FloatReading :=
  let (negative, cs) := match s.toList with
    | '-' :: cs => (true, cs)
    | '+' :: cs => (false, cs)
    | cs => (false, cs)
  let word := String.ofList (cs.map Char.toLower)
  if word = "inf" ∨ word = "infinity" then some (.number (.infinite negative))
  else if word = "nan" then some .notANumber
  else (unsigned? negative cs).map .number

end FloatReading

end Schematic
