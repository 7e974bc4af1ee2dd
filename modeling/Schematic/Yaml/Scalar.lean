import Schematic.Error
import Schematic.Number.Layout
import Schematic.Text.Digits
import Schematic.Text.LetterCase
import Schematic.Yaml.Tag

/-!
The values that scalars write. A number may be written in notations that no plain scalar has, since
a tag can ask for a number: with blanks around it, with the digits of other scripts, or with a sign
inside.
-/

namespace Schematic.Yaml.Scalar

def ungrouped (t : Text) : Text := ⟨t.points.filter (· != CodePoint.ofChar '_')⟩

def isNegative (t : Text) : Bool := t.startsWith "-"

def behindSign (t : Text) : Text :=
  if t.startsWith "-" || t.startsWith "+" then ⟨t.points.drop 1⟩ else t

def colonParts (t : Text) : List Text := (t.points.splitOn (CodePoint.ofChar ':')).map Text.mk

/-- The value of a digit; a character that is none has a value beyond all bases. -/
def digitValue (c : Char) : Nat :=
  if c.isDigit then c.toNat - '0'.toNat
  else if 'a' ≤ c ∧ c ≤ 'z' then c.toNat - 'a'.toNat + 10
  else if 'A' ≤ c ∧ c ≤ 'Z' then c.toNat - 'A'.toNat + 10
  else 37

def behindMark (base : Nat) (cs : List Char) : List Char :=
  let mark := if base = 2 then 'b' else if base = 8 then 'o' else 'x'
  match cs with
  | '0' :: m :: rest => if base ≠ 10 ∧ m.toLower = mark then rest else cs
  | _ => cs

/-- The whole number that a word writes to a base: blanks around it, a sign and the mark of the base
are allowed. To the base ten a number can have too many digits, whatever follows them. -/
def wholeNumber (base : Nat) (word : Text) : Except ScalarFault Int :=
  let cs := Digits.trimmed word
  let body := behindMark base (Tag.unsigned cs)
  let digits := body.takeWhile fun c => decide (digitValue c < base)
  if base = 10 ∧ Value.mostDigits < digits.length then .error (.tooLong digits.length)
  else if digits = [] ∨ digits.length ≠ body.length then .error (.digits base word)
  else
    let n : Int := digits.foldl (fun n c => base * n + digitValue c) 0
    .ok (if cs.head? = some '-' then -n else n)

/-- The number whose digits to the base sixty are given, the last one least. -/
def toBaseSixty (groups : List Int) : Int := groups.foldl (fun n g => 60 * n + g) 0

/-- The whole number that a scalar writes. A leading zero asks for the base eight. -/
def intOf (t : Text) : Except ScalarFault Int :=
  let whole := ungrouped t
  let body := behindSign whole
  let magnitude : Except ScalarFault Int :=
    if body.isEmpty then .error .noDigits
    else if body = "0" then .ok 0
    else if body.startsWith "0b" then wholeNumber 2 ⟨body.points.drop 2⟩
    else if body.startsWith "0x" then wholeNumber 16 ⟨body.points.drop 2⟩
    else if body.startsWith "0" then wholeNumber 8 body
    else if body.holds ':' then ((colonParts body).mapM (wholeNumber 10)).map toBaseSixty
    else wholeNumber 10 body
  magnitude.map fun n => if isNegative whole then -n else n

def decimal (word : Text) : Except ScalarFault FloatReading :=
  match FloatReading.ofText? (String.ofList (Digits.trimmed word)) with
  | some x => .ok x
  | none => .error (.decimal word)

def addGroup (sum : FloatReading) (group : FloatReading) (unit : Binary64) : FloatReading :=
  match sum, group with
  | .number x, .number y =>
    match x.add? (y.scale unit) with
    | some z => .number z
    | none => .notANumber
  | _, _ => .notANumber

/-- The sum of groups to the base sixty, the least one first, added from the least on. The unit of a
group must be a number. -/
def sumOfSixties (sum : FloatReading) (unit : Nat) : List FloatReading →
    Except ScalarFault FloatReading
  | [] => .ok sum
  | group :: groups =>
    match Binary64.ofNat? unit with
    | some x => sumOfSixties (addGroup sum group x) (60 * unit) groups
    | none => .error .tooManyGroups

/-- The floating-point number that a scalar writes. The word for not-a-number is the one value
`common`; other ways to write it make the value `own`. -/
def floatOf (common own : Value) (t : Text) : Except ScalarFault Value :=
  let whole := (ungrouped t).lowerCase
  let signed : FloatReading → Value
    | .number x => .float (if isNegative whole then x.negate else x)
    | .notANumber => own
  let body := behindSign whole
  if whole.isEmpty then .error .noDigits
  else if body = ".inf" then .ok (signed (.number (.infinite false)))
  else if body = ".nan" then .ok common
  else if body.holds ':' then
    match (colonParts body).mapM decimal with
    | .error fault => .error fault
    | .ok groups =>
      (sumOfSixties (.number (.zero false)) 1 groups.reverse).map signed
  else (decimal body).map signed

def truthOf (t : Text) : Except ScalarFault Bool :=
  let word := t.lowerCase
  if Tag.trueWords.any fun (w : String) => word == (w : Text) then .ok true
  else if Tag.falseWords.any fun (w : String) => word == (w : Text) then .ok false
  else .error (.truthWord word)

def asciiChars? (t : Text) : Option (List Char) :=
  t.points.mapM fun p => if p.code < 0x80 then p.toChar? else none

/-- The day or moment that a scalar writes. A newline at its end does not count. -/
def timestampOf (t : Text) : Except ScalarFault Value :=
  match (asciiChars? t).bind fun cs => Timestamp.ofText? (Tag.withoutNewline cs) with
  | none => .error .notMoment
  | some stamp =>
    match stamp.clock with
    | none =>
      match Date.of? stamp.year stamp.month stamp.day with
      | .ok d => .ok (.date d)
      | .error fault => .error (.calendar fault)
    | some clock =>
      match stamp.momentOf clock with
      | .ok m => .ok (.moment m)
      | .error fault => .error (.calendar fault)

end Schematic.Yaml.Scalar
