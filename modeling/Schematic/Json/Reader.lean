import Schematic.Number.Layout
import Schematic.Value.Equality
import Schematic.Value.Text

/-!
Reading JSON text into a value. Besides the standard the words `NaN`, `Infinity` and `-Infinity`
are numbers. A number with a fraction or an exponent is a floating-point number, any other a whole
one. Of members with one name the last counts, in the place of the first.

Lists and objects may stand inside one another to any depth. Their nesting is taken to stay below
the recursion limit of the interpreter, which would give up on a deeper text.
-/

namespace Schematic.Json

/-- Why a text has no value: it is no JSON, or a whole number in it has too many digits. -/
inductive ReadFault where
  | malformed
  | tooLong (digits : Nat)
  deriving DecidableEq, Repr

/-- What a reader does: it takes something off the front of the text, or fails. -/
abbrev Reading (α : Type) := Option (α × List Char)

abbrev ValueReading (α : Type) := Except ReadFault (α × List Char)

def isBlank (c : Char) : Bool := c == ' ' || c == '\t' || c == '\n' || c == '\r'

def skipBlanks (cs : List Char) : List Char := cs.dropWhile isBlank

def hexValue? (cs : List Char) : Option Nat :=
  cs.foldlM (fun n c =>
    if c.isDigit then some (16 * n + (c.toNat - '0'.toNat))
    else if 'a' ≤ c ∧ c ≤ 'f' then some (16 * n + (c.toNat - 'a'.toNat + 10))
    else if 'A' ≤ c ∧ c ≤ 'F' then some (16 * n + (c.toNat - 'A'.toNat + 10))
    else none) 0

def isHighHalf (n : Nat) : Bool := decide (0xd800 ≤ n ∧ n < 0xdc00)

def isLowHalf (n : Nat) : Bool := decide (0xdc00 ≤ n ∧ n < 0xe000)

def charOfPair (high low : Nat) : CodePoint :=
  .ofNat (0x10000 + (high - 0xd800) * 0x400 + (low - 0xdc00))

def shortEscape? (c : Char) : Option Char :=
  [('"', '"'), ('\\', '\\'), ('/', '/'), ('b', '\x08'), ('f', '\x0c'), ('n', '\n'), ('r', '\r'),
    ('t', '\t')].lookup c

/-- The rest of a text up to its closing quote, behind the code points read so far, the last one
first. Control characters must be escaped, and two escaped halves of a pair make one character. -/
def string? (done : List CodePoint) : List Char → Reading Text
  | [] => none
  | '"' :: rest => some (⟨done.reverse⟩, rest)
  | '\\' :: 'u' :: a :: b :: c :: d :: more@('\\' :: 'u' :: e :: f :: g :: h :: rest) =>
    match hexValue? [a, b, c, d], hexValue? [e, f, g, h] with
    | some n, some m =>
      if isHighHalf n && isLowHalf m then string? (charOfPair n m :: done) rest
      else string? (.ofNat n :: done) more
    | some n, none => string? (.ofNat n :: done) more
    | none, _ => none
  | '\\' :: 'u' :: a :: b :: c :: d :: rest =>
    match hexValue? [a, b, c, d] with
    | some n => string? (.ofNat n :: done) rest
    | none => none
  | '\\' :: c :: rest =>
    match shortEscape? c with
    | some e => string? (.ofChar e :: done) rest
    | none => none
  | c :: rest => if c = '\\' ∨ c.toNat < 0x20 then none else string? (.ofChar c :: done) rest
termination_by cs => cs.length
decreasing_by all_goals subst_vars; simp only [List.length_cons]; omega

def fraction (cs : List Char) : List Char × List Char :=
  match cs with
  | '.' :: rest =>
    let digits := rest.takeWhile Char.isDigit
    if digits = [] then ([], cs) else (digits, rest.dropWhile Char.isDigit)
  | _ => ([], cs)

/-- The exponent of a number, where there is one: a mark, an optional sign, at least one digit. -/
def exponent (cs : List Char) : Option Int × List Char :=
  match cs with
  | mark :: rest =>
    if mark = 'e' ∨ mark = 'E' then
      let (negative, digits) := match rest with
        | '-' :: ds => (true, ds)
        | '+' :: ds => (false, ds)
        | ds => (false, ds)
      let taken := digits.takeWhile Char.isDigit
      if taken = [] then (none, cs)
      else
        let n : Int := FloatReading.digitsValue taken
        (some (if negative then -n else n), digits.dropWhile Char.isDigit)
    else (none, cs)
  | [] => (none, cs)

/-- A number. A whole part of several digits does not start with zero, so a digit behind a leading
zero belongs to no number. -/
def number (negative : Bool) (cs : List Char) : ValueReading Value :=
  let whole := match cs with
    | '0' :: _ => ['0']
    | _ => cs.takeWhile Char.isDigit
  if whole = [] then .error .malformed
  else
    let (frac, rest) := fraction (cs.drop whole.length)
    let (power, rest) := exponent rest
    if frac = [] ∧ power = none then
      if Value.mostDigits < whole.length then .error (.tooLong whole.length)
      else
        let n : Int := FloatReading.digitsValue whole
        .ok (.int (if negative then -n else n), rest)
    else .ok (.float (FloatReading.ofParts negative whole frac (power.getD 0)), rest)

def word? (word : String) (cs : List Char) : Option (List Char) :=
  if word.toList.isPrefixOf cs then some (cs.drop word.length) else none

def wordValue? (nan : Value) (cs : List Char) : Reading Value :=
  [("null", Value.null), ("true", .bool true), ("false", .bool false), ("NaN", nan),
    ("Infinity", .float (.infinite false)), ("-Infinity", .float (.infinite true))].findSome?
    fun (word, v) => (word? word cs).map (v, ·)

def orMalformed {α : Type} (r : Reading α) : ValueReading α :=
  match r with
  | some found => .ok found
  | none => .error .malformed

mutual

def value (nan : Value) (fuel : Nat) (cs : List Char) : ValueReading Value :=
  match fuel, cs with
  | 0, _ => .error .malformed
  | _ + 1, '"' :: rest => (orMalformed (string? [] rest)).map fun (s, r) => (.text s, r)
  | fuel + 1, '[' :: rest =>
    match skipBlanks rest with
    | ']' :: r => .ok (.list [], r)
    | r => (items nan fuel r).map fun (vs, r) => (.list vs, r)
  | fuel + 1, '\x7b' :: rest =>
    match skipBlanks rest with
    | '\x7d' :: r => .ok (.mapping [], r)
    | r => members nan fuel r []
  | _ + 1, cs =>
    match wordValue? nan cs with
    | some found => .ok found
    | none =>
      match cs with
      | '-' :: digits => number true digits
      | _ => number false cs

def items (nan : Value) (fuel : Nat) (cs : List Char) : ValueReading (List Value) :=
  match fuel with
  | 0 => .error .malformed
  | fuel + 1 =>
    match value nan fuel cs with
    | .error fault => .error fault
    | .ok (v, rest) =>
      match skipBlanks rest with
      | ',' :: more => (items nan fuel (skipBlanks more)).map fun (vs, r) => (v :: vs, r)
      | ']' :: r => .ok ([v], r)
      | _ => .error .malformed

/-- The members of an object up to its closing brace, added to those before them. -/
def members (nan : Value) (fuel : Nat) (cs : List Char) (done : List (Value × Value)) :
    ValueReading Value :=
  match fuel, cs with
  | fuel + 1, '"' :: rest =>
    match string? [] rest with
    | none => .error .malformed
    | some (name, rest) =>
      match skipBlanks rest with
      | ':' :: more =>
        match value nan fuel (skipBlanks more) with
        | .error fault => .error fault
        | .ok (v, rest) =>
          let done := Value.insertEntry done (.text name) v
          match skipBlanks rest with
          | ',' :: more => members nan fuel (skipBlanks more) done
          | '\x7d' :: r => .ok (.mapping done, r)
          | _ => .error .malformed
      | _ => .error .malformed
  | _, _ => .error .malformed

end

/-- The value of a whole text. Blanks may surround the value, and nothing else may; a byte-order
mark is no blank. -/
def parse (nan : Value) (cs : List Char) : Except ReadFault Value :=
  match value nan (2 * cs.length + 2) (skipBlanks cs) with
  | .ok (v, rest) => if skipBlanks rest = [] then .ok v else .error .malformed
  | .error fault => .error fault

end Schematic.Json
