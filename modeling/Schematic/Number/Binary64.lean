import Schematic.Number.Dyadic

/-!
Binary floating-point numbers of 64 bits as exact values. Arithmetic is exact on ratios of whole
numbers and is rounded once, to the nearest number, a tie going to the even mantissa.
-/

namespace Schematic

/-- A 64-bit floating-point number that is a number: `± mantissa · 2 ^ exponent`, or an infinity.
A finite number is in its canonical form when the mantissa has 53 bits or the exponent is the
least one. -/
inductive Binary64 where
  | finite (negative : Bool) (mantissa : Nat) (exponent : Int)
  | infinite (negative : Bool)
  deriving DecidableEq, Repr, Inhabited

/-- The quotient rounded to the nearest whole number, a tie going to the even one. -/
def roundedQuotient (num den : Nat) : Nat :=
  let q := num / den
  let r := num % den
  if 2 * r < den then q
  else if den < 2 * r then q + 1
  else if q % 2 = 0 then q else q + 1

namespace Binary64

def leastExponent : Int := -1074

def greatestExponent : Int := 971

def zero (negative : Bool) : Binary64 := .finite negative 0 leastExponent

/-- The ratio `num / den` in units of `2 ^ e`, rounded. -/
def unitsOf (num den : Nat) (e : Int) : Nat :=
  if 0 ≤ e then roundedQuotient num (den * Nat.pow 2 e.toNat)
  else roundedQuotient (num * Nat.pow 2 (-e).toNat) den

/-- The exponent at which the positive ratio `num / den` has a mantissa of 53 bits. -/
def exponentOf (num den : Nat) : Int :=
  let gap : Int := (num.log2 : Int) - den.log2
  let reached :=
    if 0 ≤ gap then decide (den * Nat.pow 2 gap.toNat ≤ num)
    else decide (den ≤ num * Nat.pow 2 (-gap).toNat)
  if reached then gap - 52 else gap - 53

/-- The number nearest to `± num / den`; a ratio beyond the largest finite number is infinite. -/
def ofRatio (negative : Bool) (num den : Nat) : Binary64 :=
  if num = 0 ∨ den = 0 then zero negative
  else
    let e := max leastExponent (exponentOf num den)
    let m := unitsOf num den e
    let (m, e) := if m = Nat.pow 2 53 then (Nat.pow 2 52, e + 1) else (m, e)
    if greatestExponent < e then .infinite negative else .finite negative m e

/-- The number nearest to `± digits · 10 ^ power`. Powers far outside the range are cut off before
any large power of ten is computed. -/
def ofDecimal (negative : Bool) (digits : Nat) (power : Int) : Binary64 :=
  if digits = 0 then zero negative
  else if 400 < power then .infinite negative
  else if power < -(400 + (digits.log2 : Int)) then zero negative
  else if 0 ≤ power then ofRatio negative (digits * Nat.pow 10 power.toNat) 1
  else ofRatio negative digits (Nat.pow 10 (-power).toNat)

/-- Whether a number carries the minus sign; zero can. -/
def isNegative : Binary64 → Bool
  | .finite negative _ _ => negative
  | .infinite negative => negative

def negate : Binary64 → Binary64
  | .finite negative m e => .finite (!negative) m e
  | .infinite negative => .infinite (!negative)

def isZero : Binary64 → Bool
  | .finite _ m _ => m == 0
  | .infinite _ => false

def toDyadic? : Binary64 → Option Dyadic
  | .finite negative m e => some ⟨if negative then -(m : Int) else m, e⟩
  | .infinite _ => none

/-- The number nearest to an exact value; a zero gets the sign that is asked for. -/
def ofDyadic (negativeZero : Bool) (x : Dyadic) : Binary64 :=
  let negative := if x.coefficient = 0 then negativeZero else decide (x.coefficient < 0)
  if 0 ≤ x.exponent then ofRatio negative (x.coefficient.natAbs * Nat.pow 2 x.exponent.toNat) 1
  else ofRatio negative x.coefficient.natAbs (Nat.pow 2 (-x.exponent).toNat)

/-- The number nearest to a whole number, unless that is beyond the largest finite number. -/
def ofNat? (n : Nat) : Option Binary64 :=
  match ofRatio false n 1 with
  | .infinite _ => none
  | x => some x

def scale (x : Binary64) (unit : Binary64) : Binary64 :=
  let negative := x.isNegative != unit.isNegative
  match x, unit with
  | .finite _ m e, .finite _ n f =>
    ofDyadic negative ⟨if negative then -((m * n : Nat) : Int) else (m * n : Nat), e + f⟩
  | _, _ => .infinite negative

/-- The rounded sum. Infinities absorb finite numbers; two opposite ones have no sum. -/
def add? (x y : Binary64) : Option Binary64 :=
  match x.toDyadic?, y.toDyadic? with
  | some a, some b =>
    let e := min a.exponent b.exponent
    some (ofDyadic (x.isNegative && y.isNegative) ⟨a.coefficientAt e + b.coefficientAt e, e⟩)
  | none, none => if x = y then some x else none
  | none, some _ => some x
  | some _, none => some y

end Binary64

end Schematic
