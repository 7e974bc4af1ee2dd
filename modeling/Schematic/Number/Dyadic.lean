/-!
Exact numbers of the form `coefficient · 2 ^ exponent`. Whole numbers and binary floating-point
numbers are both of this form, so they are compared here without rounding.
-/

namespace Schematic

/-- The number `coefficient · 2 ^ exponent`. One number has many such forms. -/
structure Dyadic where
  coefficient : Int
  exponent : Int
  deriving DecidableEq, Repr

namespace Dyadic

def ofInt (n : Int) : Dyadic := ⟨n, 0⟩

/-- The coefficient of `x` when it is written with the exponent `e`, for `e` at most its own. -/
def coefficientAt (x : Dyadic) (e : Int) : Int :=
  x.coefficient * (Nat.pow 2 (x.exponent - e).toNat : Nat)

def equal (x y : Dyadic) : Bool :=
  let e := min x.exponent y.exponent
  x.coefficientAt e == y.coefficientAt e

def less (x y : Dyadic) : Bool :=
  let e := min x.exponent y.exponent
  decide (x.coefficientAt e < y.coefficientAt e)

/-- The whole number equal to `x`, if there is one. -/
def toInt? (x : Dyadic) : Option Int :=
  if 0 ≤ x.exponent then some (x.coefficientAt 0)
  else
    let unit : Int := (Nat.pow 2 (-x.exponent).toNat : Nat)
    if x.coefficient % unit = 0 then some (x.coefficient / unit) else none

@[simp] theorem equal_self (x : Dyadic) : x.equal x = true := by simp [equal]

end Dyadic

end Schematic
