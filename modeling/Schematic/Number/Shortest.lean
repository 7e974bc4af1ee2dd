import Schematic.Number.Binary64

/-!
The shortest decimal that reads back as a given binary number. A decimal reads back when it lies
in the interval of numbers that round to the given one; of the decimals with the fewest digits the
nearest is taken.
-/

namespace Schematic

/-- The decimal `digits · 10 ^ power`. -/
structure Decimal where
  digits : Nat
  power : Int
  deriving DecidableEq, Repr

/-- How many decimal digits a number has; zero has one. -/
def decimalWidth (n : Nat) : Nat := (Nat.toDigits 10 n).length

/-- The interval of reals that round to `mantissa · 2 ^ exponent`, in units of `num / den`. -/
structure RoundingInterval where
  low : Nat
  middle : Nat
  high : Nat
  num : Nat
  den : Nat
  closed : Bool

namespace RoundingInterval

/-- The interval of a positive finite number. Half of the gap to a neighbour belongs to it, and the
gap below a power of two is only half as wide. The ends belong to it when the mantissa is even. -/
def ofBinary (mantissa : Nat) (exponent : Int) : RoundingInterval :=
  let narrow := decide (mantissa = Nat.pow 2 52 ∧ Binary64.leastExponent < exponent)
  let unit := exponent - 2
  { low := 4 * mantissa - (if narrow then 1 else 2)
    middle := 4 * mantissa
    high := 4 * mantissa + 2
    num := if 0 ≤ unit then Nat.pow 2 unit.toNat else 1
    den := if 0 ≤ unit then 1 else Nat.pow 2 (-unit).toNat
    closed := mantissa % 2 = 0 }

/-- The numerator of a decimal when both it and the interval are put over one denominator. -/
def decimalSide (r : RoundingInterval) (d : Decimal) : Nat :=
  if 0 ≤ d.power then d.digits * Nat.pow 10 d.power.toNat * r.den else d.digits * r.den

def pointSide (r : RoundingInterval) (point : Nat) (power : Int) : Nat :=
  if 0 ≤ power then point * r.num else point * r.num * Nat.pow 10 (-power).toNat

def contains (r : RoundingInterval) (d : Decimal) : Bool :=
  let x := r.decimalSide d
  let low := r.pointSide r.low d.power
  let high := r.pointSide r.high d.power
  if r.closed then decide (low ≤ x ∧ x ≤ high) else decide (low < x ∧ x < high)

/-- The position `p` with `10 ^ (p - 1) ≤ middle < 10 ^ p`. -/
def position (r : RoundingInterval) : Int :=
  let top := r.middle * r.num
  if r.den ≤ top then decimalWidth (top / r.den)
  else
    let width := decimalWidth (r.den / top)
    if top * Nat.pow 10 (width - 1) = r.den then 2 - (width : Int) else 1 - (width : Int)

def below (r : RoundingInterval) (power : Int) : Decimal :=
  let top := r.pointSide r.middle power
  let bottom := if 0 ≤ power then Nat.pow 10 power.toNat * r.den else r.den
  ⟨top / bottom, power⟩

/-- Of two neighbouring decimals the nearer to the number, and of two equally near the even one. -/
def nearer (r : RoundingInterval) (d : Decimal) : Decimal :=
  let up : Decimal := ⟨d.digits + 1, d.power⟩
  let twice := 2 * r.pointSide r.middle d.power
  let sum := r.decimalSide d + r.decimalSide up
  if twice < sum then d
  else if sum < twice then up
  else if d.digits % 2 = 0 then d else up

/-- The best decimal with this power among the two neighbours of the number, if one reads back. -/
def onGrid? (r : RoundingInterval) (power : Int) : Option Decimal :=
  let d := r.below power
  let up : Decimal := ⟨d.digits + 1, power⟩
  match r.contains d, r.contains up with
  | true, true => some (r.nearer d)
  | true, false => some d
  | false, true => some up
  | false, false => none

end RoundingInterval

/-- The decimal without its trailing zeros; at most `fuel` of them are taken off. -/
def Decimal.trim (d : Decimal) : Nat → Decimal
  | 0 => d
  | fuel + 1 =>
    if d.digits ≠ 0 ∧ d.digits % 10 = 0 then Decimal.trim ⟨d.digits / 10, d.power + 1⟩ fuel else d

/-- The shortest decimal that reads back as the positive number `mantissa · 2 ^ exponent`.
Seventeen digits always suffice, so the search over widths ends with a hit. -/
def shortestDecimal (mantissa : Nat) (exponent : Int) : Decimal :=
  let r := RoundingInterval.ofBinary mantissa exponent
  let p := r.position
  let hit := (List.range 17).findSome? fun (width : Nat) => r.onGrid? (p - ((width : Int) + 1))
  (hit.getD (r.below (p - 17))).trim 20

end Schematic
