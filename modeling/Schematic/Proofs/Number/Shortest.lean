import Schematic.Number.Shortest
import Mathlib.Algebra.Order.Field.Power
import Mathlib.Tactic.FieldSimp
import Mathlib.Tactic.Linarith
import Mathlib.Tactic.LinearCombination
import Mathlib.Tactic.NormNum
import Mathlib.Tactic.Positivity
import Mathlib.Tactic.Ring

/-! The shortest decimal of a binary number is in its rounding interval, and the intervals of
different numbers have nothing in common. So the decimal tells the number. -/

namespace Schematic

/-- A mantissa and an exponent of a finite number in its canonical form. -/
structure Binary64.AreCanonical (mantissa : Nat) (exponent : Int) : Prop where
  small : mantissa < 2 ^ 53
  least : leastExponent ≤ exponent
  normal : 2 ^ 52 ≤ mantissa ∨ exponent = leastExponent

def Decimal.toRat (d : Decimal) : ℚ := d.digits * 10 ^ d.power

namespace RoundingInterval

variable {r : RoundingInterval} {m n : Nat} {e f : Int} {d : Decimal} {power : Int}

def unit (r : RoundingInterval) : ℚ := r.num / r.den

/-- Whether a number rounds to the one that an interval is about. -/
def Holds (r : RoundingInterval) (x : ℚ) : Prop :=
  if r.closed then r.low * r.unit ≤ x ∧ x ≤ r.high * r.unit
  else r.low * r.unit < x ∧ x < r.high * r.unit

/-- What a decimal and the points of an interval are multiplied with to be compared. -/
def scale (r : RoundingInterval) (power : Int) : ℚ :=
  if 0 ≤ power then r.den else r.den * 10 ^ (-power)

theorem scale_pos (den : 0 < r.den) (power : Int) : 0 < r.scale power := by
  have positive : (0 : ℚ) < r.den := by exact_mod_cast den
  unfold scale
  split
  · exact positive
  · positivity

theorem natCast_ten_pow {k : Int} (h : 0 ≤ k) : ((Nat.pow 10 k.toNat : Nat) : ℚ) = 10 ^ k := by
  obtain ⟨n, rfl⟩ := Int.eq_ofNat_of_zero_le h
  simp

theorem ten_zpow_cancel (k : Int) : (10 : ℚ) ^ k * 10 ^ (-k) = 1 := by
  rw [← zpow_add₀ (by norm_num), add_neg_cancel, zpow_zero]

theorem decimalSide_eq (r : RoundingInterval) (d : Decimal) :
    (r.decimalSide d : ℚ) = d.toRat * r.scale d.power := by
  unfold decimalSide scale Decimal.toRat
  split
  · next h =>
    push_cast [natCast_ten_pow h]
    ring
  · push_cast
    linear_combination (-(d.digits : ℚ) * r.den) * ten_zpow_cancel d.power

theorem pointSide_eq (den : 0 < r.den) (point : Nat) (power : Int) :
    (r.pointSide point power : ℚ) = point * r.unit * r.scale power := by
  have nonzero : (r.den : ℚ) ≠ 0 := by exact_mod_cast den.ne'
  unfold pointSide scale unit
  split
  · push_cast
    field_simp
  · next h =>
    push_cast [natCast_ten_pow (show 0 ≤ -power by omega)]
    field_simp

/-- A decimal is in an interval if it rounds to its number. -/
theorem contains_iff (den : 0 < r.den) : r.contains d = true ↔ r.Holds d.toRat := by
  have positive := scale_pos den d.power
  have le (a b : Nat) : a ≤ b ↔ (a : ℚ) ≤ b := Nat.cast_le.symm
  have lt (a b : Nat) : a < b ↔ (a : ℚ) < b := Nat.cast_lt.symm
  unfold contains Holds
  split
  · rw [decide_eq_true_iff, le, le, decimalSide_eq, pointSide_eq den, pointSide_eq den,
      mul_le_mul_iff_left₀ positive, mul_le_mul_iff_left₀ positive]
  · rw [decide_eq_true_iff, lt, lt, decimalSide_eq, pointSide_eq den, pointSide_eq den,
      mul_lt_mul_iff_left₀ positive, mul_lt_mul_iff_left₀ positive]

/-- The decimal below the number and its neighbour are on both sides of it. -/
theorem below_le (den : 0 < r.den) (power : Int) :
    (r.below power).toRat ≤ r.middle * r.unit ∧
      r.middle * r.unit < (r.below power).toRat + 10 ^ power := by
  have positive := scale_pos den power
  have grid : (0 : ℚ) < 10 ^ power := by positivity
  have bottom := decimalSide_eq r ⟨1, power⟩
  have same : (if 0 ≤ power then Nat.pow 10 power.toNat * r.den else r.den) =
      r.decimalSide ⟨1, power⟩ := by
    simp only [decimalSide, Nat.one_mul]
  unfold below Decimal.toRat
  dsimp only
  rw [same]
  simp only [Decimal.toRat, Nat.cast_one, one_mul] at bottom
  generalize r.decimalSide ⟨1, power⟩ = b at bottom
  have nonzero : (0 : ℚ) < b := bottom ▸ mul_pos grid positive
  have top := pointSide_eq den r.middle power
  generalize r.pointSide r.middle power = t at top
  have hb : 0 < b := by exact_mod_cast nonzero
  have low : ((t / b : Nat) : ℚ) * b ≤ t := by exact_mod_cast Nat.div_mul_le_self t b
  have high : (t : ℚ) < ((t / b : Nat) + 1) * b := by
    exact_mod_cast Nat.lt_mul_of_div_lt (Nat.lt_succ_self _) hb
  rw [bottom, top] at low high
  constructor
  · refine le_of_mul_le_mul_right ?_ positive
    linarith
  · refine lt_of_mul_lt_mul_right ?_ positive.le
    linarith

theorem contains_of_onGrid? (found : r.onGrid? power = some d) : r.contains d = true := by
  unfold onGrid? at found
  dsimp only at found
  split at found
  · next low high =>
    cases found
    unfold nearer
    dsimp only
    split
    · exact low
    · split
      · exact high
      · split
        · exact low
        · exact high
  · next low _ =>
    cases found
    exact low
  · next _ high =>
    cases found
    exact high
  · cases found

theorem ten_pow_le_of_width {n : Nat} (positive : 0 < n) : 10 ^ (decimalWidth n - 1) ≤ n := by
  by_contra small
  rw [Nat.not_le] at small
  unfold decimalWidth at small
  have written := Nat.length_toDigits_pos (b := 10) (n := n)
  rcases Nat.eq_zero_or_pos ((Nat.toDigits 10 n).length - 1) with single | more
  · rw [single] at small
    omega
  · have short := (Nat.length_toDigits_le_iff (by decide) more).mpr small
    omega

theorem lt_ten_pow_width (n : Nat) : n < 10 ^ decimalWidth n :=
  (Nat.length_toDigits_le_iff (by decide) Nat.length_toDigits_pos).mp (Nat.le_refl _)

/-- A number is not below the power of ten at its position. -/
theorem ten_pow_position_le (den : 0 < r.den) (top : 0 < r.middle * r.num) :
    (10 : ℚ) ^ (r.position - 1) ≤ r.middle * r.unit := by
  have positive : (0 : ℚ) < r.den := by exact_mod_cast den
  have value : (r.middle : ℚ) * r.unit = (r.middle * r.num : Nat) / (r.den : ℚ) := by
    unfold unit
    push_cast
    ring
  rw [value]
  unfold position
  dsimp only
  generalize r.middle * r.num = t at top
  split
  · next large =>
    -- at least one: the whole part has as many digits as the position says
    have whole : 0 < t / r.den := Nat.div_pos large den
    have width := ten_pow_le_of_width whole
    have digits : 0 < decimalWidth (t / r.den) := Nat.length_toDigits_pos
    have index : (decimalWidth (t / r.den) : Int) - 1 = (decimalWidth (t / r.den) - 1 : Nat) := by
      omega
    rw [index, zpow_natCast, le_div_iff₀ positive]
    have scaled := (Nat.mul_le_mul_right r.den width).trans (Nat.div_mul_le_self t r.den)
    exact_mod_cast scaled
  · -- below one: the whole part of the reciprocal has the digits
    have digits : 0 < decimalWidth (r.den / t) := Nat.length_toDigits_pos
    generalize hw : decimalWidth (r.den / t) = width at digits
    have top' : (0 : ℚ) < t := by exact_mod_cast top
    split
    · next exact' =>
      have index : 2 - (width : Int) - 1 = -((width - 1 : Nat) : Int) := by omega
      rw [index, zpow_neg, zpow_natCast, le_div_iff₀ positive, inv_mul_le_iff₀ (by positivity)]
      have same : r.den = t * 10 ^ (width - 1) := exact'.symm
      rw [same]
      push_cast
      rw [mul_comm]
    · have index : 1 - (width : Int) - 1 = -(width : Int) := by omega
      rw [index, zpow_neg, zpow_natCast, le_div_iff₀ positive, inv_mul_le_iff₀ (by positivity)]
      have reciprocal : r.den / t < 10 ^ width := hw ▸ lt_ten_pow_width _
      have scaled := (Nat.div_lt_iff_lt_mul top).mp reciprocal
      exact_mod_cast scaled.le

section OfBinary

theorem den_ofBinary (m : Nat) (e : Int) : 0 < (ofBinary m e).den := by
  simp only [ofBinary]
  split
  · exact Nat.one_pos
  · exact Nat.pow_pos (by decide)

theorem num_ofBinary (m : Nat) (e : Int) : 0 < (ofBinary m e).num := by
  simp only [ofBinary]
  split
  · exact Nat.pow_pos (by decide)
  · exact Nat.one_pos

theorem unit_ofBinary (m : Nat) (e : Int) : (ofBinary m e).unit = 2 ^ (e - 2) := by
  simp only [unit, ofBinary]
  split
  · next h =>
    obtain ⟨n, same⟩ := Int.eq_ofNat_of_zero_le h
    simp [same]
  · next h =>
    obtain ⟨n, same⟩ := Int.eq_ofNat_of_zero_le (show 0 ≤ -(e - 2) by omega)
    have index : e - 2 = -(n : Int) := by omega
    simp [index]

/-- What is strictly between the ends rounds to the number. -/
theorem Holds.of_between {x : ℚ} (low : r.low * r.unit < x) (high : x < r.high * r.unit) :
    r.Holds x := by
  unfold Holds
  split
  · exact ⟨low.le, high.le⟩
  · exact ⟨low, high⟩

theorem toRat_up (r : RoundingInterval) (power : Int) :
    Decimal.toRat ⟨(r.below power).digits + 1, power⟩ = (r.below power).toRat + 10 ^ power := by
  have same : (r.below power).power = power := rfl
  simp only [Decimal.toRat, same]
  push_cast
  ring

/-- Where no decimal of a grid reads back, neither neighbour of the number is between the ends. -/
theorem not_between_of_onGrid? (den : 0 < r.den) (none : r.onGrid? power = none) :
    ¬ (r.low * r.unit < (r.below power).toRat ∧ (r.below power).toRat < r.high * r.unit) ∧
    ¬ (r.low * r.unit < (r.below power).toRat + 10 ^ power ∧
      (r.below power).toRat + 10 ^ power < r.high * r.unit) := by
  have outside {d : Decimal} (missed : r.contains d = false) :
      ¬ (r.low * r.unit < d.toRat ∧ d.toRat < r.high * r.unit) := fun between =>
    Bool.eq_false_iff.mp missed ((contains_iff den).mpr (.of_between between.1 between.2))
  unfold onGrid? at none
  dsimp only at none
  split at none
  · cases none
  · cases none
  · cases none
  · next low high => exact ⟨outside low, toRat_up r power ▸ outside high⟩

theorem low_ofBinary_of_narrow (h : m = 2 ^ 52 ∧ Binary64.leastExponent < e) :
    (ofBinary m e).low = 4 * m - 1 := by
  have narrow : decide (m = Nat.pow 2 52 ∧ Binary64.leastExponent < e) = true := decide_eq_true h
  simp only [ofBinary, narrow, if_true]

theorem low_ofBinary (h : ¬ (m = 2 ^ 52 ∧ Binary64.leastExponent < e)) :
    (ofBinary m e).low = 4 * m - 2 := by
  have wide : decide (m = Nat.pow 2 52 ∧ Binary64.leastExponent < e) = false := decide_eq_false h
  simp only [ofBinary, wide, Bool.false_eq_true, if_false]

theorem high_ofBinary (m : Nat) (e : Int) : (ofBinary m e).high = 4 * m + 2 := rfl

/-- Seventeen digits suffice: the grid is finer than the interval is wide, so one of the neighbours
of the number is inside. -/
theorem exists_onGrid? (canonical : Binary64.AreCanonical m e) (positive : 0 < m) :
    ∃ d, (ofBinary m e).onGrid? ((ofBinary m e).position - 17) = some d := by
  have den := den_ofBinary m e
  have unit := unit_ofBinary m e
  have hu : (0 : ℚ) < 2 ^ (e - 2) := by positivity
  have middle : (ofBinary m e).middle = 4 * m := rfl
  have position := ten_pow_position_le den (Nat.mul_pos (by omega) (num_ofBinary m e))
  have coarse : (10 : ℚ) ^ ((ofBinary m e).position - 1) =
      10 ^ 16 * 10 ^ ((ofBinary m e).position - 17) := by
    rw [← zpow_natCast, ← zpow_add₀ (by norm_num)]
    congr 1
    omega
  obtain ⟨left, right⟩ := below_le den ((ofBinary m e).position - 17)
  cases found : (ofBinary m e).onGrid? ((ofBinary m e).position - 17) with
  | some d => exact ⟨d, rfl⟩
  | none =>
    obtain ⟨notLeft, notRight⟩ := not_between_of_onGrid? den found
    rw [middle, unit, coarse] at position
    rw [middle, unit] at left right
    rw [unit, high_ofBinary] at notLeft notRight
    push_cast at position left right notLeft notRight
    have small : (m : ℚ) + 1 ≤ 2 ^ 53 := by exact_mod_cast canonical.small
    generalize (10 : ℚ) ^ ((ofBinary m e).position - 17) = step at *
    generalize ((ofBinary m e).below ((ofBinary m e).position - 17)).toRat = x at *
    generalize (2 : ℚ) ^ (e - 2) = u at *
    have reach : (m : ℚ) * u + u ≤ 2 ^ 53 * u := by
      have scaled := mul_le_mul_of_nonneg_right small hu.le
      linarith
    by_cases narrow : m = 2 ^ 52 ∧ Binary64.leastExponent < e
    · have power : (m : ℚ) = 2 ^ 52 := by exact_mod_cast narrow.1
      have low : ((4 * m - 1 : Nat) : ℚ) = 4 * m - 1 := by
        rw [Nat.cast_sub (by omega)]
        push_cast
        ring
      rw [low_ofBinary_of_narrow narrow, low, power] at notRight
      rw [power] at position left right
      exact absurd ⟨by linarith, by linarith⟩ notRight
    · have low : ((4 * m - 2 : Nat) : ℚ) = 4 * m - 2 := by
        rw [Nat.cast_sub (by omega)]
        push_cast
        ring
      rw [low_ofBinary narrow, low] at notLeft notRight
      by_cases near : (4 * m - 2) * u < x
      · exact absurd ⟨near, by linarith⟩ notLeft
      · exact absurd ⟨by linarith, by linarith⟩ notRight

/-- What rounds to a number is less than what rounds to a greater one. -/
theorem Holds.lt (hm : Binary64.AreCanonical m e) (hn : Binary64.AreCanonical n f)
    (positive : 0 < n) (greater : e < f ∨ e = f ∧ m < n) {x y : ℚ} (hx : (ofBinary m e).Holds x)
    (hy : (ofBinary n f).Holds y) : x < y := by
  have hu : (0 : ℚ) < 2 ^ (e - 2) := by positivity
  obtain ⟨k, shift⟩ : ∃ k : Nat, f - 2 = e - 2 + k := ⟨(f - e).toNat, by omega⟩
  have gap : (2 : ℚ) ^ (f - 2) = 2 ^ k * 2 ^ (e - 2) := by
    rw [shift, zpow_add₀ (by norm_num), zpow_natCast, mul_comm]
  -- the end of the one is not behind the start of the other, and one of the two is odd if they meet
  have apart : (ofBinary m e).high ≤ (ofBinary n f).low * 2 ^ k ∧
      (m % 2 = 0 → n % 2 = 0 → (ofBinary m e).high < (ofBinary n f).low * 2 ^ k) := by
    have small := hm.small
    rw [high_ofBinary]
    rcases greater with less | ⟨rfl, less⟩
    · have normal : 2 ^ 52 ≤ n := by
        have least := hm.least
        rcases hn.normal with normal | least'
        · exact normal
        · omega
      have double : (ofBinary n f).low * 2 ≤ (ofBinary n f).low * 2 ^ k :=
        Nat.mul_le_mul_left _ (Nat.le_self_pow (by omega) 2)
      by_cases narrow : n = 2 ^ 52 ∧ Binary64.leastExponent < f
      · rw [low_ofBinary_of_narrow narrow] at double ⊢
        omega
      · have above := hm.least
        have other : n ≠ 2 ^ 52 := fun same => narrow ⟨same, by omega⟩
        rw [low_ofBinary narrow] at double ⊢
        omega
    · have still : k = 0 := by omega
      have wide : ¬ (n = 2 ^ 52 ∧ Binary64.leastExponent < e) := by
        rintro ⟨same, above⟩
        have normal := hm.normal
        omega
      rw [low_ofBinary wide, still, Nat.pow_zero]
      omega
  have ends : ((ofBinary m e).high : ℚ) * 2 ^ (e - 2) ≤
      (ofBinary n f).low * 2 ^ (f - 2) := by
    rw [gap, ← mul_assoc]
    exact mul_le_mul_of_nonneg_right (by exact_mod_cast apart.1) hu.le
  unfold Holds at hx hy
  rw [unit_ofBinary] at hx hy
  have closed : (ofBinary m e).closed = decide (m % 2 = 0) := rfl
  have closed' : (ofBinary n f).closed = decide (n % 2 = 0) := rfl
  rw [closed] at hx
  rw [closed'] at hy
  split at hx
  · next even =>
    split at hy
    · next even' =>
      have strict : ((ofBinary m e).high : ℚ) * 2 ^ (e - 2) <
          (ofBinary n f).low * 2 ^ (f - 2) := by
        have less := apart.2 (of_decide_eq_true even) (of_decide_eq_true even')
        rw [gap, ← mul_assoc]
        exact mul_lt_mul_of_pos_right (by exact_mod_cast less) hu
      linarith
    · linarith
  · split at hy
    · linarith
    · linarith

/-- A number rounds to one number only. -/
theorem Holds.unique (hm : Binary64.AreCanonical m e) (hn : Binary64.AreCanonical n f)
    (hm' : 0 < m) (hn' : 0 < n) {x : ℚ} (hx : (ofBinary m e).Holds x)
    (hy : (ofBinary n f).Holds x) : m = n ∧ e = f := by
  by_contra other
  have order : (e < f ∨ e = f ∧ m < n) ∨ (f < e ∨ f = e ∧ n < m) := by omega
  rcases order with less | less
  · exact lt_irrefl x (hx.lt hm hn hn' less hy)
  · exact lt_irrefl x (hy.lt hn hm hm' less hx)

end OfBinary

end RoundingInterval

open RoundingInterval

variable {m n : Nat} {e f : Int}

/-- Taking zeros off the end changes nothing. -/
theorem Decimal.toRat_trim (d : Decimal) (fuel : Nat) : (d.trim fuel).toRat = d.toRat := by
  induction fuel generalizing d with
  | zero => rfl
  | succ fuel ih =>
    rw [trim]
    split
    · next ends =>
      have digits : (d.digits : ℚ) = (d.digits / 10 : Nat) * 10 := by
        exact_mod_cast (Nat.div_mul_cancel (Nat.dvd_of_mod_eq_zero ends.2)).symm
      rw [ih, toRat, toRat, digits, zpow_add₀ (by norm_num)]
      ring
    · rfl

/-- The shortest decimal reads back. -/
theorem shortestDecimal_holds (canonical : Binary64.AreCanonical m e) (positive : 0 < m) :
    (ofBinary m e).Holds (shortestDecimal m e).toRat := by
  rw [shortestDecimal, Decimal.toRat_trim]
  cases hit : (List.range 17).findSome? fun width : Nat =>
      (ofBinary m e).onGrid? ((ofBinary m e).position - ((width : Int) + 1)) with
  | some d =>
    obtain ⟨width, -, found⟩ := List.exists_of_findSome?_eq_some hit
    exact (contains_iff (den_ofBinary m e)).mp (contains_of_onGrid? found)
  | none =>
    obtain ⟨d, found⟩ := exists_onGrid? canonical positive
    have missed := List.findSome?_eq_none_iff.mp hit 16 (List.mem_range.mpr (by decide))
    cases missed.symm.trans found

/-- The shortest decimal tells the number. -/
theorem shortestDecimal_unique (hm : Binary64.AreCanonical m e) (hn : Binary64.AreCanonical n f)
    (hm' : 0 < m) (hn' : 0 < n)
    (same : (shortestDecimal m e).toRat = (shortestDecimal n f).toRat) : m = n ∧ e = f :=
  (shortestDecimal_holds hm hm').unique hm hn hm' hn' (same ▸ shortestDecimal_holds hn hn')

theorem shortestDecimal_pos (canonical : Binary64.AreCanonical m e) (positive : 0 < m) :
    0 < (shortestDecimal m e).toRat := by
  have inside := shortestDecimal_holds canonical positive
  have start : 0 < (ofBinary m e).low := by
    by_cases narrow : m = 2 ^ 52 ∧ Binary64.leastExponent < e
    · rw [low_ofBinary_of_narrow narrow]
      omega
    · rw [low_ofBinary narrow]
      omega
  have above : (0 : ℚ) < (ofBinary m e).low * (ofBinary m e).unit := by
    rw [unit_ofBinary]
    exact mul_pos (by exact_mod_cast start) (by positivity)
  unfold Holds at inside
  split at inside
  · exact above.trans_le inside.1
  · exact above.trans inside.1

end Schematic
