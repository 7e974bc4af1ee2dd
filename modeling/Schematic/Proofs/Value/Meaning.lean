import Schematic.Value.Equality
import Schematic.Value.Text
import Mathlib.Data.Rat.Defs
import Mathlib.Tactic.Linarith
import Mathlib.Tactic.Ring

/-! What a table key stands for. Two keys are the same when they stand for the same thing, so
sameness of keys is an equivalence. Values that cannot be keys stand for nothing here. -/

namespace Schematic

namespace Dyadic

def toRat (x : Dyadic) : ℚ := x.coefficient * 2 ^ x.exponent

theorem toRat_eq_coefficientAt {x : Dyadic} {e : Int} (h : e ≤ x.exponent) :
    x.toRat = x.coefficientAt e * 2 ^ e := by
  have split : x.exponent = ((x.exponent - e).toNat : Int) + e := by omega
  have power : (2 : ℚ) ^ x.exponent = 2 ^ (x.exponent - e).toNat * 2 ^ e := by
    conv_lhs => rw [split]
    rw [zpow_add₀ (by norm_num), zpow_natCast]
  simp only [toRat, coefficientAt, power, Nat.pow_eq]
  push_cast
  ring

theorem equal_iff {x y : Dyadic} : x.equal y = true ↔ x.toRat = y.toRat := by
  have hx := toRat_eq_coefficientAt (x := x) (Int.min_le_left x.exponent y.exponent)
  have hy := toRat_eq_coefficientAt (x := y) (Int.min_le_right x.exponent y.exponent)
  have unit : (2 : ℚ) ^ min x.exponent y.exponent ≠ 0 := zpow_ne_zero _ (by norm_num)
  rw [hx, hy, mul_left_inj' unit, Int.cast_inj]
  simp [equal]

end Dyadic

/-- What a table key stands for: numbers count by what they are worth, moments by when they are, a
direction is the text of its word. -/
inductive Meaning where
  | nothing
  | null
  | notANumber (object : Nat)
  | number (q : ℚ)
  | infinite (negative : Bool)
  | text (s : Text)
  | bytes (content : List UInt8)
  | date (d : Date)
  | moment (placed : Bool) (count : Int)
  | tuple (items : List Meaning)

def Worth.meaning : Worth → Meaning
  | .exact x => .number x.toRat
  | .infinite negative => .infinite negative

theorem Worth.equal_iff {x y : Worth} : x.equal y = true ↔ x.meaning = y.meaning := by
  cases x <;> cases y <;> simp [Worth.equal, Worth.meaning, Dyadic.equal_iff]

def Moment.meaning (m : Moment) : Meaning :=
  match m.offset with
  | some seconds => .moment true (m.localCount - seconds * 1000000)
  | none => .moment false m.localCount

theorem Moment.same_iff {m n : Moment} : m.same n = true ↔ m.meaning = n.meaning := by
  cases hm : m.offset <;> cases hn : n.offset <;> simp [Moment.same, Moment.meaning, hm, hn]

namespace Value

mutual

def meaning : Value → Meaning
  | .null => .null
  | .nan object => .notANumber object
  | .text s => .text s
  | .direction d => .text d.word
  | .bytes content => .bytes content
  | .date d => .date d
  | .moment m => m.meaning
  | .tuple items => .tuple (meanings items)
  | .bool b => (Worth.exact (.ofInt (if b then 1 else 0))).meaning
  | .int n => (Worth.exact (.ofInt n)).meaning
  | .float (.infinite negative) => .infinite negative
  | .float (.finite negative m e) => (Worth.exact ⟨if negative then -(m : Int) else m, e⟩).meaning
  | _ => .nothing

def meanings : List Value → List Meaning
  | [] => []
  | v :: vs => meaning v :: meanings vs

end

theorem meaning_of_worth {v : Value} {w : Worth} (h : v.worth? = some w) :
    v.meaning = w.meaning := by
  cases v with
  | float x => cases x <;> cases h <;> simp [meaning, Worth.meaning]
  | bool | int => cases h; simp [meaning]
  | _ => cases h

theorem isSome_worth_iff {v : Value} : v.worth?.isSome = true ↔
    (∃ q, v.meaning = .number q) ∨ ∃ b, v.meaning = .infinite b := by
  cases v with
  | float x => cases x <;> simp [worth?, meaning, Worth.meaning]
  | moment m => cases h : m.offset <;> simp [worth?, meaning, Moment.meaning, h]
  | _ => simp [worth?, meaning, Worth.meaning]

theorem same_of_worth {a b : Value} {x : Worth} (hx : a.worth? = some x) :
    a.same b = a.sameWorth b := by
  cases a <;> first | (simp [worth?] at hx; done) | skip
  all_goals cases b <;> simp only [same]

theorem same_iff_of_worth {a b : Value} {x : Worth} (hx : a.worth? = some x) :
    a.same b = true ↔ a.meaning = b.meaning := by
  rw [same_of_worth hx, sameWorth, hx]
  cases hy : b.worth? with
  | some y => rw [Worth.equal_iff, meaning_of_worth hx, meaning_of_worth hy]
  | none =>
    have left := isSome_worth_iff.mp (Option.isSome_of_eq_some hx)
    have right : ¬ b.worth?.isSome = true := by simp [hy]
    refine ⟨nofun, fun h => absurd (isSome_worth_iff.mpr ?_) right⟩
    rwa [h] at left

theorem text_word_inj {d e : Direction} : (d.word : Text) = e.word ↔ d = e := by
  refine ⟨fun h => ?_, fun h => h ▸ rfl⟩
  simpa using congrArg Direction.ofWord? h

mutual

theorem same_iff : ∀ {a b : Value}, a.isHashable = true → b.isHashable = true →
    (a.same b = true ↔ a.meaning = b.meaning) := by
  intro a b ha hb
  cases a with
  | bool | int => exact same_iff_of_worth rfl
  | float x => cases x <;> exact same_iff_of_worth rfl
  | tuple xs =>
    cases b with
    | tuple ys =>
      simp only [isHashable] at ha hb
      simp only [same, meaning, Meaning.tuple.injEq]
      exact sameItems_iff ha hb
    | float x => cases x <;> simp [same, sameWorth, worth?, meaning, Worth.meaning]
    | moment m =>
      cases h : m.offset <;> simp [same, sameWorth, worth?, meaning, Moment.meaning, h]
    | list | mapping | set | knot | again => simp [isHashable] at hb
    | _ => simp [same, sameWorth, worth?, meaning, Worth.meaning]
  | moment m =>
    cases b with
    | moment n =>
      simp only [same, meaning]
      exact Moment.same_iff
    | float x =>
      cases x <;> cases h : m.offset <;>
        simp [same, sameWorth, worth?, meaning, Worth.meaning, Moment.meaning, h]
    | list | mapping | set | knot | again => simp [isHashable] at hb
    | _ =>
      cases h : m.offset <;>
        simp [same, sameWorth, worth?, meaning, Worth.meaning, Moment.meaning, h]
  | list | mapping | set | knot | again => simp [isHashable] at ha
  | null | nan | text | bytes | date | direction =>
    cases b with
    | float x => cases x <;> simp [same, sameWorth, worth?, meaning, Worth.meaning]
    | moment m => cases h : m.offset <;> simp [same, sameWorth, worth?, meaning, Moment.meaning, h]
    | list | mapping | set | knot | again => simp [isHashable] at hb
    | _ => simp [same, sameWorth, worth?, meaning, Worth.meaning, text_word_inj]

theorem sameItems_iff : ∀ {xs ys : List Value}, areHashable xs = true → areHashable ys = true →
    (sameItems xs ys = true ↔ meanings xs = meanings ys) := by
  intro xs ys hx hy
  cases xs with
  | nil => cases ys <;> simp [sameItems, meanings]
  | cons x xs =>
    cases ys with
    | nil => simp [sameItems, meanings]
    | cons y ys =>
      simp only [areHashable, Bool.and_eq_true] at hx hy
      simp only [sameItems, meanings, Bool.and_eq_true, List.cons.injEq]
      rw [same_iff hx.1 hy.1, sameItems_iff hx.2 hy.2]

end

def isNotANumber : Value → Bool
  | .nan _ => true
  | _ => false

/-- What a port can be bound to so that equality and table keys agree on it: null, numbers, texts
and whatever else is a key, but not-a-number only inside a tuple. -/
def IsIdentity (v : Value) : Prop := v.isHashable = true ∧ v.isNotANumber = false

theorem equal_eq_same {a : Value} (ha : a.isNotANumber = false) (b : Value) :
    a.equal b = a.same b := by
  cases a with
  | nan => cases ha
  | _ => rfl

theorem equal_iff {a b : Value} (ha : a.IsIdentity) (hb : b.IsIdentity) :
    a.equal b = true ↔ a.meaning = b.meaning := by
  rw [equal_eq_same ha.2, same_iff ha.1 hb.1]

theorem meaning_eq_notANumber {v : Value} {object : Nat} :
    v.meaning = .notANumber object ↔ v = .nan object := by
  cases v with
  | float x => cases x <;> simp [meaning, Worth.meaning]
  | moment m => cases h : m.offset <;> simp [meaning, Moment.meaning, h]
  | _ => simp [meaning, Worth.meaning]

theorem isNotANumber_iff {v : Value} :
    v.isNotANumber = true ↔ ∃ object, v.meaning = .notANumber object := by
  simp only [meaning_eq_notANumber]
  cases v <;> simp [isNotANumber]

theorem isNotANumber_congr {v w : Value} (same : v.meaning = w.meaning) :
    v.isNotANumber = w.isNotANumber := by
  rw [Bool.eq_iff_iff, isNotANumber_iff, isNotANumber_iff, same]

/-- Equality of two keys differs from sameness in that not-a-number is never equal to itself. -/
theorem equal_iff_of_keys {a b : Value} (ha : a.isHashable = true) (hb : b.isHashable = true) :
    a.equal b = true ↔ a.meaning = b.meaning ∧ a.isNotANumber = false := by
  cases odd : a.isNotANumber with
  | false => rw [equal_eq_same odd, same_iff ha hb, and_iff_left rfl]
  | true =>
    cases a with
    | nan => simp [equal]
    | _ => cases odd

theorem isNull_iff {v : Value} (h : v.isHashable = true) :
    v.isNull = true ↔ v.meaning = .null := by
  have null : v.meaning = .null ↔ v.same .null = true := by
    rw [same_iff h (b := .null) rfl, meaning]
  rw [null]
  cases v <;> simp [isNull, same, sameWorth, worth?]

def IsText (v : Value) : Prop := ∃ s, v.text? = some s

theorem IsText.isWritable {v : Value} (h : v.IsText) : v.isWritable = true := by
  obtain ⟨s, hs⟩ := h
  cases v with
  | text => exact isWritable_text _
  | direction => simp [Value.isWritable]
  | _ => cases hs

theorem IsText.isHashable {v : Value} (h : v.IsText) : v.isHashable = true := by
  obtain ⟨s, hs⟩ := h
  cases v with
  | text => rfl
  | direction => rfl
  | _ => cases hs

end Value

end Schematic
