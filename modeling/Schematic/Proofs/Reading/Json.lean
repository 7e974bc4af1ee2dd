import Schematic.Json.Reader
import Schematic.Proofs.Value.Parts

/-! What a JSON text is read to. Everything is taken off the front of what is left of the text, so a
number that is too long stands in it. In what is read nothing contains itself, and what is read can
be written again. -/

namespace Schematic

/-- A value that can be written and contains no part of itself. -/
structure Value.IsPlain (v : Value) : Prop where
  written : v.isWritable = true
  tree : v.isTree = true

namespace Json

variable {α β : Type} {P : α → Prop} {Q : β → Prop} {cs cs' rest : List Char} {nan v : Value}
  {n : Nat} {t : Text}

structure HasLongNumber (cs : List Char) (n : Nat) : Prop where
  long : Value.mostDigits < n
  run : ∃ digits, digits <:+: cs ∧ digits.length = n ∧ ∀ d ∈ digits, d.isDigit = true

/-- What a reader makes of a text: something with a property and what is left, or a fault. -/
def Consumes (cs : List Char) (P : α → Prop) : ValueReading α → Prop
  | .ok (a, rest) => rest <:+ cs ∧ P a
  | .error .malformed => True
  | .error (.tooLong n) => HasLongNumber cs n

namespace Consumes

theorem mono {r : ValueReading α} (h : Consumes cs P r) (part : cs <:+ cs') :
    Consumes cs' P r := by
  match r, h with
  | .ok (a, rest), ⟨left, holds⟩ => exact ⟨left.trans part, holds⟩
  | .error .malformed, _ => trivial
  | .error (.tooLong n), ⟨long, digits, inside, run⟩ =>
    exact ⟨long, digits, inside.trans part.isInfix, run⟩

theorem map {r : ValueReading α} {f : α → β} (h : Consumes cs P r) (keeps : ∀ a, P a → Q (f a)) :
    Consumes cs Q (r.map fun (a, rest) => (f a, rest)) := by
  match r, h with
  | .ok (a, rest), ⟨left, holds⟩ => exact ⟨left, keeps a holds⟩
  | .error .malformed, _ => trivial
  | .error (.tooLong n), long => exact long

theorem fault {r : ValueReading α} {e : ReadFault} (h : Consumes cs P r) (failed : r = .error e) :
    Consumes cs Q (.error e : ValueReading β) := by
  subst failed
  cases e <;> exact h

end Consumes

theorem skipBlanks_suffix (cs : List Char) : skipBlanks cs <:+ cs := List.dropWhile_suffix _

theorem string?_suffix {done : List CodePoint} (read : string? done cs = some (t, rest)) :
    rest <:+ cs := by
  fun_induction string? done cs with
  | case2 =>
    cases read
    exact List.suffix_cons _ _
  | case3 => next ih => exact (ih read).trans ⟨[_, _, _, _, _, _, _, _, _, _, _, _], rfl⟩
  | case4 => next ih => exact (ih read).trans ⟨[_, _, _, _, _, _], rfl⟩
  | case5 => next ih => exact (ih read).trans ⟨[_, _, _, _, _, _], rfl⟩
  | case7 => next ih => exact (ih read).trans ⟨[_, _, _, _, _, _], rfl⟩
  | case9 => next ih => exact (ih read).trans ⟨[_, _], rfl⟩
  | case12 => next ih => exact (ih read).trans (List.suffix_cons _ _)
  | _ => cases read

theorem fraction_suffix (cs : List Char) : (fraction cs).2 <:+ cs := by
  unfold fraction
  split
  · dsimp only
    split
    · exact List.suffix_refl _
    · exact (List.dropWhile_suffix _).trans (List.suffix_cons _ _)
  · exact List.suffix_refl _

theorem exponent_suffix (cs : List Char) : (exponent cs).2 <:+ cs := by
  unfold exponent
  split
  · next mark after =>
    have behind (digits : List Char) (part : digits <:+ after) :
        digits.dropWhile Char.isDigit <:+ mark :: after :=
      (List.dropWhile_suffix _).trans (part.trans (List.suffix_cons _ _))
    split
    · split
      next negative digits signed =>
        have part : digits <:+ after := by
          split at signed <;> cases signed
          · exact List.suffix_cons _ _
          · exact List.suffix_cons _ _
          · exact List.suffix_refl _
        dsimp only
        split
        · exact List.suffix_refl _
        · exact behind digits part
    · exact List.suffix_refl _
  · exact List.suffix_refl _

theorem digit_lt {d : Char} (digit : d.isDigit = true) : d.toNat - '0'.toNat < 10 := by
  simp only [Char.isDigit, Bool.and_eq_true, decide_eq_true_eq, UInt32.le_iff_toNat_le] at digit
  have top := digit.2
  change d.toNat ≤ 57 at top
  change d.toNat - 48 < 10
  omega

theorem digitsValue_lt (digits : List Char) (all : ∀ d ∈ digits, d.isDigit = true) :
    FloatReading.digitsValue digits < Nat.pow 10 digits.length := by
  have step : ∀ (ds : List Char) (n k : Nat), (∀ d ∈ ds, d.isDigit = true) →
      n < Nat.pow 10 k →
        ds.foldl (fun n c => 10 * n + (c.toNat - '0'.toNat)) n < Nat.pow 10 (k + ds.length) := by
    intro ds
    induction ds with
    | nil => exact fun n k _ less => less
    | cons d ds ih =>
      intro n k all less
      rw [List.forall_mem_cons] at all
      have small := digit_lt all.1
      have next : 10 * n + (d.toNat - '0'.toNat) < Nat.pow 10 (k + 1) := by
        change _ < Nat.pow 10 k * 10
        omega
      have := ih _ (k + 1) all.2 next
      rwa [List.foldl_cons, List.length_cons, Nat.add_comm ds.length, ← Nat.add_assoc]
  have := step digits 0 0 all (by decide)
  rwa [Nat.zero_add] at this

theorem isPlain_ofDigits (negative : Bool) {digits : List Char}
    (all : ∀ d ∈ digits, d.isDigit = true) (short : digits.length ≤ Value.mostDigits) :
    (Value.int (if negative = true then -(FloatReading.digitsValue digits : Int)
      else FloatReading.digitsValue digits)).IsPlain := by
  have size : (if negative = true then -(FloatReading.digitsValue digits : Int)
      else FloatReading.digitsValue digits).natAbs = FloatReading.digitsValue digits := by
    split
    · rw [Int.natAbs_neg, Int.natAbs_natCast]
    · exact Int.natAbs_natCast _
  refine ⟨?_, rfl⟩
  rw [Value.isWritable, Value.isWritableInt, size, decide_eq_true_eq]
  -- The greatest number of digits as such, since nobody should compute the power.
  generalize Value.mostDigits = most at short ⊢
  exact Nat.lt_of_lt_of_le (digitsValue_lt digits all) (Nat.pow_le_pow_right (by decide) short)

/-- The digits before the point of a number stand at the front of it. -/
theorem number_consumes (negative : Bool) (cs : List Char) :
    Consumes cs Value.IsPlain (number negative cs) := by
  unfold number
  extract_lets whole n
  have front : whole <+: cs ∧ ∀ d ∈ whole, d.isDigit = true := by
    unfold whole
    split
    · exact ⟨⟨_, rfl⟩, List.forall_mem_singleton.mpr rfl⟩
    · exact ⟨List.takeWhile_prefix _, List.all_eq_true.mp List.all_takeWhile⟩
  clear_value whole
  have behind := (exponent_suffix (fraction (cs.drop whole.length)).2).trans
    ((fraction_suffix _).trans (List.drop_suffix _ _))
  split
  · trivial
  · split
    next frac rest found =>
    rw [found] at behind
    split
    next power rest' found' =>
    rw [found'] at behind
    split
    · split
      · next long => exact ⟨long, whole, front.1.isInfix, rfl, front.2⟩
      · next short => exact ⟨behind, isPlain_ofDigits negative front.2 (Nat.le_of_not_lt short)⟩
    · exact ⟨behind, rfl, rfl⟩

theorem wordValue?_suffix {found : Value × List Char} (plain : nan.IsPlain)
    (read : wordValue? nan cs = some found) : found.2 <:+ cs ∧ found.1.IsPlain := by
  obtain ⟨⟨word, v⟩, listed, met⟩ := List.exists_of_findSome?_eq_some read
  obtain ⟨rest, behind, rfl⟩ := Option.map_eq_some_iff.mp met
  have part : rest <:+ cs := by
    unfold word? at behind
    split at behind
    · cases behind
      exact List.drop_suffix _ _
    · cases behind
  refine ⟨part, ?_⟩
  simp only [List.mem_cons, List.not_mem_nil, or_false, Prod.mk.injEq] at listed
  rcases listed with ⟨-, rfl⟩ | ⟨-, rfl⟩ | ⟨-, rfl⟩ | ⟨-, rfl⟩ | ⟨-, rfl⟩ | ⟨-, rfl⟩
  all_goals first
    | exact plain
    | exact ⟨rfl, rfl⟩

theorem isPlain_list {vs : List Value} (all : ∀ v ∈ vs, v.IsPlain) : (Value.list vs).IsPlain :=
  ⟨Value.areWritable_iff.mpr fun v hv => (all v hv).written,
    Value.areTrees_iff.mpr fun v hv => (all v hv).tree⟩

theorem isPlain_insert {done : List (Value × Value)} (all : (Value.mapping done).IsPlain)
    (plain : v.IsPlain) : (Value.mapping (Value.insertEntry done (.text t) v)).IsPlain :=
  ⟨Value.entriesWritable_insertEntry rfl plain.written all.written,
    Value.entriesTrees_insertEntry plain.tree all.tree⟩

/-- That all parts of the reader consume what they read with so much fuel. -/
structure PartsConsume (nan : Value) (fuel : Nat) : Prop where
  value : ∀ cs, Consumes cs Value.IsPlain (value nan fuel cs)
  items : ∀ cs, Consumes cs (fun vs => ∀ v ∈ vs, Value.IsPlain v) (items nan fuel cs)
  members : ∀ cs done, (Value.mapping done).IsPlain →
    Consumes cs Value.IsPlain (members nan fuel cs done)

section

variable {fuel : Nat} (plain : nan.IsPlain) (parts : PartsConsume nan fuel) (cs : List Char)
include parts

include plain in
theorem value_consumes : Consumes cs Value.IsPlain (value nan (fuel + 1) cs) := by
  unfold value
  split
  · trivial
  · next rest same =>
    cases same
    cases read : string? [] rest with
    | none => trivial
    | some found =>
      obtain ⟨t, r⟩ := found
      exact ⟨(string?_suffix read).trans (List.suffix_cons _ _), rfl, rfl⟩
  · next rest same =>
    cases same
    have behind := (skipBlanks_suffix rest).trans (List.suffix_cons '[' rest)
    split
    · next r found =>
      rw [found] at behind
      exact ⟨(List.suffix_cons _ _).trans behind, rfl, rfl⟩
    · exact ((parts.items _).mono behind).map fun vs => isPlain_list
  · next rest same =>
    cases same
    have behind := (skipBlanks_suffix rest).trans (List.suffix_cons '\x7b' rest)
    split
    · next r found =>
      rw [found] at behind
      exact ⟨(List.suffix_cons _ _).trans behind, rfl, rfl⟩
    · exact (parts.members _ [] ⟨rfl, rfl⟩).mono behind
  · split
    · next found read => exact wordValue?_suffix plain read
    · split
      · exact (number_consumes true _).mono (List.suffix_cons _ _)
      · exact number_consumes false _

theorem items_consumes :
    Consumes cs (fun vs => ∀ v ∈ vs, Value.IsPlain v) (items nan (fuel + 1) cs) := by
  unfold items
  have first := parts.value cs
  split
  · next failed => exact first.fault failed
  · next v rest read =>
    rw [read] at first
    have behind := (skipBlanks_suffix rest).trans first.1
    split
    · next more found =>
      rw [found] at behind
      have part := (skipBlanks_suffix more).trans ((List.suffix_cons _ _).trans behind)
      have others := (parts.items (skipBlanks more)).mono part
      exact others.map fun vs all => List.forall_mem_cons.mpr ⟨first.2, all⟩
    · next r found =>
      rw [found] at behind
      exact ⟨(List.suffix_cons _ _).trans behind, List.forall_mem_singleton.mpr first.2⟩
    · trivial

theorem members_consumes {done : List (Value × Value)} (all : (Value.mapping done).IsPlain) :
    Consumes cs Value.IsPlain (members nan (fuel + 1) cs done) := by
  unfold members
  split
  · next rest same =>
    cases same
    split
    · trivial
    · next name rest' named =>
      have behind := (skipBlanks_suffix rest').trans
        ((string?_suffix named).trans (List.suffix_cons '"' rest))
      split
      · next more found =>
        rw [found] at behind
        have part := (skipBlanks_suffix more).trans ((List.suffix_cons _ _).trans behind)
        have first := (parts.value (skipBlanks more)).mono part
        split
        · next failed => exact first.fault failed
        · next v rest'' read =>
          rw [read] at first
          have all' := isPlain_insert (t := name) all first.2
          have behind' := (skipBlanks_suffix rest'').trans first.1
          dsimp only
          split
          · next more' found' =>
            rw [found'] at behind'
            have part' := (skipBlanks_suffix more').trans ((List.suffix_cons _ _).trans behind')
            exact (parts.members _ _ all').mono part'
          · next r found' =>
            rw [found'] at behind'
            exact ⟨(List.suffix_cons _ _).trans behind', all'⟩
          · trivial
      · trivial
  · trivial

end

theorem partsConsume (plain : nan.IsPlain) (fuel : Nat) : PartsConsume nan fuel := by
  induction fuel with
  | zero => constructor <;> (intros; trivial)
  | succ fuel parts => exact
    { value := value_consumes plain parts
      items := items_consumes parts
      members := fun cs _ all => members_consumes parts cs all }

/-- What is read can be written again and contains no part of itself; and if a number is too long,
the text has it. -/
theorem parse_settles (plain : nan.IsPlain) (cs : List Char) :
    (∀ v, parse nan cs = .ok v → v.IsPlain) ∧
      ∀ n, parse nan cs = .error (.tooLong n) → HasLongNumber cs n := by
  have whole := ((partsConsume plain (2 * cs.length + 2)).value (skipBlanks cs)).mono
    (skipBlanks_suffix cs)
  unfold parse
  split
  · next v rest read =>
    rw [read] at whole
    split
    · refine ⟨?_, nofun⟩
      rintro _ ⟨⟩
      exact whole.2
    · exact ⟨nofun, nofun⟩
  · next failed =>
    rw [failed] at whole
    refine ⟨nofun, ?_⟩
    rintro n ⟨⟩
    exact whole

end Json

end Schematic
