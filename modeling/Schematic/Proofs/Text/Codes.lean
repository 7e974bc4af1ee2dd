import Schematic.Json.Reader
import Mathlib.Data.Fintype.Basic
import Mathlib.Tactic.FinCases

/-! Reading what was written off the front of a text: a run of characters of one kind ends where
another kind starts, and a list of words can be told apart if no word goes on as another one. The
digits of a number tell it, and hexadecimal ones read back. -/

namespace Schematic

section Runs

variable {α : Type} {p : α → Bool} {run run' rest rest' : List α}

theorem takeWhile_run (inside : ∀ c ∈ run, p c = true) (ends : ∀ c ∈ rest.head?, p c = false) :
    (run ++ rest).takeWhile p = run := by
  rw [List.takeWhile_append_of_pos inside]
  cases rest with
  | nil => simp
  | cons c rest => simp [ends c rfl]

theorem dropWhile_run (inside : ∀ c ∈ run, p c = true) (ends : ∀ c ∈ rest.head?, p c = false) :
    (run ++ rest).dropWhile p = rest := by
  rw [List.dropWhile_append_of_pos inside]
  cases rest with
  | nil => rfl
  | cons c rest => simp [ends c rfl]

/-- Where a run ends is seen from the text. -/
theorem run_inj (inside : ∀ c ∈ run, p c = true) (inside' : ∀ c ∈ run', p c = true)
    (ends : ∀ c ∈ rest.head?, p c = false) (ends' : ∀ c ∈ rest'.head?, p c = false)
    (same : run ++ rest = run' ++ rest') : run = run' ∧ rest = rest' := by
  have front := congrArg (List.takeWhile p) same
  have back := congrArg (List.dropWhile p) same
  rw [takeWhile_run inside ends, takeWhile_run inside' ends'] at front
  rw [dropWhile_run inside ends, dropWhile_run inside' ends'] at back
  exact ⟨front, back⟩

end Runs

section Words

variable {α β : Type} {P : α → Prop} {word : α → List β} {as bs : List α} {x y : List β}

/-- Whether the words of a code end where they seem to end, whatever follows them. -/
def Separates (P : α → Prop) (word : α → List β) : Prop :=
  ∀ ⦃a b : α⦄, P a → P b → ∀ ⦃x y : List β⦄, word a ++ x = word b ++ y → a = b ∧ x = y

def NoWord (P : α → Prop) (word : α → List β) (x : List β) : Prop :=
  ∀ a, P a → ∀ z, word a ++ z ≠ x

/-- A code whose words a reader takes off a text. -/
theorem Separates.of_reader {γ : Type} {read : List β → Option (γ × List β)} {view : α → γ}
    (reads : ∀ a, P a → ∀ x, read (word a ++ x) = some (view a, x))
    (inj : ∀ a b, P a → P b → view a = view b → a = b) : Separates P word := by
  intro a b ha hb x y same
  have taken := (reads a ha x).symm.trans ((congrArg read same).trans (reads b hb y))
  obtain ⟨first, rest⟩ := Prod.mk.inj (Option.some.inj taken)
  exact ⟨inj a b ha hb first, rest⟩

/-- The words of a list can be told apart. -/
theorem Separates.flatMap_inj (separates : Separates P word) (ha : ∀ a ∈ as, P a)
    (hb : ∀ b ∈ bs, P b) (hx : NoWord P word x) (hy : NoWord P word y)
    (same : as.flatMap word ++ x = bs.flatMap word ++ y) : as = bs ∧ x = y := by
  induction as generalizing bs with
  | nil =>
    cases bs with
    | nil => exact ⟨rfl, same⟩
    | cons b bs =>
      rw [List.flatMap_cons, List.append_assoc] at same
      exact absurd same.symm (hx b (hb b List.mem_cons_self) _)
  | cons a as ih =>
    rw [List.flatMap_cons, List.append_assoc] at same
    have head := ha a List.mem_cons_self
    cases bs with
    | nil => exact absurd same (hy a head _)
    | cons b bs =>
      rw [List.flatMap_cons, List.append_assoc] at same
      obtain ⟨rfl, rest⟩ := separates head (hb b List.mem_cons_self) same
      obtain ⟨rfl, ends⟩ := ih (fun c hc => ha c (List.mem_cons_of_mem _ hc))
        (fun c hc => hb c (List.mem_cons_of_mem _ hc)) rest
      exact ⟨rfl, ends⟩

end Words

section Items

def EndsItem (c : Char) : Prop := c = ',' ∨ c = ')'

instance : DecidablePred EndsItem := fun c => inferInstanceAs (Decidable (c = ',' ∨ c = ')'))

def IsWhole (cs : List Char) : Prop := ∀ c ∈ cs, ¬ EndsItem c

instance : DecidablePred IsWhole := List.decidableBAll fun c => ¬ EndsItem c

theorem isWhole_append {cs ds : List Char} : IsWhole (cs ++ ds) ↔ IsWhole cs ∧ IsWhole ds :=
  List.forall_mem_append

theorem isWhole_cons {c : Char} {cs : List Char} : IsWhole (c :: cs) ↔ ¬ EndsItem c ∧ IsWhole cs :=
  List.forall_mem_cons

def AtEnd (x : List Char) : Prop := ∀ c ∈ x.head?, EndsItem c

variable {cs ds x y : List Char}

theorem atEnd_nil : AtEnd [] := nofun

theorem atEnd_comma (x : List Char) : AtEnd (',' :: x) := by
  rintro c ⟨⟩
  exact .inl rfl

theorem atEnd_bracket (x : List Char) : AtEnd (')' :: x) := by
  rintro c ⟨⟩
  exact .inr rfl

theorem item_inj (hc : IsWhole cs) (hd : IsWhole ds) (hx : AtEnd x) (hy : AtEnd y)
    (same : cs ++ x = ds ++ y) : cs = ds ∧ x = y :=
  run_inj (p := fun c => !decide (EndsItem c)) (fun c h => by simp [hc c h])
    (fun c h => by simp [hd c h]) (fun c h => by simp [hx c h]) (fun c h => by simp [hy c h]) same

def furtherItems (items : List String) : List Char :=
  items.flatMap fun item => ',' :: ' ' :: item.toList

theorem toList_items (item : String) (items : List String) :
    (", ".intercalate (item :: items)).toList = item.toList ++ furtherItems items := by
  rw [String.toList_intercalate]
  induction items generalizing item with
  | nil => simp [furtherItems, List.intercalate]
  | cons next items ih =>
    have rest := ih next
    simp only [List.intercalate, List.map_cons, furtherItems, List.flatMap_cons] at rest ⊢
    rw [List.intersperse_cons_cons, List.flatten_cons, List.flatten_cons, rest]
    rfl

theorem atEnd_furtherItems (items : List String) (x : List Char) :
    AtEnd (furtherItems items ++ ')' :: x) := by
  cases items with
  | nil => exact atEnd_bracket x
  | cons item items => exact atEnd_comma _

/-- Items that are in one piece each are told from the text of all. -/
theorem items_inj {item item' : String} {items items' : List String}
    (h : ∀ i ∈ item :: items, IsWhole i.toList) (h' : ∀ i ∈ item' :: items', IsWhole i.toList)
    (same : item.toList ++ (furtherItems items ++ ')' :: x) =
      item'.toList ++ (furtherItems items' ++ ')' :: y)) :
    item :: items = item' :: items' ∧ x = y := by
  induction items generalizing item item' items' with
  | nil =>
    obtain ⟨first, rest⟩ := item_inj (h item List.mem_cons_self) (h' item' List.mem_cons_self)
      (atEnd_furtherItems [] x) (atEnd_furtherItems items' y) same
    cases items' with
    | nil => exact ⟨by rw [String.toList_inj.mp first], (List.cons.inj rest).2⟩
    | cons => cases rest
  | cons next items ih =>
    obtain ⟨first, rest⟩ := item_inj (h item List.mem_cons_self) (h' item' List.mem_cons_self)
      (atEnd_furtherItems (next :: items) x) (atEnd_furtherItems items' y) same
    cases items' with
    | nil => cases rest
    | cons next' items' =>
      simp only [furtherItems, List.flatMap_cons, List.cons_append, List.append_assoc,
        List.cons.injEq, true_and] at rest
      obtain ⟨others, ends⟩ := ih (fun i hi => h i (List.mem_cons_of_mem _ hi))
        (fun i hi => h' i (List.mem_cons_of_mem _ hi)) rest
      exact ⟨by rw [String.toList_inj.mp first, others], ends⟩

end Items

section Digits

/-- A whole number that is not negative is written by its digits. -/
theorem toList_natText (n : Nat) : (toString n).toList = Nat.toDigits 10 n := by
  rw [Nat.toString_eq_ofList_toDigits, String.toList_ofList]

def AreDigits (cs : List Char) : Prop := ∀ c ∈ cs, c.isDigit = true

variable {cs ds : List Char}

theorem areDigits_toDigits (n : Nat) : AreDigits (Nat.toDigits 10 n) := fun _ hc =>
  Nat.isDigit_of_mem_toDigits (by decide) (by decide) hc

theorem areDigits_zeros (n : Nat) : AreDigits (List.replicate n '0') := fun c hc => by
  rw [List.eq_of_mem_replicate hc]
  rfl

theorem AreDigits.append (hc : AreDigits cs) (hd : AreDigits ds) : AreDigits (cs ++ ds) :=
  List.forall_mem_append.mpr ⟨hc, hd⟩

theorem AreDigits.of_sublist (hcs : AreDigits cs) (sub : ds.Sublist cs) : AreDigits ds :=
  fun c hc => hcs c (sub.subset hc)

theorem AreDigits.not_mem {c : Char} (hcs : AreDigits cs) (other : c.isDigit = false) : c ∉ cs :=
  fun hc => Bool.eq_false_iff.mp other (hcs c hc)

theorem AreDigits.isWhole (hcs : AreDigits cs) : IsWhole cs := by
  rintro c hc (rfl | rfl)
  · exact hcs.not_mem rfl hc
  · exact hcs.not_mem rfl hc

theorem toDigits_inj {m n : Nat} (same : Nat.toDigits 10 m = Nat.toDigits 10 n) : m = n := by
  rw [← Nat.ofDigitChars_ten_toDigits (n := m), same, Nat.ofDigitChars_ten_toDigits]

theorem natText_isWhole (n : Nat) : IsWhole (toString n).toList := by
  rw [toList_natText]
  exact (areDigits_toDigits n).isWhole

theorem natText_inj {m n : Nat} (same : toString m = toString n) : m = n := by
  have chars := congrArg String.toList same
  rw [toList_natText, toList_natText] at chars
  exact toDigits_inj chars

theorem natTexts_inj {ms ns : List Nat} (same : ms.map toString = ns.map toString) : ms = ns :=
  List.map_injective_iff.mpr (fun _ _ => natText_inj) same

end Digits

section Hex

def hexStep (n : Nat) (c : Char) : Option Nat :=
  if c.isDigit then some (16 * n + (c.toNat - '0'.toNat))
  else if 'a' ≤ c ∧ c ≤ 'f' then some (16 * n + (c.toNat - 'a'.toNat + 10))
  else if 'A' ≤ c ∧ c ≤ 'F' then some (16 * n + (c.toNat - 'A'.toNat + 10))
  else none

theorem hexValue?_eq (cs : List Char) : Json.hexValue? cs = cs.foldlM hexStep 0 := rfl

theorem hexStep_digitChar (n : Nat) (d : Fin 16) :
    hexStep n d.val.digitChar = some (16 * n + d.val) := by
  fin_cases d <;> rfl

theorem hexValue?_toDigits (n : Nat) : Json.hexValue? (Nat.toDigits 16 n) = some n := by
  induction n using Nat.strongRecOn with
  | ind n ih =>
    rw [Nat.toDigits_eq_if (by decide)]
    split
    · next small =>
      rw [hexValue?_eq, List.foldlM_cons, hexStep_digitChar 0 ⟨n, small⟩, Nat.mul_zero,
        Nat.zero_add]
      rfl
    · next large =>
      rw [hexValue?_eq, List.foldlM_append, ← hexValue?_eq, ih (n / 16) (by omega)]
      have digit := hexStep_digitChar (n / 16) ⟨n % 16, Nat.mod_lt n (by decide)⟩
      rw [Nat.div_add_mod] at digit
      exact congrArg (Option.bind · some) digit

/-- Digits with zeros before them read back. -/
theorem hexValue?_padded (k n : Nat) :
    Json.hexValue? (List.replicate k '0' ++ Nat.toDigits 16 n) = some n := by
  induction k with
  | zero => exact hexValue?_toDigits n
  | succ k ih => exact ih

end Hex

end Schematic
