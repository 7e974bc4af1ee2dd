import Mathlib.Data.List.TakeWhile
import Schematic.Proofs.Reading.Faults

/-! Where the reading of a YAML text stands. A position moves in one direction, so what is left
behind it is a part at the end of the text, and what is at fault there is at fault in the text. -/

namespace Schematic.Yaml

namespace Cursor

variable (c : Cursor) (p : Char → Bool)

@[simp] theorem next_rest : c.next.rest = c.rest.tail := by
  unfold next
  split
  · next ended => rw [ended, List.tail_nil]
  · next ch rest more =>
    rw [more, List.tail_cons]
    split <;> rfl

@[simp] theorem forward_rest (n : Nat) : (c.forward n).rest = c.rest.drop n := by
  induction n generalizing c with
  | zero => rfl
  | succ n ih => rw [forward, ih, next_rest, List.drop_tail]

@[simp] theorem takeWhile_rest : (c.takeWhile p).2.rest = c.rest.dropWhile p := by
  rw [takeWhile, forward_rest]
  exact (congrArg (List.drop _) List.takeWhile_append_dropWhile.symm).trans List.drop_left

@[simp] theorem skipWhile_rest : (c.skipWhile p).rest = c.rest.dropWhile p := c.takeWhile_rest p

theorem next_suffix : c.next.rest <:+ c.rest := c.next_rest ▸ List.tail_suffix _

theorem forward_suffix (n : Nat) : (c.forward n).rest <:+ c.rest :=
  c.forward_rest n ▸ List.drop_suffix n _

theorem takeWhile_suffix : (c.takeWhile p).2.rest <:+ c.rest :=
  c.takeWhile_rest p ▸ List.dropWhile_suffix p

theorem skipWhile_suffix : (c.skipWhile p).rest <:+ c.rest := c.takeWhile_suffix p

theorem lineBreak_suffix : c.lineBreak.2.rest <:+ c.rest := by
  unfold lineBreak
  split
  · split
    · exact c.next_suffix
    · exact List.suffix_refl _
  · exact List.suffix_refl _

/-- Blanks and a comment. -/
theorem comment_suffix (c : Cursor) :
    (if (c.skipWhile (· == ' ')).sees '#' then (c.skipWhile (· == ' ')).skipLine
      else c.skipWhile (· == ' ')).rest <:+ c.rest := by
  split
  · exact ((c.skipWhile _).skipWhile_suffix _).trans (c.skipWhile_suffix _)
  · exact c.skipWhile_suffix _

theorem endLine?_suffix {c d : Cursor} (ended : c.endLine? = some d) : d.rest <:+ c.rest := by
  obtain ⟨-, ended⟩ := Option.ite_none_right_eq_some.mp ended
  cases Option.some.inj ended
  exact (lineBreak_suffix _).trans c.comment_suffix

theorem rest_of_peek {c : Cursor} {ch : Char} (seen : c.peek = some ch) :
    c.rest = ch :: c.next.rest := by
  rw [peek, List.head?_eq_some_iff] at seen
  obtain ⟨rest, begun⟩ := seen
  rw [next_rest, begun, List.tail_cons]

end Cursor

/-- What can be blamed on a text that ends with a part that can be blamed for it. -/
structure Blaming where
  holds : List Char → ScalarFault → Prop
  extend : ∀ {part text : List Char} {fault : ScalarFault}, part <:+ text → holds part fault →
    holds text fault

/-- A reading from some position on. What it blames on a scalar can be blamed on the text there, and
what it leaves is a part at the end of that. -/
structure Proceeds {α : Type} (B : Blaming) (text : List Char) (left : α → List Char)
    (r : Reading α) : Prop where
  blames : Blames (B.holds text) r
  leaves : ∀ a, r = .ok a → left a <:+ text

namespace Proceeds

variable {α β : Type} {B : Blaming} {text part : List Char} {left : α → List Char}
  {left' : β → List Char}

theorem ok {a : α} (part : left a <:+ text) : Proceeds B text left (.ok a) := by
  refine ⟨.ok a, ?_⟩
  rintro _ ⟨⟩
  exact part

theorem malformed : Proceeds B text left (Yaml.malformed : Reading α) := ⟨.malformed, nofun⟩

theorem behind {r : Reading α} (suffix : part <:+ text) (inner : Proceeds B part left r) :
    Proceeds B text left r where
  blames := fun fault failed => B.extend suffix (inner.blames fault failed)
  leaves := fun a read => (inner.leaves a read).trans suffix

theorem bind {r : Reading α} {next : α → Reading β} (first : Proceeds B text left r)
    (later : ∀ a, r = .ok a → Proceeds B (left a) left' (next a)) :
    Proceeds B text left' (r >>= next) := by
  cases r with
  | error e =>
    refine ⟨?_, nofun⟩
    rintro fault ⟨⟩
    exact first.blames fault rfl
  | ok a => exact (later a rfl).behind (first.leaves a rfl)

theorem ite {c : Prop} [Decidable c] {r s : Reading α} (yes : Proceeds B text left r)
    (no : Proceeds B text left s) : Proceeds B text left (if c then r else s) := by
  split
  · exact yes
  · exact no

end Proceeds

abbrev Scans {α : Type} (B : Blaming) (c : Cursor) (r : Reading (α × Cursor)) : Prop :=
  Proceeds B c.rest (fun read => read.2.rest) r

end Schematic.Yaml
