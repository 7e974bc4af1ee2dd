import Schematic.Proofs.Graph.Coherence
import Mathlib.Logic.Relation

/-! What lies below what in a coherent graph. Enclosure is the order of a tree: what encloses one
component is a chain, and its least member is the root. -/

namespace Schematic.Graph

/-- A component of the graph and one of its children. -/
def IsParent (g : Graph) (p c : ComponentKey) : Prop := p ∈ g.roster ∧ c ∈ g.childrenOf p

def Encloses (g : Graph) : ComponentKey → ComponentKey → Prop := Relation.ReflTransGen g.IsParent

variable {g : Graph} {a b c m n p q : ComponentKey}

theorem Encloses.refl (k : ComponentKey) : g.Encloses k k := Relation.ReflTransGen.refl

theorem Encloses.trans (h : g.Encloses a b) (h' : g.Encloses b c) : g.Encloses a c :=
  Relation.ReflTransGen.trans h h'

theorem IsParent.encloses (h : g.IsParent p c) : g.Encloses p c := .single h

theorem Encloses.by_child (h : g.Encloses m a) (other : m ≠ a) :
    ∃ c, g.IsParent m c ∧ g.Encloses c a := by
  rcases Relation.ReflTransGen.cases_head h with same | ⟨c, step, rest⟩
  · exact absurd same other
  · exact ⟨c, step, rest⟩

theorem Encloses.by_parent (h : g.Encloses m a) (other : m ≠ a) :
    ∃ p, g.IsParent p a ∧ g.Encloses m p := by
  rcases Relation.ReflTransGen.cases_tail h with same | ⟨p, rest, step⟩
  · exact absurd same.symm other
  · exact ⟨p, step, rest⟩

theorem Encloses.mem (h : g.Encloses m a) (ha : a ∈ g.roster) : m ∈ g.roster := by
  by_cases same : m = a
  · exact same ▸ ha
  · obtain ⟨c, step, _⟩ := h.by_child same
    exact step.1

namespace Coherent

theorem child_mem (hg : g.Coherent) (h : g.IsParent p c) : c ∈ g.roster := (hg.child h.1 h.2).1

theorem id_lt (hg : g.Coherent) (h : g.IsParent p c) : (g.component p).id < (g.component c).id :=
  (hg.child h.1 h.2).2.2

theorem parent_unique (hg : g.Coherent) (h : g.IsParent p c) (h' : g.IsParent q c) : p = q := by
  have left := (hg.child h.1 h.2).2.1
  have right := (hg.child h'.1 h'.2).2.1
  have same : (g.component p).id = (g.component q).id :=
    Int.ofNat_inj.mp (Value.int.inj (left.symm.trans right))
  exact hg.id_inj h.1 h'.1 same

theorem encloses_mem (hg : g.Coherent) (h : g.Encloses m a) (hm : m ∈ g.roster) :
    a ∈ g.roster := by
  induction h with
  | refl => exact hm
  | tail _ step _ => exact hg.child_mem step

theorem encloses_id_le (hg : g.Coherent) (h : g.Encloses m a) :
    (g.component m).id ≤ (g.component a).id := by
  induction h with
  | refl => exact Nat.le_refl _
  | tail _ step ih => exact Nat.le_trans ih (Nat.le_of_lt (hg.id_lt step))

theorem encloses_antisymm (hg : g.Coherent) (h : g.Encloses a b) (h' : g.Encloses b a) :
    a = b := by
  by_contra other
  obtain ⟨c, step, rest⟩ := h.by_child other
  have up := hg.id_lt step
  have down := Nat.le_trans (hg.encloses_id_le rest) (hg.encloses_id_le h')
  omega

theorem encloses_total (hg : g.Coherent) (h : g.Encloses m a) (h' : g.Encloses n a) :
    g.Encloses m n ∨ g.Encloses n m := by
  have up : Relator.RightUnique (Function.swap g.IsParent) := fun _ _ _ hp hq =>
    hg.parent_unique hp hq
  have left := Relation.reflTransGen_swap.mpr h
  have right := Relation.reflTransGen_swap.mpr h'
  rcases Relation.ReflTransGen.total_of_right_unique up left right with above | above
  · exact .inr (Relation.reflTransGen_swap.mp above)
  · exact .inl (Relation.reflTransGen_swap.mp above)

theorem not_parent_of_root (hg : g.Coherent) (h : g.register.root = some c) :
    ¬ g.IsParent p c := by
  intro step
  have null := hg.root_parent h
  rw [(hg.child step.1 step.2).2.1] at null
  cases null

theorem exists_parent (hg : g.Coherent) (hc : c ∈ g.roster) (other : g.register.root ≠ some c) :
    ∃ p, g.IsParent p c := by
  obtain ⟨p, hp, listed⟩ := hg.listed hc other
  exact ⟨p, hp, listed⟩

theorem not_encloses_parent (hg : g.Coherent) (h : g.IsParent p c) : ¬ g.Encloses c p := by
  intro back
  have up := hg.id_lt h
  have down := hg.encloses_id_le back
  omega

theorem encloses_child_iff (hg : g.Coherent) (h : g.IsParent p c) :
    g.Encloses m c ↔ m = c ∨ g.Encloses m p := by
  constructor
  · intro above
    by_cases same : m = c
    · exact .inl same
    · obtain ⟨q, step, rest⟩ := above.by_parent same
      exact .inr (hg.parent_unique step h ▸ rest)
  · rintro (rfl | above)
    · exact .refl m
    · exact above.trans h.encloses

theorem child_unique (hg : g.Coherent) (h : g.IsParent p a) (h' : g.IsParent p b)
    (ha : g.Encloses a c) (hb : g.Encloses b c) : a = b := by
  rcases hg.encloses_total ha hb with above | above
  · exact ((hg.encloses_child_iff h').mp above).resolve_right (hg.not_encloses_parent h)
  · exact (((hg.encloses_child_iff h).mp above).resolve_right (hg.not_encloses_parent h')).symm

theorem root_encloses (hg : g.Coherent) (hr : g.register.root = some a) (hc : c ∈ g.roster) :
    g.Encloses a c := by
  -- by the identifier, since a parent has a smaller one than its children
  induction h : (g.component c).id using Nat.strongRecOn generalizing c with
  | ind n ih =>
    by_cases top : g.register.root = some c
    · cases hr.symm.trans top
      exact .refl a
    · obtain ⟨p, step⟩ := hg.exists_parent hc top
      exact (ih _ (h ▸ hg.id_lt step) step.1 rfl).trans step.encloses

theorem exists_root (hg : g.Coherent) (hc : c ∈ g.roster) : ∃ r, g.register.root = some r := by
  cases h : g.register.root with
  | none => exact absurd hc (by simp [hg.roster_eq_nil h])
  | some r => exact ⟨r, rfl⟩

end Coherent

end Schematic.Graph
