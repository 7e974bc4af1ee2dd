import Schematic.Graph.PassThrough
import Schematic.Proofs.Graph.Trail

/-! Which components a binding has to cross. On the way up these are the components around the
driver but not the receiver, on the way down those around the receiver but not the driver. -/

namespace Schematic

def innerCrumbs : List Crumb → List Crumb
  | here :: next :: rest =>
    if here.upwards && !next.upwards then innerCrumbs (next :: rest)
    else here :: innerCrumbs (next :: rest)
  | _ => []

theorem innerCrumbs_eq (trail : List Crumb) :
    ((trail.zip (trail.drop 1)).filter fun (here, next) => !(here.upwards && !next.upwards)).map
      Prod.fst = innerCrumbs trail := by
  fun_induction innerCrumbs trail with
  | case1 here next rest turn ih =>
    rw [← ih, List.drop_one, List.tail_cons, List.zip_cons_cons, List.filter_cons]
    simp only [turn, Bool.not_true, Bool.false_eq_true, if_false]
    rfl
  | case2 here next rest along ih =>
    rw [← ih, List.drop_one, List.tail_cons, List.zip_cons_cons, List.filter_cons]
    simp only [Bool.eq_false_iff.mpr along, Bool.not_false, if_true]
    rfl
  | case3 trail short =>
    match trail with
    | [] => rfl
    | [c] => rfl
    | here :: next :: rest => exact absurd rfl (short here next rest)

theorem crossings_eq (trail : List Crumb) : crossings trail = (innerCrumbs trail.tail).reverse := by
  rw [← innerCrumbs_eq, ← List.map_reverse, crossings, List.drop_one]
  rw [List.drop_tail]

namespace Graph

/-- The component lies around the first of two others and not around the second. -/
def Separates (g : Graph) (c a b : ComponentKey) : Prop := g.Encloses c a ∧ ¬ g.Encloses c b

/-- What a pass-through crumb between two components is: around the start on the way up, around the
goal on the way down, and at neither end. -/
def IsCrossing (g : Graph) (a b : ComponentKey) (crumb : Crumb) : Prop :=
  crumb.component ≠ a ∧ crumb.component ≠ b ∧
    if crumb.upwards then g.Separates crumb.component a b else g.Separates crumb.component b a

variable {g : Graph} {a b k m : ComponentKey} {upwards : Bool} {trail : List Crumb} {crumb : Crumb}

namespace Coherent

theorem mem_innerCrumbs (hg : g.Coherent) (h : g.Route b k upwards trail) :
    crumb ∈ innerCrumbs trail ↔ crumb.component ≠ b ∧
      ((crumb.upwards = true ∧ upwards = true ∧ g.Separates crumb.component k b) ∨
        (crumb.upwards = false ∧ g.Encloses crumb.component b ∧
          (¬ g.Encloses crumb.component k ∨ crumb.component = k ∧ upwards = false))) := by
  obtain ⟨m, u⟩ := crumb
  -- after a step down there are only steps down, so just the last step up meets the turning point
  induction h with
  | here =>
    simp only [innerCrumbs, List.not_mem_nil, Separates, false_iff]
    rintro ⟨other, ⟨_, _, above, apart⟩ | ⟨_, above, apart | ⟨same, _⟩⟩⟩
    · exact apart above
    · exact apart above
    · exact other same
  | @down k c w trail step below route ih =>
    obtain ⟨rest, rfl⟩ := route_head route
    have inside : g.Encloses m k → g.Encloses m b := fun h =>
      h.trans (step.encloses.trans below)
    have notEnd : k ≠ b := fun same => hg.not_encloses_parent step (same ▸ below)
    have later : ⟨m, u⟩ ∈ innerCrumbs (⟨c, false⟩ :: rest) ↔
        m ≠ b ∧ u = false ∧ g.Encloses m b ∧ ¬ g.Encloses m k := by
      rw [ih, hg.encloses_child_iff step]
      have apart := hg.not_encloses_parent step
      by_cases same : m = c
      · subst same
        simp [apart]
      · simp [same]
    cases w with
    | true =>
      simp only [innerCrumbs, Bool.not_false, Bool.and_true, if_true, later, Separates]
      grind
    | false =>
      have listed : ⟨m, u⟩ ∈ innerCrumbs (⟨k, false⟩ :: ⟨c, false⟩ :: rest) ↔
          (m = k ∧ u = false) ∨ ⟨m, u⟩ ∈ innerCrumbs (⟨c, false⟩ :: rest) := by
        simp [innerCrumbs]
      rw [listed, later]
      simp only [Bool.false_eq_true, false_and, and_false, false_or, and_true]
      constructor
      · rintro (⟨rfl, down⟩ | ⟨other, down, above, apart⟩)
        · exact ⟨notEnd, down, step.encloses.trans below, .inr rfl⟩
        · exact ⟨other, down, above, .inl apart⟩
      · rintro ⟨other, down, above, apart | same⟩
        · exact .inr ⟨other, down, above, apart⟩
        · exact .inl ⟨same, down⟩
  | @up k p trail step apart route ih =>
    obtain ⟨rest, rfl⟩ := route_head route
    have listed : ⟨m, u⟩ ∈ innerCrumbs (⟨k, true⟩ :: ⟨p, true⟩ :: rest) ↔
        (m = k ∧ u = true) ∨ ⟨m, u⟩ ∈ innerCrumbs (⟨p, true⟩ :: rest) := by
      simp [innerCrumbs]
    rw [listed, ih]
    simp only [Separates, hg.encloses_child_iff step, Bool.true_eq_false, and_false, or_false,
      true_and]
    by_cases same : m = k
    · subst same
      have notEnd : m ≠ b := fun same => apart (same ▸ .refl m)
      have turn := hg.not_encloses_parent step
      simp [notEnd, apart, turn]
    · simp [same]

theorem mem_crossings (hg : g.Coherent) (h : g.Route b a true trail) :
    crumb ∈ crossings trail ↔ g.IsCrossing a b crumb := by
  rw [crossings_eq, List.mem_reverse]
  obtain ⟨m, u⟩ := crumb
  cases h with
  | here =>
    simp only [List.tail_cons, innerCrumbs, List.not_mem_nil, IsCrossing, Separates, false_iff]
    rintro ⟨_, _, side⟩
    split at side <;> exact side.2 side.1
  | @down _ c _ _ step below route =>
    have inside := step.encloses.trans below
    have above : g.Encloses m a → g.Encloses m b := fun h => h.trans inside
    rw [List.tail_cons, hg.mem_innerCrumbs route]
    simp only [IsCrossing, Separates, hg.encloses_child_iff step]
    have turn := hg.not_encloses_parent step
    have start : g.Encloses m a ∨ m ≠ a := or_iff_not_imp_right.mpr fun same => by
      rw [not_not] at same
      exact same ▸ .refl m
    have child : m = c → ¬ g.Encloses m a := fun same => same ▸ turn
    cases u <;> simp <;> grind
  | @up _ p _ step apart route =>
    rw [List.tail_cons, hg.mem_innerCrumbs route]
    simp only [IsCrossing, Separates, hg.encloses_child_iff step]
    have below : m = a → ¬ g.Encloses m p := fun same => same ▸ hg.not_encloses_parent step
    have start : m = a → ¬ g.Encloses m b := fun same => same ▸ apart
    cases u <;> simp <;> grind

theorem exists_crossing (hg : g.Coherent) (ha : a ∈ g.roster) (hb : b ∈ g.roster) :
    (∃ u, g.IsCrossing a b ⟨m, u⟩) ↔ g.Crosses m a b := by
  rw [hg.crosses_iff ha hb]
  simp only [IsCrossing, Separates, Bool.exists_bool, Bool.false_eq_true, if_false, if_true]
  grind

end Coherent

end Graph

end Schematic
