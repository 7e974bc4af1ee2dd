import Schematic.Proofs.PassThrough.Demand

/-! Which of some demands are selected when they are met one after the other: the first one at each
place that is not met before. Demands at other places have no say in this, so a selection from some
of the places is that part of the whole selection. -/

namespace Schematic

/-- The demands that are selected from a list, given the places that are met before. -/
inductive Selects : (ComponentKey × Meaning → Prop) → List Demand → List Demand → Prop where
  | nil {met : ComponentKey × Meaning → Prop} : Selects met [] []
  | skip {met : ComponentKey × Meaning → Prop} {x : Demand} {xs added : List Demand} :
      met x.place → Selects met xs added → Selects met (x :: xs) added
  | take {met : ComponentKey × Meaning → Prop} {x : Demand} {xs added : List Demand} :
      ¬ met x.place → Selects (fun place => met place ∨ x.place = place) xs added →
        Selects met (x :: xs) (x :: added)

namespace Selects

variable {met met' : ComponentKey × Meaning → Prop} {xs added added' : List Demand}

theorem sublist (h : Selects met xs added) : added.Sublist xs := by
  induction h with
  | nil => exact .slnil
  | skip _ _ ih => exact .cons _ ih
  | take _ _ ih => exact .cons_cons _ ih

theorem unmet (h : Selects met xs added) : ∀ y ∈ added, ¬ met y.place := by
  induction h with
  | nil => nofun
  | skip _ _ ih => exact ih
  | take free _ ih =>
    simp only [List.forall_mem_cons]
    exact ⟨free, fun y hy already => ih y hy (.inl already)⟩

theorem first (h : Selects met xs added) : ∀ y ∈ added, ∃ before after,
    xs = before ++ y :: after ∧ ∀ z ∈ before, z.place ≠ y.place := by
  induction h with
  | nil => nofun
  | @skip met x xs added already rest ih =>
    intro y hy
    obtain ⟨before, after, rfl, earlier⟩ := ih y hy
    refine ⟨x :: before, after, rfl, List.forall_mem_cons.mpr ⟨fun same => ?_, earlier⟩⟩
    exact rest.unmet y hy (same ▸ already)
  | @take met x xs added _ rest ih =>
    intro y hy
    rcases List.mem_cons.mp hy with rfl | hy
    · exact ⟨[], xs, rfl, by simp⟩
    · obtain ⟨before, after, rfl, earlier⟩ := ih y hy
      refine ⟨x :: before, after, rfl, List.forall_mem_cons.mpr ⟨fun same => ?_, earlier⟩⟩
      exact rest.unmet y hy (.inr same)

theorem complete (h : Selects met xs added) :
    ∀ x ∈ xs, met x.place ∨ ∃ y ∈ added, y.place = x.place := by
  induction h with
  | nil => nofun
  | skip already _ ih =>
    simp only [List.forall_mem_cons]
    exact ⟨.inl already, ih⟩
  | @take met x xs added _ _ ih =>
    simp only [List.forall_mem_cons]
    refine ⟨.inr ⟨x, List.mem_cons_self, rfl⟩, fun z hz => ?_⟩
    rcases ih z hz with (already | same) | ⟨y, hy, same⟩
    · exact .inl already
    · exact .inr ⟨x, List.mem_cons_self, same⟩
    · exact .inr ⟨y, List.mem_cons_of_mem _ hy, same⟩

theorem distinct (h : Selects met xs added) : added.Pairwise fun y z => y.place ≠ z.place := by
  induction h with
  | nil => exact .nil
  | skip _ _ ih => exact ih
  | take _ rest ih =>
    exact List.pairwise_cons.mpr ⟨fun y hy same => rest.unmet y hy (.inr same), ih⟩

theorem nodup (h : Selects met xs added) : added.Nodup :=
  h.distinct.imp fun other same => other (congrArg Demand.place same)

/-- Only the places of the demands matter. -/
theorem congr (h : Selects met xs added) (same : ∀ x ∈ xs, met x.place ↔ met' x.place) :
    Selects met' xs added := by
  induction h generalizing met' with
  | nil => exact .nil
  | skip already _ ih =>
    rw [List.forall_mem_cons] at same
    exact .skip (same.1.mp already) (ih same.2)
  | take free _ ih =>
    rw [List.forall_mem_cons] at same
    exact .take (fun already => free (same.1.mpr already))
      (ih fun z hz => or_congr_left (same.2 z hz))

theorem unique (h : Selects met xs added) (h' : Selects met xs added') : added = added' := by
  induction h generalizing added' with
  | nil =>
    cases h'
    rfl
  | skip already _ ih =>
    cases h' with
    | skip _ rest => exact ih rest
    | take free _ => exact absurd already free
  | take free _ ih =>
    cases h' with
    | skip already _ => exact absurd already free
    | take _ rest => rw [ih rest]

/-- What is selected of the demands that are kept, if demands at one place are kept together, is
what is kept of the selection. -/
theorem filter (h : Selects met xs added) {keep : Demand → Bool}
    (together : ∀ x ∈ xs, ∀ y ∈ xs, x.place = y.place → keep x = keep y) :
    Selects met (xs.filter keep) (added.filter keep) := by
  induction h with
  | nil => exact .nil
  | @skip met x xs added already _ ih =>
    have rest := ih fun y hy z hz =>
      together y (List.mem_cons_of_mem _ hy) z (List.mem_cons_of_mem _ hz)
    by_cases kept : keep x = true
    · rw [List.filter_cons_of_pos kept]
      exact .skip already rest
    · rw [List.filter_cons_of_neg kept]
      exact rest
  | @take met x xs added free _ ih =>
    have rest := ih fun y hy z hz =>
      together y (List.mem_cons_of_mem _ hy) z (List.mem_cons_of_mem _ hz)
    by_cases kept : keep x = true
    · rw [List.filter_cons_of_pos kept, List.filter_cons_of_pos kept]
      exact .take free rest
    · rw [List.filter_cons_of_neg kept, List.filter_cons_of_neg kept]
      refine rest.congr fun y hy => or_iff_left fun same => ?_
      -- a demand that is left is at another place than the one that went
      obtain ⟨listed, left⟩ := List.mem_filter.mp hy
      exact kept ((together x List.mem_cons_self y (List.mem_cons_of_mem _ listed) same).trans left)

end Selects

end Schematic
