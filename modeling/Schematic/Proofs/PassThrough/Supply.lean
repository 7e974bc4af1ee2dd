import Schematic.Proofs.PassThrough.Selection

/-! Which demands get a port: the first one at each place where there is no port yet. -/

namespace Schematic

/-- A demand that a graph can meet with a port that stays as it is asked for. -/
structure Demand.Fits (g : Graph) (x : Demand) : Prop where
  inside : x.component ∈ g.roster
  proper : x.facts.identity.IsIdentity
  bound : x.facts.identity.isNull = false
  named : x.facts.basename.isWritable = true
  kept : x.facts.kept = x.facts

namespace Demand.Fits

variable {g h : Graph} {x : Demand}

theorem later (fit : x.Fits g) (e : g.Extends h) : x.Fits h :=
  { fit with inside := e.roster ▸ fit.inside }

theorem place_ne_null (fit : x.Fits g) : x.place.2 ≠ .null := by
  intro null
  have unbound := (Value.isNull_iff fit.proper.1).mpr null
  rw [fit.bound] at unbound
  cases unbound

end Demand.Fits

namespace Graph

def Meets (g : Graph) (place : ComponentKey × Meaning) : Prop := g.Owns place.1 place.2

/-- The demands that get a port when some demands are met one after the other. -/
structure IsSupply (g : Graph) (xs added : List Demand) : Prop where
  unmet : ∀ y ∈ added, ¬ g.Meets y.place
  first : ∀ y ∈ added, ∃ before after, xs = before ++ y :: after ∧ ∀ z ∈ before, z.place ≠ y.place
  complete : ∀ x ∈ xs, g.Meets x.place ∨ ∃ y ∈ added, y.place = x.place
  distinct : added.Pairwise fun y z => y.place ≠ z.place

variable {g h : Graph} {k : ComponentKey} {x y : Demand} {xs added : List Demand}
  {place : ComponentKey × Meaning}

theorem follows_insertDemand (hg : g.Coherent) (fit : x.Fits g) : g.Follows (g.insertDemand x) :=
  ⟨.insertPort (hg.index_lt fit.inside) _, hg.insertPort fit.inside⟩

theorem fits_tail (hg : g.Coherent) (fit : ∀ y ∈ x :: xs, y.Fits g) :
    ∀ y ∈ xs, y.Fits (g.insertDemand x) := fun y hy =>
  (fit y (List.mem_cons_of_mem _ hy)).later
    (follows_insertDemand hg (fit x List.mem_cons_self)).toExtends

theorem factsOf_insertDemand (hg : g.Coherent) (fit : x.Fits g) (hk : k ∈ g.roster) :
    (g.insertDemand x).factsOf k = g.factsOf k ++ if k = x.component then [x.facts] else [] := by
  rw [insertDemand, factsOf_insertPort hg fit.inside hk, fit.kept]

theorem meets_insertDemand (hg : g.Coherent) (fit : x.Fits g) (inside : place.1 ∈ g.roster) :
    (g.insertDemand x).Meets place ↔ g.Meets place ∨ x.place = place := by
  obtain ⟨k, μ⟩ := place
  simp only [Meets, owns_iff, factsOf_insertDemand hg fit inside, List.mem_append, or_and_right,
    exists_or, Demand.place, Prod.mk.injEq]
  refine or_congr_right ?_
  by_cases same : k = x.component
  · simp [same]
  · simp [same, Ne.symm same]

theorem Ordinary.insertDemand (ord : g.Ordinary) (hg : g.Coherent) (fit : x.Fits g) :
    (g.insertDemand x).Ordinary :=
  ord.insertPort hg fit.inside fit.named fit.proper

theorem supply_of_meets (ord : g.Ordinary) (fit : x.Fits g) (met : g.Meets x.place) :
    g.supply x = g := by
  rw [supply, if_pos ((portFor_isSome ord.identified fit.inside fit.proper).mpr ⟨fit.bound, met⟩)]

theorem supply_of_not_meets (ord : g.Ordinary) (fit : x.Fits g) (unmet : ¬ g.Meets x.place) :
    g.supply x = g.insertDemand x := by
  rw [supply, if_neg fun met =>
    unmet ((portFor_isSome ord.identified fit.inside fit.proper).mp met).2]

theorem IsSupply.mem (supply : g.IsSupply xs added) (hy : y ∈ added) : y ∈ xs := by
  obtain ⟨before, after, rfl, _⟩ := supply.first y hy
  exact List.mem_append_right _ List.mem_cons_self

theorem isSupply_of_selects (h : Selects g.Meets xs added) : g.IsSupply xs added :=
  ⟨h.unmet, h.first, h.complete, h.distinct⟩

/-- Meeting some demands adds one port at each of their places where there was none, and makes it
what the first demand of that place says. -/
theorem exists_selection (hg : g.Coherent) (ord : g.Ordinary) (fit : ∀ x ∈ xs, x.Fits g) :
    ∃ added, g.supplyAll xs = g.insertAll added ∧ Selects g.Meets xs added := by
  induction xs generalizing g with
  | nil => exact ⟨[], rfl, .nil⟩
  | cons x xs ih =>
    have here := fit x List.mem_cons_self
    rw [supplyAll, List.foldl_cons]
    by_cases met : g.Meets x.place
    · obtain ⟨added, result, selects⟩ := ih hg ord fun y hy => fit y (List.mem_cons_of_mem _ hy)
      rw [supply_of_meets ord here met]
      exact ⟨added, result, .skip met selects⟩
    · obtain ⟨added, result, selects⟩ := ih (follows_insertDemand hg here).coherent
        (ord.insertDemand hg here) (fits_tail hg fit)
      rw [supply_of_not_meets ord here met]
      refine ⟨x :: added, result, .take met (selects.congr fun y hy => ?_)⟩
      exact meets_insertDemand hg here (fit y (List.mem_cons_of_mem _ hy)).inside

theorem follows_insertAll (hg : g.Coherent) (fit : ∀ x ∈ xs, x.Fits g) :
    g.Follows (g.insertAll xs) := by
  induction xs generalizing g with
  | nil => exact ⟨.refl g, hg⟩
  | cons x xs ih =>
    have first := follows_insertDemand hg (fit x List.mem_cons_self)
    have rest := ih first.coherent (fits_tail hg fit)
    exact ⟨first.trans rest.toExtends, rest.coherent⟩

theorem ordinary_insertAll (hg : g.Coherent) (ord : g.Ordinary) (fit : ∀ x ∈ xs, x.Fits g) :
    (g.insertAll xs).Ordinary := by
  induction xs generalizing g with
  | nil => exact ord
  | cons x xs ih =>
    have here := fit x List.mem_cons_self
    exact ih (follows_insertDemand hg here).coherent (ord.insertDemand hg here) (fits_tail hg fit)

/-- The new ports of a component come after its old ones, in the order of their demands. -/
theorem factsOf_insertAll (hg : g.Coherent) (fit : ∀ x ∈ xs, x.Fits g) (hk : k ∈ g.roster) :
    (g.insertAll xs).factsOf k =
      g.factsOf k ++ (xs.filter fun x => x.component = k).map Demand.facts := by
  induction xs generalizing g with
  | nil => simp [insertAll]
  | cons x xs ih =>
    have here := fit x List.mem_cons_self
    have first := follows_insertDemand hg here
    have rest := ih first.coherent (fits_tail hg fit) (first.roster ▸ hk)
    rw [insertAll, List.foldl_cons]
    refine rest.trans ?_
    rw [factsOf_insertDemand hg here hk, List.append_assoc, List.filter_cons]
    by_cases same : k = x.component
    · simp [same]
    · simp [same, Ne.symm same]

theorem lastId_insertAll (g : Graph) (xs : List Demand) :
    (g.insertAll xs).lastId = g.lastId + xs.length := by
  induction xs generalizing g with
  | nil => rfl
  | cons x xs ih =>
    refine (ih (g.insertDemand x)).trans ?_
    rw [insertDemand, lastId_insertPort, List.length_cons]
    omega

theorem portRoster_insertAll (g : Graph) (xs : List Demand) :
    (g.insertAll xs).portRoster.length = g.portRoster.length + xs.length := by
  induction xs generalizing g with
  | nil => rfl
  | cons x xs ih =>
    refine (ih (g.insertDemand x)).trans ?_
    rw [insertDemand, portRoster_insertPort, List.length_append, List.length_singleton,
      List.length_cons]
    omega

theorem demands_fit (hg : g.Coherent) (ord : g.Ordinary) : ∀ x ∈ g.demands, x.Fits g := by
  intro x hx
  have inside := (ord.canPass hg).demands_inside hg x hx
  obtain ⟨d, r, a, b, crumb, links, crossing, rfl⟩ := (mem_demands hg ord).mp hx
  have receiver := ord.identified b links.goal r links.receives
  refine ⟨inside, receiver, ?_, ?_, ?_⟩
  · exact Bool.eq_false_iff.mpr fun null => links.bound ((Value.isNull_iff receiver.1).mp null)
  · simp only [demandAt]
    split
    · exact ord.basename_written links.start links.drives
    · exact ord.basename_written links.goal links.receives
  · rfl

/-- A step that meets some demands answers with the number of ports that it adds. These are, in the
order of the demands, the first ones at each place where there was no port. -/
theorem Supplies.exists_selection {o : Outcome Graph Nat} (run : g.Supplies xs o) (hg : g.Coherent)
    (ord : g.Ordinary) (fit : ∀ x ∈ xs, x.Fits g) : ∃ added, o.answer = .ok added.length ∧
      o.state = g.insertAll added ∧ Selects g.Meets xs added := by
  obtain ⟨added, result, selects⟩ := Graph.exists_selection hg ord fit
  obtain ⟨n, answer, count⟩ := run.answer
  rw [result, lastId_insertAll] at count
  have same : n = added.length := by omega
  exact ⟨added, same ▸ answer, run.state.trans result, selects⟩

theorem addPassThroughs_eq (hg : g.Coherent) (ord : g.Ordinary) :
    ∃ added, (addPassThroughs g).answer = .ok added.length ∧
      (addPassThroughs g).state = g.insertAll added ∧ g.IsSupply g.demands added := by
  obtain ⟨added, answer, state, selects⟩ :=
    (addPassThroughs_supplies hg (ord.canPass hg)).exists_selection hg ord (demands_fit hg ord)
  exact ⟨added, answer, state, isSupply_of_selects selects⟩

theorem IsSupply.fits (supply : g.IsSupply xs added) (fit : ∀ x ∈ xs, x.Fits g) :
    ∀ y ∈ added, y.Fits g := fun y hy => fit y (supply.mem hy)

end Graph

end Schematic
