import Schematic.Proofs.Graph.Way

/-! The search for a trail finds the way. It enters what is below a component at most once, so each
part of the tree is at any time untouched, or searched in full without the goal in it. -/

namespace Schematic.Graph

def unvisited (g : Graph) (visited : List Nat) : List ComponentKey :=
  g.roster.filter fun k => !visited.contains (g.component k).id

/-- A component such that the search was nowhere below it, or everywhere and in vain. -/
def Settled (g : Graph) (goal : ComponentKey) (visited : List Nat) (k : ComponentKey) : Prop :=
  (∀ m, g.Encloses k m → (g.component m).id ∉ visited) ∨
    (¬ g.Encloses k goal ∧ ∀ m, g.Encloses k m → (g.component m).id ∈ visited)

def SearchesBelow (g : Graph) (goal : ComponentKey) (visited : List Nat) (k : ComponentKey)
    (result : Except Error Found) : Prop :=
  (g.Encloses k goal → ∃ trail after, result = .ok (some trail, after) ∧
    g.Route goal k false trail) ∧
  (¬ g.Encloses k goal → ∃ after, result = .ok (none, after) ∧
    ∀ n, n ∈ after ↔ n ∈ visited ∨ ∃ m, g.Encloses k m ∧ (g.component m).id = n)

variable {g : Graph} {goal k c d p : ComponentKey} {visited after : List Nat}

theorem mem_unvisited : k ∈ g.unvisited visited ↔ k ∈ g.roster ∧ (g.component k).id ∉ visited := by
  simp [unvisited]

theorem unvisited_le (h : visited ⊆ after) :
    (g.unvisited after).length ≤ (g.unvisited visited).length := by
  rw [unvisited, unvisited, ← List.countP_eq_length_filter, ← List.countP_eq_length_filter]
  apply List.countP_mono_left
  intro k _ out
  simp only [Bool.not_eq_true', List.contains_eq_mem, decide_eq_false_iff_not] at out ⊢
  exact fun again => out (h again)

theorem unvisited_lt (hk : k ∈ g.roster) (new : (g.component k).id ∉ visited) :
    (g.unvisited ((g.component k).id :: visited)).length < (g.unvisited visited).length := by
  have shrink : g.unvisited ((g.component k).id :: visited) =
      (g.unvisited visited).filter fun m => (g.component m).id != (g.component k).id := by
    simp only [unvisited, List.filter_filter, List.contains_cons, Bool.not_or, bne]
  rw [shrink]
  refine List.length_filter_lt_length_iff_exists.mpr ⟨k, mem_unvisited.mpr ⟨hk, new⟩, ?_⟩
  simp

namespace Coherent

theorem resolve_id (hg : g.Coherent) (hk : k ∈ g.roster) :
    g.resolve (.int (g.component k).id) = .ok k := by
  have known := hg.lookup_id hk
  simp only [resolve, tableEntry?, Value.isHashable, idOf?, if_true, bind, Except.bind]
  simp [known]

theorem owner_eq (hg : g.Coherent) {q : PortKey} (hk : k ∈ g.roster) (hq : q ∈ g.portsOf k) :
    g.owner q = .ok k := by
  rw [owner, (hg.owned hk hq).2, hg.resolve_id hk]

theorem mem_predecessors_iff (hg : g.Coherent) (h : g.IsParent p k) {a : Nat} :
    a ∈ g.register.containment.predecessors (g.component k).id ↔ a = (g.component p).id := by
  rw [Containment.mem_predecessors, hg.links]
  constructor
  · rintro ⟨q, hq, c, hc, rfl, same⟩
    have step : g.IsParent q c := ⟨hq, hc⟩
    cases hg.id_inj (hg.child_mem step) (hg.child_mem h) same
    rw [hg.parent_unique step h]
  · rintro rfl
    exact ⟨p, h.1, k, h.2, rfl, rfl⟩

theorem parent_eq (hg : g.Coherent) (h : g.IsParent p k) : g.parent k = .ok (some p) := by
  have node : (g.component k).id ∈ g.register.containment.nodes := by
    rw [hg.nodes]
    exact List.mem_map_of_mem (hg.entry_of_mem (hg.child_mem h))
  have only := fun a => hg.mem_predecessors_iff h (a := a)
  cases found : g.register.containment.predecessors (g.component k).id with
  | nil =>
    have member := (only (g.component p).id).mpr rfl
    rw [found] at member
    cases member
  | cons a rest =>
    have first : a = (g.component p).id := (only a).mp (found ▸ List.mem_cons_self)
    subst first
    simp [parent, node, found, hg.resolve_id h.1, Except.map]

theorem siblings_apart (hg : g.Coherent) (hp : p ∈ g.roster) :
    (g.childrenOf p).Pairwise fun c d => ∀ m, g.Encloses c m → ¬ g.Encloses d m := by
  refine (hg.children_nodup hp).imp_of_mem ?_
  intro c d hc hd other m left right
  exact other (hg.child_unique ⟨hp, hc⟩ ⟨hp, hd⟩ left right)

theorem settled_of_apart (hg : g.Coherent) (hc : c ∈ g.roster) (hd : d ∈ g.roster)
    (apart : ∀ m, g.Encloses c m → ¬ g.Encloses d m) (settled : g.Settled goal visited d)
    (hafter : ∀ n, n ∈ after ↔ n ∈ visited ∨ ∃ m, g.Encloses c m ∧ (g.component m).id = n) :
    g.Settled goal after d := by
  rcases settled with untouched | ⟨vain, searched⟩
  · refine .inl fun m below again => ?_
    rcases (hafter _).mp again with old | ⟨l, other, same⟩
    · exact untouched m below old
    · have meet := hg.id_inj (hg.encloses_mem other hc) (hg.encloses_mem below hd) same
      exact apart m (meet ▸ other) below
  · exact .inr ⟨vain, fun m below => (hafter _).mpr (.inl (searched m below))⟩

theorem firstTrail_spec (hg : g.Coherent)
    {search : ComponentKey → List Nat → Except Error Found} {ks : List ComponentKey}
    (inside : ∀ c ∈ ks, c ∈ g.roster)
    (apart : ks.Pairwise fun c d => ∀ m, g.Encloses c m → ¬ g.Encloses d m)
    (settled : ∀ c ∈ ks, g.Settled goal visited c)
    (spec : ∀ c ∈ ks, ∀ seen, visited ⊆ seen → g.Settled goal seen c →
      g.SearchesBelow goal seen c (search c seen)) :
    (∀ c ∈ ks, g.Encloses c goal → ∃ trail after,
      firstTrail search ks visited = .ok (some trail, after) ∧ g.Route goal c false trail) ∧
    ((∀ c ∈ ks, ¬ g.Encloses c goal) → ∃ after, firstTrail search ks visited = .ok (none, after) ∧
      ∀ n, n ∈ after ↔
        n ∈ visited ∨ ∃ c ∈ ks, ∃ m, g.Encloses c m ∧ (g.component m).id = n) := by
  induction ks generalizing visited with
  | nil => exact ⟨nofun, fun _ => ⟨visited, rfl, by simp⟩⟩
  | cons x xs ih =>
    have here := List.mem_cons_self (a := x) (l := xs)
    have first := spec x here visited (List.Subset.refl _) (settled x here)
    have split := List.pairwise_cons.mp apart
    by_cases below : g.Encloses x goal
    · obtain ⟨trail, after, found, route⟩ := first.1 below
      have result : firstTrail search (x :: xs) visited = .ok (some trail, after) := by
        simp [firstTrail, found]
      refine ⟨fun c hc hgoal => ⟨trail, after, result, ?_⟩, fun vain => absurd below (vain x here)⟩
      rcases List.mem_cons.mp hc with rfl | hc
      · exact route
      · exact absurd hgoal (split.1 c hc goal below)
    · obtain ⟨after, found, hafter⟩ := first.2 below
      have result : firstTrail search (x :: xs) visited = firstTrail search xs after := by
        simp [firstTrail, found]
      have grown : visited ⊆ after := fun n hn => (hafter n).mpr (.inl hn)
      -- what lies apart from the searched component is as settled as before
      have rest := ih
        (fun c hc => inside c (List.mem_cons_of_mem _ hc)) split.2
        (fun c hc => hg.settled_of_apart (inside x here) (inside c (List.mem_cons_of_mem _ hc))
          (split.1 c hc) (settled c (List.mem_cons_of_mem _ hc)) hafter)
        (fun c hc seen hseen => spec c (List.mem_cons_of_mem _ hc) seen
          (List.Subset.trans grown hseen))
      rw [result]
      constructor
      · intro c hc hgoal
        rcases List.mem_cons.mp hc with rfl | hc
        · exact absurd hgoal below
        · exact rest.1 c hc hgoal
      · intro vain
        obtain ⟨last, hlast, hmem⟩ := rest.2 fun c hc => vain c (List.mem_cons_of_mem _ hc)
        refine ⟨last, hlast, fun n => ?_⟩
        rw [hmem, hafter, List.exists_mem_cons_iff, or_assoc]

theorem firstTrail_children (hg : g.Coherent) (hk : k ∈ g.roster) (goal : ComponentKey)
    (fuel : Nat) (settled : ∀ c ∈ g.childrenOf k, g.Settled goal visited c)
    (spec : ∀ c ∈ g.childrenOf k, ∀ seen, visited ⊆ seen → g.Settled goal seen c →
      g.SearchesBelow goal seen c (g.searchFrom goal fuel c false seen)) :
    (∀ c ∈ g.childrenOf k, g.Encloses c goal → ∃ trail after,
      firstTrail (fun c seen => g.searchFrom goal fuel c false seen) (g.childrenOf k) visited =
        .ok (some trail, after) ∧ g.Route goal c false trail) ∧
    ((∀ c ∈ g.childrenOf k, ¬ g.Encloses c goal) → ∃ after,
      firstTrail (fun c seen => g.searchFrom goal fuel c false seen) (g.childrenOf k) visited =
        .ok (none, after) ∧ ∀ n, n ∈ after ↔ n ∈ visited ∨
          ∃ c ∈ g.childrenOf k, ∃ m, g.Encloses c m ∧ (g.component m).id = n) :=
  hg.firstTrail_spec (fun _ hc => hg.child_mem ⟨hk, hc⟩) (hg.siblings_apart hk) settled spec

theorem exists_below_iff (hk : k ∈ g.roster) {P : ComponentKey → Prop} :
    (∃ m, g.Encloses k m ∧ P m) ↔ P k ∨ ∃ c ∈ g.childrenOf k, ∃ m, g.Encloses c m ∧ P m := by
  constructor
  · rintro ⟨m, below, holds⟩
    by_cases same : k = m
    · exact .inl (same ▸ holds)
    · obtain ⟨c, step, rest⟩ := below.by_child same
      exact .inr ⟨c, step.2, m, rest, holds⟩
  · rintro (holds | ⟨c, hc, m, below, holds⟩)
    · exact ⟨k, .refl k, holds⟩
    · exact ⟨m, (IsParent.encloses ⟨hk, hc⟩).trans below, holds⟩

theorem settled_child (hg : g.Coherent) (hk : k ∈ g.roster)
    (untouched : ∀ m, g.Encloses k m → (g.component m).id ∉ visited) (hc : c ∈ g.childrenOf k) :
    g.Settled goal ((g.component k).id :: visited) c := by
  have step : g.IsParent k c := ⟨hk, hc⟩
  refine .inl fun m below again => ?_
  rcases List.mem_cons.mp again with same | old
  · cases hg.id_inj (hg.encloses_mem below (hg.child_mem step)) hk same
    exact hg.not_encloses_parent step below
  · exact untouched m (step.encloses.trans below) old

theorem searchFrom_below (hg : g.Coherent) {fuel : Nat} (hk : k ∈ g.roster)
    (enough : (g.unvisited visited).length < fuel) (settled : g.Settled goal visited k) :
    g.SearchesBelow goal visited k (g.searchFrom goal fuel k false visited) := by
  induction fuel generalizing k visited with
  | zero => omega
  | succ fuel ih =>
    rcases settled with untouched | ⟨vain, searched⟩
    · have new := untouched k (.refl k)
      -- one component less is left to visit, so less fuel is enough below
      have room := unvisited_lt hk new
      by_cases same : k = goal
      · subst same
        refine ⟨fun _ => ⟨_, visited, by simp [searchFrom], .here⟩, ?_⟩
        exact fun apart => absurd (.refl k) apart
      · have below := hg.firstTrail_children hk goal fuel
          (fun c hc => hg.settled_child hk untouched hc)
          (fun c hc seen hseen hsettled => by
            have fewer := unvisited_le (g := g) hseen
            exact ih (hg.child_mem ⟨hk, hc⟩) (by omega) hsettled)
        constructor
        · intro inside
          obtain ⟨c, step, rest⟩ := inside.by_child same
          obtain ⟨trail, after, found, route⟩ := below.1 c step.2 rest
          refine ⟨⟨k, false⟩ :: trail, after, ?_, .down step rest route⟩
          simp [searchFrom, same, new, found]
        · intro outside
          obtain ⟨after, found, hafter⟩ := below.2 fun c hc inside =>
            outside ((IsParent.encloses ⟨hk, hc⟩).trans inside)
          refine ⟨after, by simp [searchFrom, same, new, found], fun n => ?_⟩
          rw [hafter, exists_below_iff hk, List.mem_cons]
          grind
    · refine ⟨fun inside => absurd inside vain, fun _ => ⟨visited, ?_, fun n => ?_⟩⟩
      · have old := searched k (.refl k)
        have other : k ≠ goal := fun same => vain (same ▸ .refl k)
        simp [searchFrom, old, other]
      · refine ⟨.inl, ?_⟩
        rintro (old | ⟨m, below, rfl⟩)
        · exact old
        · exact searched m below

/-- After a vain search at and below a component its siblings are untouched, and it is searched. -/
theorem settled_sibling (hg : g.Coherent) (step : g.IsParent p k) (vain : ¬ g.Encloses k goal)
    (all : ∀ n, n ∈ after ↔ ∃ m, g.Encloses k m ∧ (g.component m).id = n)
    (hc : c ∈ g.childrenOf p) : g.Settled goal ((g.component p).id :: after) c := by
  have hk := hg.child_mem step
  by_cases came : c = k
  · subst came
    exact .inr ⟨vain, fun m hm => List.mem_cons_of_mem _ ((all _).mpr ⟨m, hm, rfl⟩)⟩
  · have other : g.IsParent p c := ⟨step.1, hc⟩
    refine .inl fun m hm again => ?_
    have inside := hg.encloses_mem hm (hg.child_mem other)
    rcases List.mem_cons.mp again with same | old
    · cases hg.id_inj inside step.1 same
      exact hg.not_encloses_parent other hm
    · obtain ⟨l, hl, same⟩ := (all _).mp old
      cases hg.id_inj (hg.encloses_mem hl hk) inside same
      exact came (hg.child_unique other step hm hl)

/-- A search that may still go up finds every component of the graph. So far it was only below the
component it has come to, not at the component itself. -/
theorem searchFrom_above (hg : g.Coherent) {fuel : Nat} (hk : k ∈ g.roster)
    (hgoal : goal ∈ g.roster) (enough : (g.unvisited visited).length < fuel)
    (within : ∀ n ∈ visited, ∃ m, g.Encloses k m ∧ (g.component m).id = n)
    (new : (g.component k).id ∉ visited) (settled : ∀ c ∈ g.childrenOf k,
      g.Settled goal ((g.component k).id :: visited) c) :
    ∃ trail after, g.searchFrom goal fuel k true visited = .ok (some trail, after) ∧
      g.Route goal k true trail := by
  induction fuel generalizing k visited with
  | zero => omega
  | succ fuel ih =>
    by_cases same : k = goal
    · subst same
      exact ⟨_, visited, by simp [searchFrom], .here⟩
    · have room := unvisited_lt hk new
      have below := hg.firstTrail_children hk goal fuel settled
        (fun c hc seen hseen hsettled => by
          have fewer := unvisited_le (g := g) hseen
          exact hg.searchFrom_below (hg.child_mem ⟨hk, hc⟩) (by omega) hsettled)
      -- a goal that is not below can be above alone, and all that is below has been visited
      by_cases inside : g.Encloses k goal
      · obtain ⟨c, step, rest⟩ := inside.by_child same
        obtain ⟨trail, after, found, route⟩ := below.1 c step.2 rest
        refine ⟨⟨k, true⟩ :: trail, after, ?_, .down step rest route⟩
        simp [searchFrom, same, new, found]
      · obtain ⟨after, found, hafter⟩ := below.2 fun c hc h =>
          inside ((IsParent.encloses ⟨hk, hc⟩).trans h)
        have all : ∀ n, n ∈ after ↔ ∃ m, g.Encloses k m ∧ (g.component m).id = n := by
          intro n
          rw [hafter, exists_below_iff hk, List.mem_cons]
          constructor
          · rintro ((rfl | old) | deeper)
            · exact .inl rfl
            · exact (exists_below_iff hk).mp (within n old)
            · exact .inr deeper
          · rintro (rfl | deeper)
            · exact .inl (.inl rfl)
            · exact .inr deeper
        have top : g.register.root ≠ some k := fun h => inside (hg.root_encloses h hgoal)
        obtain ⟨p, step⟩ := hg.exists_parent hk top
        have fewer : (g.unvisited after).length < fuel := by
          have grown : (g.component k).id :: visited ⊆ after := fun n hn =>
            (hafter n).mpr (.inl hn)
          have shrunk := unvisited_le (g := g) grown
          omega
        have below_parent : ∀ n ∈ after, ∃ m, g.Encloses p m ∧ (g.component m).id = n := by
          intro n hn
          obtain ⟨m, hm, hid⟩ := (all n).mp hn
          exact ⟨m, step.encloses.trans hm, hid⟩
        have fresh : (g.component p).id ∉ after := by
          intro again
          obtain ⟨m, hm, hid⟩ := (all _).mp again
          cases hg.id_inj (hg.encloses_mem hm hk) step.1 hid
          exact hg.not_encloses_parent step hm
        obtain ⟨trail, last, above, route⟩ := ih step.1 fewer below_parent fresh
          fun c hc => hg.settled_sibling step inside all hc
        refine ⟨⟨k, true⟩ :: trail, last, ?_, .up step inside route⟩
        simp [searchFrom, same, new, found, hg.parent_eq step, above]

/-- Between two components of the graph there is a trail, and it is the way. -/
theorem trail_eq (hg : g.Coherent) {a b : ComponentKey} (ha : a ∈ g.roster) (hb : b ∈ g.roster) :
    ∃ trail, g.trail a b = .ok (some trail) ∧ g.Route b a true trail := by
  have enough : (g.unvisited []).length < g.arena.components.size + 2 := by
    have few : (g.unvisited []).length ≤ g.roster.length := List.length_filter_le _ _
    have bound := hg.roster_length_le
    omega
  obtain ⟨trail, after, found, route⟩ := hg.searchFrom_above ha hb enough nofun nofun
    fun c hc => hg.settled_child ha nofun hc
  exact ⟨trail, by simp [Graph.trail, found, Except.map], route⟩

end Coherent

end Schematic.Graph
