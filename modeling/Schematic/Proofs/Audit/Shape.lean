import Schematic.Audit.Checks
import Schematic.Proofs.Graph.Arborescence
import Schematic.Proofs.Graph.Wires

/-! Three of the four checks pass on every coherent graph that has a root: containment is a tree,
identifiers are unique, and no wire joins a port with itself. -/

namespace Schematic

theorem mapM_eq_ok {α β : Type} {f : α → Except Error β} {result : α → β} {xs : List α}
    (each : ∀ x ∈ xs, f x = .ok (result x)) : xs.mapM f = .ok (xs.map result) := by
  induction xs with
  | nil => rfl
  | cons x xs ih =>
    have rest := ih fun y hy => each y (List.mem_cons_of_mem _ hy)
    rw [List.mapM_cons, each x List.mem_cons_self, rest]
    rfl

theorem Value.same_int_iff {m n : Int} : (Value.int m).same (.int n) = true ↔ m = n := by
  rw [Value.same_iff rfl rfl]
  simp [Value.meaning, Worth.meaning, Dyadic.toRat, Dyadic.ofInt]

theorem Value.mem_of_mem_distinctKeys {v : Value} {vs : List Value}
    (h : v ∈ Value.distinctKeys vs) : v ∈ vs := by
  induction vs with
  | nil => cases h
  | cons w vs ih =>
    rcases List.mem_cons.mp h with rfl | later
    · exact List.mem_cons_self
    · exact List.mem_cons_of_mem _ (ih (List.mem_filter.mp later).1)

namespace Audit

variable {g : Graph} {k r : ComponentKey}

section Tree

theorem isRoot_iff (hg : g.Coherent) (root : g.register.root = some r) (hk : k ∈ g.roster) :
    (g.component k).isRoot = true ↔ k = r := by
  constructor
  · intro top
    by_contra other
    have below : g.register.root ≠ some k := fun same =>
      other (Option.some.inj (same.symm.trans root))
    obtain ⟨p, step⟩ := hg.exists_parent hk below
    rw [Component.isRoot, (hg.child step.1 step.2).2.1] at top
    cases top
  · rintro rfl
    rw [Component.isRoot, hg.root_parent root]
    rfl

theorem children_nodup (hg : g.Coherent) : (g.components.flatMap g.childrenOf).Nodup := by
  refine List.nodup_flatMap.mpr ⟨fun p hp => hg.children_nodup (hg.mem_components.mp hp), ?_⟩
  refine hg.components_nodup.imp_of_mem ?_
  intro p q hp hq other c left right
  exact other (hg.parent_unique ⟨hg.mem_components.mp hp, left⟩ ⟨hg.mem_components.mp hq, right⟩)

theorem timesListed_eq_one (hg : g.Coherent) (root : g.register.root = some r) (hk : k ∈ g.roster)
    (other : k ≠ r) : timesListed g g.components (g.component k).id = 1 := by
  have below : g.register.root ≠ some k := fun same =>
    other (Option.some.inj (same.symm.trans root))
  obtain ⟨p, step⟩ := hg.exists_parent hk below
  have listed : k ∈ g.components.flatMap g.childrenOf :=
    List.mem_flatMap.mpr ⟨p, hg.mem_components.mpr step.1, step.2⟩
  have once := List.count_eq_one_of_mem (children_nodup hg) listed
  rw [timesListed, ← once, List.count]
  refine List.countP_congr fun c hc => ?_
  obtain ⟨q, hq, hc⟩ := List.mem_flatMap.mp hc
  have known := hg.child_mem ⟨hg.mem_components.mp hq, hc⟩
  rw [beq_iff_eq, beq_iff_eq]
  exact ⟨hg.id_inj known hk, congrArg fun c => (g.component c).id⟩

theorem treeProblems_eq (hg : g.Coherent) (root : g.register.root = some r) :
    treeProblems g = .ok [] := by
  have top := hg.root_mem root
  have alone : g.components.filter (fun k => (g.component k).isRoot) = [r] := by
    refine List.perm_singleton.mp ((List.perm_ext_iff_of_nodup
      (hg.components_nodup.filter _) (List.nodup_singleton r)).mpr fun k => ?_)
    rw [List.mem_filter, hg.mem_components, List.mem_singleton]
    constructor
    · exact fun h => (isRoot_iff hg root h.1).mp h.2
    · rintro rfl
      exact ⟨top, (isRoot_iff hg root top).mpr rfl⟩
  have listed : g.components.mapM (listingProblem g g.components) =
      .ok (g.components.map fun _ => []) := by
    refine mapM_eq_ok fun k hk => ?_
    have known := hg.mem_components.mp hk
    by_cases here : k = r
    · have isRoot := (isRoot_iff hg root known).mpr here
      simp [listingProblem, isRoot, pure, Except.pure]
    · simp [listingProblem, timesListed_eq_one hg root known here, pure, Except.pure]
  simp [treeProblems, listed, alone, hg.isTree_eq root, bind, Except.bind, pure, Except.pure,
    List.map_const', List.flatten_replicate_nil]

theorem checkTree_eq (hg : g.Coherent) (root : g.register.root = some r) :
    checkTree g = .ok
      [{ severity := .pass, category := .text "tree", subject := (g.component r).name
         message := .text (toString g.components.length ++ " components form a tree") }] := by
  simp [checkTree, treeProblems_eq hg root, Graph.root, root, bind, Except.bind, pure, Except.pure]

end Tree

section Ids

theorem allIds_perm (hg : g.Coherent) :
    (allIds g).Perm (g.usedIds.map fun n => Value.int (n : Nat)) := by
  have components : (g.components.map fun k => Value.int (g.component k).id).Perm
      ((g.register.componentKeys.map Prod.fst).map fun n => Value.int (n : Nat)) := by
    have ids : (g.register.componentKeys.map Prod.fst).map (fun n => Value.int (n : Nat)) =
        g.roster.map fun k => Value.int (g.component k).id := by
      rw [Graph.roster, List.map_map, List.map_map]
      exact List.map_congr_left fun e he => by simp [(hg.entry he).2]
    rw [ids]
    refine ((List.perm_ext_iff_of_nodup hg.components_nodup hg.roster_nodup).mpr fun k => ?_).map _
    exact hg.mem_components
  have ports : (g.ports.map fun p => (g.port p).id).Perm
      ((g.register.portKeys.map Prod.fst).map fun n => Value.int (n : Nat)) := by
    have ids : (g.register.portKeys.map Prod.fst).map (fun n => Value.int (n : Nat)) =
        g.portRoster.map fun p => (g.port p).id := by
      rw [Graph.portRoster, List.map_map, List.map_map]
      exact List.map_congr_left fun e he => by simp [(hg.port_entry he).2]
    rw [ids]
    exact hg.ports_perm.map _
  rw [allIds, Graph.usedIds, List.map_append]
  exact components.append ports

theorem repeated_eq_nil {ids : List Value} {numbers : List Nat} (distinct : numbers.Nodup)
    (perm : ids.Perm (numbers.map fun n => Value.int (n : Nat))) : repeated ids = [] := by
  refine List.filter_eq_nil_iff.mpr fun v hv again => ?_
  have member := perm.mem_iff.mp (Value.mem_of_mem_distinctKeys hv)
  obtain ⟨n, -, rfl⟩ := List.mem_map.mp member
  have count : ids.countP (fun w => (Value.int (n : Nat)).same w) = numbers.count n := by
    rw [perm.countP_eq, List.countP_map, List.count]
    refine List.countP_congr fun m _ => ?_
    rw [Function.comp_apply, Value.same_int_iff, beq_iff_eq, Int.ofNat_inj]
    exact eq_comm
  have once := List.nodup_iff_count_le_one.mp distinct n
  rw [decide_eq_true_eq, count] at again
  omega

theorem checkIds_eq (hg : g.Coherent) (root : g.register.root = some r) :
    checkIds g = .ok
      [{ severity := .pass, category := .text "ids", subject := (g.component r).name
         message := .text
          (toString (Value.distinctKeys (allIds g)).length ++ " unique ids") }] := by
  have hashable : (allIds g).all Value.isHashable = true := by
    rw [List.all_eq_true]
    intro v hv
    obtain ⟨n, -, rfl⟩ := List.mem_map.mp ((allIds_perm hg).mem_iff.mp hv)
    rfl
  have single := repeated_eq_nil hg.distinct (allIds_perm hg)
  simp [checkIds, hashable, single, ordered, Graph.root, root, bind, Except.bind, pure,
    Except.pure]

end Ids

theorem checkWires_eq (hg : g.Coherent) : checkWires g = [] := by
  refine List.flatMap_eq_nil_iff.mpr fun k hk => ?_
  have known := hg.mem_components.mp hk
  have none : (g.wires k).filter (fun w => w.sourcePort == w.targetPort) = [] := by
    refine List.filter_eq_nil_iff.mpr fun w hw loop => ?_
    exact (hg.lies known hw).apart (beq_iff_eq.mp loop)
  simp [none]

end Audit

end Schematic
