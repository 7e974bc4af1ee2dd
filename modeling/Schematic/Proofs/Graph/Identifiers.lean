import Schematic.Proofs.Graph.Growth

/-! The identifiers of a graph that additions made. Each addition takes the next number, so the
numbers up to the last one are all in use, and later components have greater ones. -/

namespace Schematic.Graph

variable {g : Graph}

/-- The identifiers are the numbers from one on, and those of the components are in order. -/
structure Consecutive (g : Graph) : Prop where
  used : g.usedIds.Perm (List.range' 1 g.lastId)
  increasing : (g.register.componentKeys.map Prod.fst).Pairwise (· < ·)

theorem consecutive_empty : Consecutive {} := ⟨.refl _, .nil⟩

namespace Consecutive

theorem used_next (hg : g.Consecutive) :
    ((g.lastId + 1) :: g.usedIds).Perm (List.range' 1 (g.lastId + 1)) := by
  have last : List.range' 1 (g.lastId + 1) = List.range' 1 g.lastId ++ [g.lastId + 1] := by
    rw [List.range'_1_concat, Nat.add_comm 1]
  rw [last]
  exact (hg.used.cons _).trans (List.perm_append_singleton _ _).symm

theorem insertPort (hg : g.Consecutive) (owner : ComponentKey) (facts : PortFacts) :
    (g.insertPort owner facts).2.Consecutive where
  used := by
    rw [usedIds, componentKeys_insertPort, portKeys_insertPort, lastId_insertPort, List.map_append,
      ← List.append_assoc]
    exact (List.perm_append_singleton _ _).trans hg.used_next
  increasing := hg.increasing

theorem insertComponent (hg : g.Consecutive) (name basename typeName : Value)
    (parent : Option ComponentKey) :
    (g.insertComponent name basename typeName parent).2.Consecutive where
  used := by
    rw [usedIds, componentKeys_insertComponent, portKeys_insertComponent, lastId_insertComponent,
      List.map_append, List.append_assoc]
    exact List.perm_middle.trans hg.used_next
  increasing := by
    have bounded : ∀ n ∈ g.register.componentKeys.map Prod.fst, n < g.lastId + 1 := by
      intro n hn
      have used : n ∈ g.usedIds := List.mem_append_left _ hn
      have small := List.mem_range'_1.mp (hg.used.mem_iff.mp used)
      omega
    rw [componentKeys_insertComponent, List.map_append, List.pairwise_append]
    refine ⟨hg.increasing, List.pairwise_singleton _ _, fun n hn m hm => ?_⟩
    cases List.mem_singleton.mp hm
    exact bounded n hn

end Consecutive

theorem IsBuilt.consecutive (hg : g.IsBuilt) : g.Consecutive := by
  induction hg with
  | empty => exact consecutive_empty
  | component name basename typeName _ _ ih => exact ih.insertComponent name basename typeName _
  | port facts _ _ ih => exact ih.insertPort _ facts

/-- The components and ports that the walk meets have the numbers from one to the last one. -/
theorem IsBuilt.ids_perm (hg : g.IsBuilt) :
    (g.components.map (fun k => Value.int (g.component k).id) ++
      g.ports.map fun q => (g.port q).id).Perm
        ((List.range' 1 g.lastId).map fun n : Nat => Value.int n) := by
  have cohered := hg.coherent
  have met := (cohered.components_perm.map fun k => Value.int (g.component k).id).append
    (cohered.ports_perm.map fun q => (g.port q).id)
  rw [cohered.ids_eq] at met
  exact met.trans (hg.consecutive.used.map _)

theorem IsBuilt.count_ids (hg : g.IsBuilt) : g.components.length + g.ports.length = g.lastId := by
  have counted := hg.ids_perm.length_eq
  simpa using counted

/-- If the walk meets the components in the order of their addition, their identifiers increase
along it. -/
theorem IsBuilt.ids_increasing (hg : g.IsBuilt) (order : g.components = g.roster) :
    (g.components.map fun k => (g.component k).id).Pairwise (· < ·) := by
  rw [order, ← hg.coherent.roster_ids]
  exact hg.consecutive.increasing

end Schematic.Graph
