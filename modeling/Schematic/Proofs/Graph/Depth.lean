import Schematic.Proofs.Graph.Arborescence
import Schematic.Proofs.Graph.Preorder

/-! How deep a component lies, counted in steps from the root. The containment relation is asked for
it from below, where a tree leaves no choice: each layer of the search is one component. -/

namespace Schematic.Graph

inductive LiesAt (g : Graph) : ComponentKey → Nat → Prop
  | root {r : ComponentKey} : g.register.root = some r → LiesAt g r 0
  | child {p c : ComponentKey} {n : Nat} : g.IsParent p c → LiesAt g p n → LiesAt g c (n + 1)

def level (g : Graph) (k : ComponentKey) : Nat := (g.depth k).toOption.getD 0

variable {g : Graph} {a b k m p r : ComponentKey} {n : Nat}

namespace Coherent

theorem liesAt_mem (hg : g.Coherent) (h : g.LiesAt k n) : k ∈ g.roster := by
  cases h with
  | root top => exact hg.root_mem top
  | child step _ => exact hg.child_mem step

theorem exists_liesAt (hg : g.Coherent) (hk : k ∈ g.roster) : ∃ n, g.LiesAt k n := by
  obtain ⟨r, root⟩ := hg.exists_root hk
  have below := hg.root_encloses root hk
  clear hk
  induction below with
  | refl => exact ⟨0, .root root⟩
  | tail _ step ih =>
    obtain ⟨n, above⟩ := ih
    exact ⟨n + 1, .child step above⟩

theorem liesAt_younger (hg : g.Coherent) (root : g.register.root = some r) (h : g.LiesAt k n) :
    n + (g.younger k).length ≤ (g.younger r).length := by
  induction h with
  | root top =>
    cases root.symm.trans top
    omega
  | child step _ ih =>
    have fewer := hg.younger_lt step
    omega

theorem predecessors_eq (hg : g.Coherent) (h : g.IsParent p k) :
    g.register.containment.predecessors (g.component k).id = [(g.component p).id] := by
  have mem (a : Nat) := hg.mem_predecessors_iff h (a := a)
  have single := hg.length_predecessors_le (g.component k).id
  generalize g.register.containment.predecessors (g.component k).id = found at mem single
  match found with
  | [] => exact absurd ((mem _).mpr rfl) List.not_mem_nil
  | [x] => rw [(mem x).mp List.mem_cons_self]
  | x :: y :: rest =>
    simp only [List.length_cons] at single
    omega

theorem stepsTo_eq (hg : g.Coherent) (root : g.register.root = some r) (h : g.LiesAt k n)
    (rounds count : Nat) (seen : List Nat) (enough : n < rounds)
    (later : ∀ m ∈ seen, (g.component k).id ≤ m) :
    Containment.stepsTo g.register.containment.predecessors (g.component r).id rounds
      [(g.component k).id] seen count = some (count + n) := by
  induction h generalizing rounds count seen with
  | root top =>
    cases root.symm.trans top
    cases rounds with
    | zero => omega
    | succ rounds => simp [Containment.stepsTo]
  | @child p c n step above ih =>
    cases rounds with
    | zero => omega
    | succ rounds =>
      have other : (g.component r).id ≠ (g.component c).id := fun same => by
        cases hg.id_inj (hg.root_mem root) (hg.child_mem step) same
        exact hg.not_parent_of_root root step
      have up := hg.id_lt step
      have new : (g.component p).id ∉ seen := fun again => by
        have bound := later _ again
        omega
      have lower : ∀ m ∈ seen ++ [(g.component p).id], (g.component p).id ≤ m := by
        intro m hm
        rcases List.mem_append.mp hm with old | here
        · exact Nat.le_of_lt (Nat.lt_of_lt_of_le up (later m old))
        · exact Nat.le_of_eq (List.mem_singleton.mp here).symm
      have next := ih rounds (count + 1) (seen ++ [(g.component p).id]) (by omega) lower
      -- a component has one parent, so each layer of the search is a single node
      have layer : (([(g.component c).id].flatMap g.register.containment.predecessors).filter
          fun m => !seen.contains m).eraseDups = [(g.component p).id] := by
        rw [List.flatMap_singleton, hg.predecessors_eq step]
        simp [new, List.eraseDups_cons]
      rw [Containment.stepsTo, if_neg (by simpa using other)]
      dsimp only
      rw [layer, if_neg (by simp), next]
      congr 1
      omega

theorem depth_eq (hg : g.Coherent) (h : g.LiesAt k n) : g.depth k = .ok n := by
  have hk := hg.liesAt_mem h
  obtain ⟨r, root⟩ := hg.exists_root hk
  have enough : n < g.register.containment.nodes.length + 1 := by
    have bound := hg.liesAt_younger root h
    have few : (g.younger r).length ≤ g.roster.length := List.length_filter_le _ _
    rw [hg.nodes, List.length_map]
    rw [roster, List.length_map] at few
    omega
  have found := hg.stepsTo_eq root h _ 0 [(g.component k).id] enough
    fun m hm => Nat.le_of_eq (List.mem_singleton.mp hm).symm
  have top := hg.id_mem_nodes (hg.root_mem root)
  have bottom := hg.id_mem_nodes hk
  simp only [depth, Graph.root, root, bind, Except.bind, Containment.distance?]
  rw [if_pos ⟨by simpa using top, by simpa using bottom⟩, found, Nat.zero_add]

theorem depth_level (hg : g.Coherent) (hk : k ∈ g.roster) : g.depth k = .ok (g.level k) := by
  obtain ⟨n, h⟩ := hg.exists_liesAt hk
  rw [level, hg.depth_eq h]
  rfl

theorem level_parent (hg : g.Coherent) (h : g.IsParent p k) : g.level k = g.level p + 1 := by
  obtain ⟨n, above⟩ := hg.exists_liesAt h.1
  rw [level, hg.depth_eq (.child h above), level, hg.depth_eq above]
  rfl

theorem level_le (hg : g.Coherent) (h : g.Encloses a b) : g.level a ≤ g.level b := by
  induction h with
  | refl => exact Nat.le_refl _
  | tail _ step ih =>
    have next := hg.level_parent step
    omega

theorem level_lt (hg : g.Coherent) (h : g.Encloses a b) (other : a ≠ b) :
    g.level a < g.level b := by
  obtain ⟨p, step, above⟩ := h.by_parent other
  have next := hg.level_parent step
  have least := hg.level_le above
  omega

end Coherent

end Schematic.Graph
