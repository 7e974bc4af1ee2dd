import Schematic.Proofs.Graph.Insertion
import Mathlib.Data.List.Nodup
import Mathlib.Data.List.Perm.Subperm

/-! The tables of a graph agree with its records. Containment is kept in four places: the lists of
children, the identifiers of parents, the containment relation, and the table of identifiers. A
coherent graph has the same tree in all of them, and every addition keeps it so. -/

namespace Schematic.Graph

/-- The identifiers that the graph gave out to its components and then to its ports. -/
def usedIds (g : Graph) : List Nat :=
  g.register.componentKeys.map Prod.fst ++ g.register.portKeys.map Prod.fst

/-- Each entry of a table leads to a record that carries its identifier. -/
structure Numbered (g : Graph) : Prop where
  entry : ∀ {n k}, (n, k) ∈ g.register.componentKeys →
    k.index < g.arena.components.size ∧ (g.component k).id = n
  port_entry : ∀ {n q}, (n, q) ∈ g.register.portKeys →
    q.index < g.arena.ports.size ∧ (g.port q).id = .int (n : Nat)
  distinct : g.usedIds.Nodup
  bounded : ∀ n ∈ g.usedIds, n ≤ g.lastId

/-- The lists of children make a tree below the first component. Children are younger than their
parents, so no chain of children comes back to its start. -/
structure Nested (g : Graph) : Prop where
  root_first : g.register.root = g.roster.head?
  root_parent : ∀ {k}, g.register.root = some k → (g.component k).parentId = .null
  listed : ∀ {k}, k ∈ g.roster → g.register.root ≠ some k → ∃ p ∈ g.roster, k ∈ g.childrenOf p
  child : ∀ {p c}, p ∈ g.roster → c ∈ g.childrenOf p → c ∈ g.roster ∧
    (g.component c).parentId = .int (g.component p).id ∧ (g.component p).id < (g.component c).id
  children_nodup : ∀ {p}, p ∈ g.roster → (g.childrenOf p).Nodup

/-- Every port is listed once, by its owner. -/
structure Attached (g : Graph) : Prop where
  port_listed : ∀ {q}, q ∈ g.portRoster → ∃ k ∈ g.roster, q ∈ g.portsOf k
  owned : ∀ {k q}, k ∈ g.roster → q ∈ g.portsOf k → q ∈ g.portRoster ∧
    (g.port q).ownerId = .int (g.component k).id
  ports_nodup : ∀ {k}, k ∈ g.roster → (g.portsOf k).Nodup

/-- The containment relation has the identifiers of the components as nodes, and a link from each
parent to each of its children. -/
structure Mirrored (g : Graph) : Prop where
  nodes : g.register.containment.nodes = g.register.componentKeys.map Prod.fst
  links : ∀ {a b}, (a, b) ∈ g.register.containment.links ↔
    ∃ p ∈ g.roster, ∃ c ∈ g.childrenOf p, (g.component p).id = a ∧ (g.component c).id = b
  link_ends : g.register.containment.links.map Prod.snd =
    (g.register.componentKeys.map Prod.fst).tail

/-- All tables of the graph say the same. -/
structure Coherent (g : Graph) : Prop extends Numbered g, Nested g, Attached g, Mirrored g

theorem coherent_empty : Coherent {} where
  entry := nofun
  port_entry := nofun
  distinct := .nil
  bounded := nofun
  root_first := rfl
  root_parent := nofun
  listed := nofun
  child := nofun
  children_nodup := nofun
  port_listed := nofun
  owned := nofun
  ports_nodup := nofun
  nodes := rfl
  links := by simp [roster]
  link_ends := rfl

variable {g : Graph}

theorem mem_roster {k : ComponentKey} :
    k ∈ g.roster ↔ ∃ n, (n, k) ∈ g.register.componentKeys := by
  simp [roster]

theorem mem_portRoster {q : PortKey} : q ∈ g.portRoster ↔ ∃ n, (n, q) ∈ g.register.portKeys := by
  simp [portRoster]

theorem mem_of_lookup {α : Type} {table : List (Nat × α)} {n : Nat} {a : α}
    (h : table.lookup n = some a) : (n, a) ∈ table := by
  obtain ⟨before, after, split, -⟩ := List.lookup_eq_some_iff.mp h
  rw [split]
  exact List.mem_append_right _ List.mem_cons_self

namespace Numbered

theorem entry_of_mem (hg : g.Numbered) {k : ComponentKey} (hk : k ∈ g.roster) :
    ((g.component k).id, k) ∈ g.register.componentKeys := by
  obtain ⟨n, hn⟩ := mem_roster.mp hk
  rwa [(hg.entry hn).2]

theorem index_lt (hg : g.Numbered) {k : ComponentKey} (hk : k ∈ g.roster) :
    k.index < g.arena.components.size :=
  (hg.entry (hg.entry_of_mem hk)).1

theorem port_index_lt (hg : g.Numbered) {q : PortKey} (hq : q ∈ g.portRoster) :
    q.index < g.arena.ports.size := by
  obtain ⟨n, hn⟩ := mem_portRoster.mp hq
  exact (hg.port_entry hn).1

theorem fresh_not_mem (hg : g.Numbered) : g.freshComponent ∉ g.roster :=
  fun h => Nat.lt_irrefl _ (hg.index_lt h)

theorem ne_fresh (hg : g.Numbered) {k : ComponentKey} (hk : k ∈ g.roster) :
    k ≠ g.freshComponent :=
  fun h => hg.fresh_not_mem (h ▸ hk)

theorem freshPort_not_mem (hg : g.Numbered) : g.freshPort ∉ g.portRoster :=
  fun h => Nat.lt_irrefl _ (hg.port_index_lt h)

theorem ids_nodup (hg : g.Numbered) : (g.register.componentKeys.map Prod.fst).Nodup :=
  (List.nodup_append.mp hg.distinct).1

theorem id_inj (hg : g.Numbered) {k l : ComponentKey} (hk : k ∈ g.roster) (hl : l ∈ g.roster)
    (same : (g.component k).id = (g.component l).id) : k = l := by
  have left := hg.entry_of_mem hk
  have right := hg.entry_of_mem hl
  exact congrArg Prod.snd (List.inj_on_of_nodup_map hg.ids_nodup left right same)

theorem lookup_id (hg : g.Numbered) {k : ComponentKey} (hk : k ∈ g.roster) :
    g.register.componentKeys.lookup (g.component k).id = some k := by
  have found : (g.register.componentKeys.lookup (g.component k).id).isSome := by
    rw [List.lookup_isSome_iff]
    exact ⟨_, hg.entry_of_mem hk, by simp⟩
  obtain ⟨l, hl⟩ := Option.isSome_iff_exists.mp found
  have same := List.inj_on_of_nodup_map hg.ids_nodup (mem_of_lookup hl) (hg.entry_of_mem hk) rfl
  rw [hl]
  exact congrArg some (congrArg Prod.snd same)

theorem registers_iff (hg : g.Numbered) {k : ComponentKey} :
    g.registers k = true ↔ k ∈ g.roster := by
  refine ⟨fun h => ?_, fun h => by simp [registers, hg.lookup_id h]⟩
  exact mem_roster.mpr ⟨_, mem_of_lookup (beq_iff_eq.mp h)⟩

theorem id_le (hg : g.Numbered) {k : ComponentKey} (hk : k ∈ g.roster) :
    (g.component k).id ≤ g.lastId := by
  apply hg.bounded
  exact List.mem_append_left _ (List.mem_map_of_mem (hg.entry_of_mem hk))

theorem roster_nodup (hg : g.Numbered) : g.roster.Nodup := by
  have ids : g.register.componentKeys.map Prod.fst = g.roster.map fun k => (g.component k).id := by
    rw [roster, List.map_map]
    exact List.map_congr_left fun e he => (hg.entry he).2.symm
  exact List.Nodup.of_map _ (ids ▸ hg.ids_nodup)

theorem portRoster_nodup (hg : g.Numbered) : g.portRoster.Nodup := by
  have ids := (List.nodup_append.mp hg.distinct).2.1
  refine List.Nodup.of_map (fun q => (g.port q).id) ?_
  have same : g.portRoster.map (fun q => (g.port q).id) =
      (g.register.portKeys.map Prod.fst).map fun n => Value.int (n : Nat) := by
    rw [portRoster, List.map_map, List.map_map]
    exact List.map_congr_left fun e he => (hg.port_entry he).2
  rw [same]
  exact ids.map fun m n equal => Int.ofNat_inj.mp (Value.int.inj equal)

theorem roster_length_le (hg : g.Numbered) : g.roster.length ≤ g.arena.components.size := by
  have distinct : (g.roster.map ComponentKey.index).Nodup :=
    hg.roster_nodup.map fun k l same => by cases k; cases l; exact congrArg _ same
  have bounded : g.roster.map ComponentKey.index ⊆ List.range g.arena.components.size := by
    intro n hn
    obtain ⟨k, hk, rfl⟩ := List.mem_map.mp hn
    exact List.mem_range.mpr (hg.index_lt hk)
  simpa using (List.subperm_of_subset distinct bounded).length_le

theorem next_not_used (hg : g.Numbered) : g.lastId + 1 ∉ g.usedIds := fun h =>
  Nat.not_succ_le_self _ (hg.bounded _ h)

theorem roster_ids (hg : g.Numbered) :
    g.register.componentKeys.map Prod.fst = g.roster.map fun k => (g.component k).id := by
  rw [roster, List.map_map]
  exact List.map_congr_left fun e he => (hg.entry he).2.symm

theorem portRoster_ids (hg : g.Numbered) :
    g.portRoster.map (fun q => (g.port q).id) =
      (g.register.portKeys.map Prod.fst).map fun n => Value.int (n : Nat) := by
  rw [portRoster, List.map_map, List.map_map]
  exact List.map_congr_left fun e he => (hg.port_entry he).2

theorem ids_eq (hg : g.Numbered) :
    (g.roster.map fun k => Value.int (g.component k).id) ++
      g.portRoster.map (fun q => (g.port q).id) = g.usedIds.map fun n => Value.int (n : Nat) := by
  rw [usedIds, List.map_append, hg.portRoster_ids, hg.roster_ids]
  simp only [List.map_map, Function.comp_def]

end Numbered

theorem Nested.roster_eq_nil (hg : g.Nested) (h : g.register.root = none) : g.roster = [] :=
  List.head?_eq_none_iff.mp (hg.root_first ▸ h)

theorem Nested.root_mem (hg : g.Nested) {k : ComponentKey} (h : g.register.root = some k) :
    k ∈ g.roster :=
  List.mem_of_head? (hg.root_first ▸ h)

end Schematic.Graph
