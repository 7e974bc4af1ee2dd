import Schematic.Proofs.Graph.Coherence

/-! Adding a component to a coherent graph leaves a coherent graph. The component is the youngest
one and the last child of its parent, or the root of a graph without components. -/

namespace Schematic.Graph

variable {g : Graph} {name basename typeName : Value} {parent : Option ComponentKey}

/-- Where a component can be added: below a component of the graph, or as the root of an empty
one. -/
def CanHost (g : Graph) : Option ComponentKey → Prop
  | none => g.register.root = none
  | some p => p ∈ g.roster

theorem roster_insertComponent : (g.insertComponent name basename typeName parent).2.roster =
    g.roster ++ [g.freshComponent] := by
  simp [roster]

theorem mem_roster_insertComponent {k : ComponentKey} :
    k ∈ (g.insertComponent name basename typeName parent).2.roster ↔
      k ∈ g.roster ∨ k = g.freshComponent := by
  rw [roster_insertComponent, List.mem_append, List.mem_singleton]

theorem CanHost.ne_fresh (host : g.CanHost parent) (hn : g.Numbered) :
    ∀ p, parent = some p → p ≠ g.freshComponent := by
  rintro p rfl
  exact hn.ne_fresh host

theorem component_new (host : g.CanHost parent) (hn : g.Numbered) :
    (g.insertComponent name basename typeName parent).2.component g.freshComponent =
      g.newComponent name basename typeName parent :=
  component_insertComponent_new g name basename typeName parent (host.ne_fresh hn)

theorem component_insertComponent (hn : g.Numbered) {k : ComponentKey} (hk : k ∈ g.roster) :
    (g.insertComponent name basename typeName parent).2.component k =
      { g.component k with
        children := g.childrenOf k ++ if parent = some k then [g.freshComponent] else [] } := by
  by_cases same : parent = some k
  · subst same
    rw [component_insertComponent_parent g name basename typeName (hn.index_lt hk), if_pos rfl]
  · rw [component_insertComponent_of_ne g name basename typeName parent (hn.index_lt hk) same,
      if_neg same, List.append_nil]
    rfl

theorem Numbered.insertComponent (hg : g.Numbered) (host : g.CanHost parent) :
    (g.insertComponent name basename typeName parent).2.Numbered where
  entry := by
    intro n k h
    rw [componentKeys_insertComponent, List.mem_append, List.mem_singleton] at h
    rw [componentCount_insertComponent]
    rcases h with h | h
    · have old := hg.entry h
      rw [component_insertComponent hg (mem_roster.mpr ⟨n, h⟩)]
      exact ⟨Nat.lt_succ_of_lt old.1, old.2⟩
    · cases h
      rw [component_new host hg]
      exact ⟨Nat.lt_succ_self _, rfl⟩
  port_entry := by
    intro n q h
    rw [portKeys_insertComponent] at h
    rw [portCount_insertComponent, port_insertComponent]
    exact hg.port_entry h
  distinct := by
    have moved : (g.insertComponent name basename typeName parent).2.usedIds.Perm
        ((g.lastId + 1) :: g.usedIds) := by
      simp only [usedIds, componentKeys_insertComponent, portKeys_insertComponent,
        List.map_append, List.map_cons, List.map_nil, List.append_assoc, List.singleton_append]
      exact List.perm_middle
    exact moved.nodup_iff.mpr (List.nodup_cons.mpr ⟨hg.next_not_used, hg.distinct⟩)
  bounded := by
    intro n h
    have split : n ∈ g.usedIds ∨ n = g.lastId + 1 := by
      simp only [usedIds, componentKeys_insertComponent, portKeys_insertComponent,
        List.map_append, List.mem_append, List.map_cons, List.map_nil, List.mem_singleton] at h ⊢
      grind
    rw [lastId_insertComponent]
    rcases split with h | h
    · exact Nat.le_succ_of_le (hg.bounded n h)
    · omega

theorem childrenOf_insertComponent (hn : g.Numbered) {k : ComponentKey} (hk : k ∈ g.roster) :
    (g.insertComponent name basename typeName parent).2.childrenOf k =
      g.childrenOf k ++ if parent = some k then [g.freshComponent] else [] := by
  rw [childrenOf, component_insertComponent hn hk]

theorem id_insertComponent (hn : g.Numbered) {k : ComponentKey} (hk : k ∈ g.roster) :
    ((g.insertComponent name basename typeName parent).2.component k).id =
      (g.component k).id := by
  rw [component_insertComponent hn hk]

theorem parentId_insertComponent (hn : g.Numbered) {k : ComponentKey} (hk : k ∈ g.roster) :
    ((g.insertComponent name basename typeName parent).2.component k).parentId =
      (g.component k).parentId := by
  rw [component_insertComponent hn hk]

theorem portsOf_insertComponent (hn : g.Numbered) {k : ComponentKey} (hk : k ∈ g.roster) :
    (g.insertComponent name basename typeName parent).2.portsOf k = g.portsOf k := by
  rw [portsOf, component_insertComponent hn hk, portsOf]

theorem childrenOf_new (host : g.CanHost parent) (hn : g.Numbered) :
    (g.insertComponent name basename typeName parent).2.childrenOf g.freshComponent = [] := by
  rw [childrenOf, component_new host hn]
  rfl

theorem portsOf_new (host : g.CanHost parent) (hn : g.Numbered) :
    (g.insertComponent name basename typeName parent).2.portsOf g.freshComponent = [] := by
  rw [portsOf, component_new host hn]
  rfl

theorem root_insertComponent :
    (g.insertComponent name basename typeName parent).2.register.root =
      if parent = none then some g.freshComponent else g.register.root := by
  cases parent <;> rfl

/-- The children are those that there were and the new component, below its parent. -/
theorem child_insertComponent (hn : g.Numbered) (host : g.CanHost parent) {p c : ComponentKey} :
    (p ∈ (g.insertComponent name basename typeName parent).2.roster ∧
        c ∈ (g.insertComponent name basename typeName parent).2.childrenOf p) ↔
      (p ∈ g.roster ∧ c ∈ g.childrenOf p) ∨ (parent = some p ∧ c = g.freshComponent) := by
  rw [mem_roster_insertComponent]
  constructor
  · rintro ⟨hp | rfl, hc⟩
    · rw [childrenOf_insertComponent hn hp, List.mem_append] at hc
      rcases hc with old | new
      · exact .inl ⟨hp, old⟩
      · split at new
        · next same => exact .inr ⟨same, List.mem_singleton.mp new⟩
        · cases new
    · rw [childrenOf_new host hn] at hc
      cases hc
  · rintro (⟨hp, hc⟩ | ⟨rfl, rfl⟩)
    · rw [childrenOf_insertComponent hn hp]
      exact ⟨.inl hp, List.mem_append_left _ hc⟩
    · rw [childrenOf_insertComponent hn host, if_pos rfl]
      exact ⟨.inl host, List.mem_append_right _ List.mem_cons_self⟩

theorem Nested.insertComponent (hg : g.Nested) (hn : g.Numbered) (host : g.CanHost parent) :
    (g.insertComponent name basename typeName parent).2.Nested where
  root_first := by
    rw [root_insertComponent, roster_insertComponent]
    cases parent with
    | none => simp [hg.roster_eq_nil host]
    | some p =>
      have nonempty : g.roster ≠ [] := List.ne_nil_of_mem host
      rw [if_neg (by simp), hg.root_first, List.head?_append_of_ne_nil _ nonempty]
  root_parent := by
    intro k h
    rw [root_insertComponent] at h
    cases parent with
    | none =>
      cases h
      rw [component_new host hn]
      rfl
    | some p =>
      rw [parentId_insertComponent hn (hg.root_mem h)]
      exact hg.root_parent h
  listed := by
    intro k hk hr
    rw [root_insertComponent] at hr
    cases parent with
    | none =>
      rcases mem_roster_insertComponent.mp hk with old | rfl
      · rw [hg.roster_eq_nil host] at old
        cases old
      · exact absurd rfl hr
    | some p =>
      rcases mem_roster_insertComponent.mp hk with old | rfl
      · obtain ⟨q, hq, listed⟩ := hg.listed old hr
        exact ⟨q, (child_insertComponent hn host).mpr (.inl ⟨hq, listed⟩)⟩
      · exact ⟨p, (child_insertComponent hn host).mpr (.inr ⟨rfl, rfl⟩)⟩
  child := by
    intro p c hp hc
    rcases (child_insertComponent hn host).mp ⟨hp, hc⟩ with ⟨hp, hc⟩ | ⟨rfl, rfl⟩
    · have old := hg.child hp hc
      rw [id_insertComponent hn hp, id_insertComponent hn old.1,
        parentId_insertComponent hn old.1]
      exact ⟨mem_roster_insertComponent.mpr (.inl old.1), old.2⟩
    · rw [id_insertComponent hn host, component_new host hn]
      exact ⟨mem_roster_insertComponent.mpr (.inr rfl), rfl, Nat.lt_succ_of_le (hn.id_le host)⟩
  children_nodup := by
    intro p hp
    rcases mem_roster_insertComponent.mp hp with hp | rfl
    · rw [childrenOf_insertComponent hn hp]
      have fresh : g.freshComponent ∉ g.childrenOf p := fun h =>
        hn.fresh_not_mem (hg.child hp h).1
      split
      · exact List.nodup_append_comm.mp (List.nodup_cons.mpr ⟨fresh, hg.children_nodup hp⟩)
      · rw [List.append_nil]
        exact hg.children_nodup hp
    · rw [childrenOf_new host hn]
      exact .nil

theorem Attached.insertComponent (hg : g.Attached) (hn : g.Numbered) (host : g.CanHost parent) :
    (g.insertComponent name basename typeName parent).2.Attached where
  port_listed := by
    intro q hq
    rw [portRoster, portKeys_insertComponent] at hq
    obtain ⟨k, hk, listed⟩ := hg.port_listed hq
    refine ⟨k, mem_roster_insertComponent.mpr (.inl hk), ?_⟩
    rwa [portsOf_insertComponent hn hk]
  owned := by
    intro k q hk hq
    rcases mem_roster_insertComponent.mp hk with hk | rfl
    · rw [portsOf_insertComponent hn hk] at hq
      rw [portRoster, portKeys_insertComponent, port_insertComponent,
        id_insertComponent hn hk]
      exact hg.owned hk hq
    · rw [portsOf_new host hn] at hq
      cases hq
  ports_nodup := by
    intro k hk
    rcases mem_roster_insertComponent.mp hk with hk | rfl
    · rw [portsOf_insertComponent hn hk]
      exact hg.ports_nodup hk
    · rw [portsOf_new host hn]
      exact .nil

theorem Mirrored.not_linked (hg : g.Mirrored) (hn : g.Numbered) (ht : g.Nested) (a : Nat) :
    (a, g.lastId + 1) ∉ g.register.containment.links := by
  intro h
  obtain ⟨p, hp, c, hc, -, hid⟩ := hg.links.mp h
  have bound := hn.id_le (ht.child hp hc).1
  omega

theorem containment_insertComponent (hg : g.Mirrored) (hn : g.Numbered) (ht : g.Nested)
    (host : g.CanHost parent) :
    (g.insertComponent name basename typeName parent).2.register.containment =
      { nodes := g.register.containment.nodes ++ [g.lastId + 1]
        links := g.register.containment.links ++ match parent with
          | some p => [((g.component p).id, g.lastId + 1)]
          | none => [] } := by
  have new : g.lastId + 1 ∉ g.register.containment.nodes := by
    rw [hg.nodes]
    exact fun h => hn.next_not_used (List.mem_append_left _ h)
  have nodes := Containment.nodes_addNode_of_not_mem new
  have links := Containment.links_addNode g.register.containment (g.lastId + 1)
  cases parent with
  | none =>
    refine (?_ : g.register.containment.addNode (g.lastId + 1) = _)
    rw [List.append_nil, ← nodes, ← links]
  | some p =>
    refine (?_ : (g.register.containment.addNode (g.lastId + 1)).link (g.component p).id
      (g.lastId + 1) = _)
    have parentNode : (g.component p).id ∈ g.register.containment.nodes := by
      rw [hg.nodes]
      exact List.mem_map_of_mem (hn.entry_of_mem host)
    rw [Containment.link_of_not_mem, nodes, links]
    · rw [nodes]
      exact List.mem_append_left _ parentNode
    · rw [nodes]
      exact List.mem_append_right _ List.mem_cons_self
    · rw [links]
      exact hg.not_linked hn ht _

theorem Mirrored.insertComponent (hg : g.Mirrored) (hn : g.Numbered) (ht : g.Nested)
    (host : g.CanHost parent) :
    (g.insertComponent name basename typeName parent).2.Mirrored where
  nodes := by
    rw [containment_insertComponent hg hn ht host, componentKeys_insertComponent, hg.nodes]
    simp
  links := by
    intro a b
    rw [containment_insertComponent hg hn ht host, List.mem_append, hg.links]
    constructor
    · rintro (⟨p, hp, c, hc, rfl, rfl⟩ | new)
      · obtain ⟨here, listed⟩ := (child_insertComponent hn host).mpr (.inl ⟨hp, hc⟩)
        exact ⟨p, here, c, listed, id_insertComponent hn hp,
          id_insertComponent hn (ht.child hp hc).1⟩
      · cases parent with
        | none => cases new
        | some p =>
          cases List.mem_singleton.mp new
          obtain ⟨here, listed⟩ := (child_insertComponent hn host).mpr (.inr ⟨rfl, rfl⟩)
          refine ⟨p, here, g.freshComponent, listed, id_insertComponent hn host, ?_⟩
          rw [component_new host hn]
          rfl
    · rintro ⟨p, hp, c, hc, rfl, rfl⟩
      rcases (child_insertComponent hn host).mp ⟨hp, hc⟩ with ⟨hp, hc⟩ | ⟨rfl, rfl⟩
      · exact .inl ⟨p, hp, c, hc, (id_insertComponent hn hp).symm,
          (id_insertComponent hn (ht.child hp hc).1).symm⟩
      · rw [id_insertComponent hn host, component_new host hn]
        exact .inr List.mem_cons_self
  link_ends := by
    rw [containment_insertComponent hg hn ht host, componentKeys_insertComponent]
    cases parent with
    | none =>
      have empty : g.register.componentKeys = [] := List.map_eq_nil_iff.mp (ht.roster_eq_nil host)
      have none := hg.link_ends
      simp only [empty, List.map_nil, List.tail_nil] at none
      simp [empty, none]
    | some p =>
      have nonempty : g.register.componentKeys.map Prod.fst ≠ [] :=
        List.ne_nil_of_mem (List.mem_map_of_mem (hn.entry_of_mem host))
      simp [hg.link_ends, List.tail_append_of_ne_nil nonempty]

/-- Adding a component below one of the graph, or as its root, keeps the tables in agreement. -/
theorem Coherent.insertComponent (hg : g.Coherent) (host : g.CanHost parent) :
    (g.insertComponent name basename typeName parent).2.Coherent where
  toNumbered := hg.toNumbered.insertComponent host
  toNested := hg.toNested.insertComponent hg.toNumbered host
  toAttached := hg.toAttached.insertComponent hg.toNumbered host
  toMirrored := hg.toMirrored.insertComponent hg.toNumbered hg.toNested host

end Schematic.Graph
