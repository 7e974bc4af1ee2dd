import Schematic.Proofs.Graph.Coherence

/-! Adding a port to a coherent graph leaves a coherent graph. Only the table of ports and the list
of its owner have one entry more. -/

namespace Schematic.Graph

variable {g : Graph} {owner : ComponentKey} {facts : PortFacts}

theorem childrenOf_insertPort (k : ComponentKey) :
    (g.insertPort owner facts).2.childrenOf k = g.childrenOf k := by
  rw [childrenOf, component_insertPort]
  rfl

theorem id_insertPort (k : ComponentKey) :
    ((g.insertPort owner facts).2.component k).id = (g.component k).id := by
  rw [component_insertPort]

theorem parentId_insertPort (k : ComponentKey) :
    ((g.insertPort owner facts).2.component k).parentId = (g.component k).parentId := by
  rw [component_insertPort]

theorem portsOf_insertPort (h : owner.index < g.arena.components.size) (k : ComponentKey) :
    (g.insertPort owner facts).2.portsOf k =
      if k = owner then g.portsOf owner ++ [g.freshPort] else g.portsOf k := by
  split
  · next same =>
    subst same
    rw [portsOf, component_insertPort_owner g k facts h]
  · next other => rw [portsOf, component_insertPort_of_ne g owner facts other, portsOf]

theorem portRoster_insertPort :
    (g.insertPort owner facts).2.portRoster = g.portRoster ++ [g.freshPort] := by
  simp [portRoster]

theorem usedIds_insertPort :
    (g.insertPort owner facts).2.usedIds = g.usedIds ++ [g.lastId + 1] := by
  simp [usedIds]

theorem Numbered.insertPort (hg : g.Numbered) : (g.insertPort owner facts).2.Numbered where
  entry := by
    intro n k h
    rw [componentCount_insertPort, id_insertPort]
    exact hg.entry h
  port_entry := by
    intro n q h
    rw [portKeys_insertPort, List.mem_append, List.mem_singleton] at h
    rw [portCount_insertPort]
    rcases h with h | h
    · have old := hg.port_entry h
      rw [port_insertPort_of_lt g owner facts old.1]
      exact ⟨Nat.lt_succ_of_lt old.1, old.2⟩
    · cases h
      rw [port_insertPort_new]
      exact ⟨Nat.lt_succ_self _, rfl⟩
  distinct := by
    rw [usedIds_insertPort]
    exact List.nodup_append_comm.mp (List.nodup_cons.mpr ⟨hg.next_not_used, hg.distinct⟩)
  bounded := by
    intro n h
    rw [usedIds_insertPort, List.mem_append, List.mem_singleton] at h
    rw [lastId_insertPort]
    rcases h with h | h
    · exact Nat.le_succ_of_le (hg.bounded n h)
    · omega

theorem Nested.insertPort (hg : g.Nested) : (g.insertPort owner facts).2.Nested where
  root_first := hg.root_first
  root_parent := by
    intro k h
    rw [parentId_insertPort]
    exact hg.root_parent h
  listed := by
    intro k hk hr
    obtain ⟨p, hp, listed⟩ := hg.listed hk hr
    exact ⟨p, hp, by rwa [childrenOf_insertPort]⟩
  child := by
    intro p c hp hc
    rw [childrenOf_insertPort] at hc
    rw [id_insertPort, id_insertPort, parentId_insertPort]
    exact hg.child hp hc
  children_nodup := by
    intro p hp
    rw [childrenOf_insertPort]
    exact hg.children_nodup hp

theorem Mirrored.insertPort (hg : g.Mirrored) : (g.insertPort owner facts).2.Mirrored where
  nodes := hg.nodes
  links := by
    intro a b
    simp only [childrenOf_insertPort, id_insertPort]
    exact hg.links
  link_ends := hg.link_ends

theorem Attached.insertPort (hg : g.Attached) (hn : g.Numbered) (ho : owner ∈ g.roster) :
    (g.insertPort owner facts).2.Attached where
  port_listed := by
    intro q hq
    rw [portRoster_insertPort, List.mem_append, List.mem_singleton] at hq
    rcases hq with hq | rfl
    · obtain ⟨k, hk, listed⟩ := hg.port_listed hq
      refine ⟨k, hk, ?_⟩
      rw [portsOf_insertPort (hn.index_lt ho)]
      split
      · next same => exact List.mem_append_left _ (same ▸ listed)
      · exact listed
    · refine ⟨owner, ho, ?_⟩
      rw [portsOf_insertPort (hn.index_lt ho), if_pos rfl]
      exact List.mem_append_right _ List.mem_cons_self
  owned := by
    intro k q hk hq
    rw [portRoster_insertPort, id_insertPort]
    rw [portsOf_insertPort (hn.index_lt ho)] at hq
    have old : q ∈ g.portsOf k → q ∈ g.portRoster ++ [g.freshPort] ∧
        ((g.insertPort owner facts).2.port q).ownerId = .int (g.component k).id := by
      intro h
      have owned := hg.owned hk h
      rw [port_insertPort_of_lt g owner facts (hn.port_index_lt owned.1)]
      exact ⟨List.mem_append_left _ owned.1, owned.2⟩
    split at hq
    · next same =>
      subst same
      rcases List.mem_append.mp hq with hq | hq
      · exact old hq
      · cases List.mem_singleton.mp hq
        rw [port_insertPort_new]
        exact ⟨List.mem_append_right _ List.mem_cons_self, rfl⟩
    · exact old hq
  ports_nodup := by
    intro k hk
    rw [portsOf_insertPort (hn.index_lt ho)]
    split
    · next same =>
      subst same
      have fresh : g.freshPort ∉ g.portsOf k := fun h =>
        hn.freshPort_not_mem (hg.owned hk h).1
      exact List.nodup_append_comm.mp (List.nodup_cons.mpr ⟨fresh, hg.ports_nodup hk⟩)
    · exact hg.ports_nodup hk

theorem Coherent.insertPort (hg : g.Coherent) (ho : owner ∈ g.roster) :
    (g.insertPort owner facts).2.Coherent where
  toNumbered := hg.toNumbered.insertPort
  toNested := hg.toNested.insertPort
  toAttached := hg.toAttached.insertPort hg.toNumbered ho
  toMirrored := hg.toMirrored.insertPort

end Schematic.Graph
