import Schematic.Proofs.Workspace.Isolation

/-! What holds of every graph, whatever is asked of it and of other graphs: its tables, its records
and its containment relation describe one tree, in which every identifier, component and port has
one place. -/

namespace Schematic

namespace Graph

/-- The tables, records and containment relation of a graph in agreement. The roster lists the
components in the table of identifiers, the port roster the ports. -/
structure Arranged (g : Graph) : Prop where
  ids_nodup : ((g.roster.map fun k => Value.int (g.component k).id) ++
    g.portRoster.map fun q => (g.port q).id).Nodup
  component_id : ∀ k ∈ g.roster, (g.component k).id ≤ g.lastId
  port_id : ∀ q ∈ g.portRoster, ∃ n ≤ g.lastId, (g.port q).id = .int (n : Nat)
  component_found : ∀ k ∈ g.roster, g.getComponent (.int (g.component k).id) = .ok k
  port_found : ∀ q ∈ g.portRoster, g.getPort (g.port q).id = .ok q
  root_iff : (∃ r, g.register.root = some r) ↔ g.roster ≠ []
  root_alone : ∀ r, g.register.root = some r → r ∈ g.roster ∧ (g.component r).parentId = .null ∧
    ∀ m ∈ g.roster, r ∉ g.childrenOf m
  listed_once : ∀ k ∈ g.roster, g.register.root ≠ some k → ∃ p ∈ g.roster,
    (g.component k).parentId = .int (g.component p).id ∧
      ∀ m ∈ g.roster, (g.childrenOf m).count k = if m = p then 1 else 0
  children_known : ∀ m ∈ g.roster, ∀ c ∈ g.childrenOf m, c ∈ g.roster
  port_listed_once : ∀ q ∈ g.portRoster, ∃ k ∈ g.roster,
    (g.port q).ownerId = .int (g.component k).id ∧ g.owner q = .ok k ∧
      ∀ m ∈ g.roster, (g.portsOf m).count q = if m = k then 1 else 0
  ports_known : ∀ m ∈ g.roster, ∀ q ∈ g.portsOf m, q ∈ g.portRoster
  nodes : g.register.containment.nodes = g.roster.map fun k => (g.component k).id
  links : ∀ a b, (a, b) ∈ g.register.containment.links ↔
    ∃ p ∈ g.roster, ∃ c ∈ g.childrenOf p, (g.component p).id = a ∧ (g.component c).id = b
  links_nodup : g.register.containment.links.Nodup
  isTree_iff : g.isTree = true ↔ g.roster ≠ []
  walk_once : g.components.Perm g.roster
  walk_order : ∀ k ∈ g.roster, (k :: g.childrenOf k).Sublist g.components

variable {g : Graph} {k m p : ComponentKey} {q : PortKey}

theorem count_of_nodup {α : Type} [DecidableEq α] {l : List α} {a : α} (single : l.Nodup) {b : Bool}
    (here : a ∈ l ↔ b = true) : l.count a = if b then 1 else 0 := by
  cases b with
  | true => exact List.count_eq_one_of_mem single (here.mpr rfl)
  | false =>
    apply List.count_eq_zero_of_not_mem
    intro listed
    cases here.mp listed

namespace Coherent

theorem count_children (hg : g.Coherent) (step : g.IsParent p k) (hm : m ∈ g.roster) :
    (g.childrenOf m).count k = if m = p then 1 else 0 := by
  have listed : k ∈ g.childrenOf m ↔ decide (m = p) = true := by
    rw [decide_eq_true_iff]
    constructor
    · intro here
      exact hg.parent_unique ⟨hm, here⟩ step
    · rintro rfl
      exact step.2
  simpa using count_of_nodup (hg.children_nodup hm) listed

theorem count_ports (hg : g.Coherent) (hk : k ∈ g.roster) (hq : q ∈ g.portsOf k)
    (hm : m ∈ g.roster) : (g.portsOf m).count q = if m = k then 1 else 0 := by
  have listed : q ∈ g.portsOf m ↔ decide (m = k) = true := by
    rw [decide_eq_true_iff]
    constructor
    · intro here
      exact hg.owner_unique hm hk here hq
    · rintro rfl
      exact hq
  simpa using count_of_nodup (hg.ports_nodup hm) listed

theorem getComponent_id (hg : g.Coherent) (hk : k ∈ g.roster) :
    g.getComponent (.int (g.component k).id) = .ok k := by
  have known := hg.lookup_id hk
  simp [getComponent, tableEntry?, Value.isHashable, idOf?, bind, Except.bind, known]

theorem getPort_id (hg : g.Coherent) (hq : q ∈ g.portRoster) : g.getPort (g.port q).id = .ok q := by
  obtain ⟨n, entry⟩ := mem_portRoster.mp hq
  have ids := (List.nodup_append.mp hg.distinct).2.1
  have found : (g.register.portKeys.lookup n).isSome := by
    rw [List.lookup_isSome_iff]
    exact ⟨_, entry, by simp⟩
  obtain ⟨l, hl⟩ := Option.isSome_iff_exists.mp found
  have same := congrArg Prod.snd (List.inj_on_of_nodup_map ids (mem_of_lookup hl) entry rfl)
  dsimp only at same
  rw [same] at hl
  simp [getPort, tableEntry?, (hg.port_entry entry).2, Value.isHashable, idOf?, bind, Except.bind,
    hl]

theorem root_iff (hg : g.Coherent) : (∃ r, g.register.root = some r) ↔ g.roster ≠ [] := by
  constructor
  · rintro ⟨r, root⟩
    exact List.ne_nil_of_mem (hg.root_mem root)
  · intro some
    obtain ⟨k, hk⟩ := List.exists_mem_of_ne_nil _ some
    exact hg.exists_root hk

theorem isTree_iff (hg : g.Coherent) : g.isTree = true ↔ g.roster ≠ [] := by
  constructor
  · intro tree empty
    have none : g.register.componentKeys = [] := List.map_eq_nil_iff.mp empty
    simp [isTree, none] at tree
  · intro some
    obtain ⟨r, root⟩ := hg.root_iff.mpr some
    exact hg.isTree_eq root

theorem arranged (hg : g.Coherent) : g.Arranged where
  ids_nodup := by
    rw [hg.ids_eq]
    apply hg.distinct.map
    intro m n same
    exact Int.ofNat_inj.mp (Value.int.inj same)
  component_id := fun _ hk => hg.id_le hk
  port_id := by
    intro q hq
    obtain ⟨n, entry⟩ := mem_portRoster.mp hq
    have used : n ∈ g.usedIds := List.mem_append_right _ (List.mem_map_of_mem entry)
    exact ⟨n, hg.bounded n used, (hg.port_entry entry).2⟩
  component_found := fun _ hk => hg.getComponent_id hk
  port_found := fun _ hq => hg.getPort_id hq
  root_iff := hg.root_iff
  root_alone := fun r root => ⟨hg.root_mem root, hg.root_parent root,
    fun m hm listed => hg.not_parent_of_root root ⟨hm, listed⟩⟩
  listed_once := by
    intro k hk other
    obtain ⟨p, step⟩ := hg.exists_parent hk other
    exact ⟨p, step.1, (hg.child step.1 step.2).2.1, fun m hm => hg.count_children step hm⟩
  children_known := fun m hm c hc => hg.child_mem ⟨hm, hc⟩
  port_listed_once := by
    intro q hq
    obtain ⟨k, hk, listed⟩ := hg.port_listed hq
    exact ⟨k, hk, (hg.owned hk listed).2, hg.owner_eq hk listed,
      fun m hm => hg.count_ports hk listed hm⟩
  ports_known := fun m hm q hq => (hg.owned hm hq).1
  nodes := hg.nodes.trans hg.roster_ids
  links := fun _ _ => hg.links
  links_nodup := by
    apply List.Nodup.of_map Prod.snd
    rw [hg.link_ends]
    exact hg.ids_nodup.tail
  isTree_iff := hg.isTree_iff
  walk_once := hg.components_perm
  walk_order := fun _ hk => hg.family_sublist hk

end Coherent

end Graph

namespace Workspace

structure Arranged (w : Workspace) : Prop where
  graph : ∀ i, (w.graph i).Arranged
  components : ∀ i j k, k ∈ (w.graph i).roster → k ∈ (w.graph j).roster → i = j
  ports : ∀ i j q, q ∈ (w.graph i).portRoster → q ∈ (w.graph j).portRoster → i = j

/-- After any requests to any number of graphs, refused ones included, every graph is in order. Of
the next request, one that suits is granted, and any other is refused and changes nothing. -/
theorem graphs_stay_arranged (requests : List Request) (next : Request) :
    let w := ({} : Workspace).after requests
    w.Arranged ∧
      (next.Suits w ∧ (next.perform.on w).answer = .ok () ∨
        ¬ next.Suits w ∧ (∃ e, (next.perform.on w).answer = .error e) ∧
          (next.perform.on w).state = w) := by
  intro w
  have apart : w.IsApart := IsApart.empty.after requests
  refine ⟨⟨?_, ?_, ?_⟩, (apart.perform next).2⟩
  · intro i
    exact (apart.coherent i).arranged
  · intro i j k
    exact apart.components
  · intro i j q
    exact apart.ports

-- a component of one graph, shown to another in which its identifier is taken as well
example : ((Request.add 1 (.component (.text "b") (.text "b") (.text "B") (some ⟨0⟩))).perform.on
    (({} : Workspace).after [.newGraph,
      .add 0 (.component (.text "a") (.text "a") (.text "A") none),
      .add 1 (.component (.text "c") (.text "c") (.text "C") none)])).answer.toOption = none := by
  decide +kernel

end Workspace

end Schematic
