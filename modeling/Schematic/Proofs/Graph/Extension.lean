import Schematic.Proofs.Graph.Attachment
import Schematic.Proofs.Graph.Nesting
import Schematic.Proofs.Graph.Registry
import Schematic.Proofs.Graph.Trail

/-! Graphs that differ in added ports only. They have one tree, and each component lists its old
ports before the new ones. -/

namespace Schematic.Graph

/-- A graph and the same one with more ports. -/
structure Extends (g h : Graph) : Prop where
  root : h.register.root = g.register.root
  componentKeys : h.register.componentKeys = g.register.componentKeys
  containment : h.register.containment = g.register.containment
  componentCount : h.arena.components.size = g.arena.components.size
  component : ∀ k, h.component k = { g.component k with ports := h.portsOf k }
  portsOf : ∀ k, g.portsOf k <+: h.portsOf k
  portCount : g.arena.ports.size ≤ h.arena.ports.size
  port : ∀ {q : PortKey}, q.index < g.arena.ports.size → h.port q = g.port q

def factsOf (g : Graph) (k : ComponentKey) : List PortFacts :=
  (g.portsOf k).map fun q => (g.port q).facts

/-- What an addition makes of some facts. An empty signal name is none. -/
def PortFacts.kept (facts : PortFacts) : PortFacts :=
  { facts with signal := facts.signal.orElse .null }

variable {g h i : Graph} {a b k m owner : ComponentKey} {q : PortKey} {facts : PortFacts}
  {goal : ComponentKey} {upwards : Bool} {trail : List Crumb}

namespace Extends

theorem refl (g : Graph) : g.Extends g where
  root := rfl
  componentKeys := rfl
  containment := rfl
  componentCount := rfl
  component := fun _ => rfl
  portsOf := fun _ => List.prefix_refl _
  portCount := Nat.le_refl _
  port := fun _ => rfl

theorem trans (gh : g.Extends h) (hi : h.Extends i) : g.Extends i where
  root := hi.root.trans gh.root
  componentKeys := hi.componentKeys.trans gh.componentKeys
  containment := hi.containment.trans gh.containment
  componentCount := hi.componentCount.trans gh.componentCount
  component := by
    intro k
    rw [hi.component, gh.component]
  portsOf := fun k => (gh.portsOf k).trans (hi.portsOf k)
  portCount := gh.portCount.trans hi.portCount
  port := fun hq => (hi.port (Nat.lt_of_lt_of_le hq gh.portCount)).trans (gh.port hq)

theorem insertPort (bound : owner.index < g.arena.components.size) (facts : PortFacts) :
    g.Extends (g.insertPort owner facts).2 where
  root := root_insertPort g owner facts
  componentKeys := componentKeys_insertPort g owner facts
  containment := containment_insertPort g owner facts
  componentCount := componentCount_insertPort g owner facts
  component := component_insertPort g owner facts
  portsOf := by
    intro k
    rw [portsOf_insertPort bound]
    split
    · next same => exact same ▸ List.prefix_append _ _
    · exact List.prefix_refl _
  portCount := by
    rw [portCount_insertPort]
    exact Nat.le_succ _
  port := port_insertPort_of_lt g owner facts

theorem roster (e : g.Extends h) : h.roster = g.roster := by
  rw [Graph.roster, e.componentKeys, Graph.roster]

theorem childrenOf (e : g.Extends h) (k : ComponentKey) : h.childrenOf k = g.childrenOf k := by
  rw [Graph.childrenOf, e.component k, Graph.childrenOf]

theorem isParent (e : g.Extends h) : h.IsParent = g.IsParent := by
  funext p c
  rw [IsParent, e.roster, e.childrenOf, IsParent]

theorem encloses (e : g.Extends h) : h.Encloses = g.Encloses := by
  rw [Encloses, e.isParent, Encloses]

theorem route_iff (e : g.Extends h) :
    h.Route goal k upwards trail ↔ g.Route goal k upwards trail := by
  constructor
  · intro route
    induction route with
    | here => exact .here
    | down step below _ ih => exact .down (e.isParent ▸ step) (e.encloses ▸ below) ih
    | up step apart _ ih => exact .up (e.isParent ▸ step) (e.encloses ▸ apart) ih
  · intro route
    induction route with
    | here => exact .here
    | down step below _ ih => exact .down (e.isParent ▸ step) (e.encloses ▸ below) ih
    | up step apart _ ih => exact .up (e.isParent ▸ step) (e.encloses ▸ apart) ih

theorem trail_eq (e : g.Extends h) (hg : g.Coherent) (hh : h.Coherent) (ha : a ∈ g.roster)
    (hb : b ∈ g.roster) : h.trail a b = g.trail a b := by
  obtain ⟨trail, found, route⟩ := hg.trail_eq ha hb
  obtain ⟨trail', found', route'⟩ := hh.trail_eq (e.roster ▸ ha) (e.roster ▸ hb)
  rw [found, found', hg.route_unique route (e.route_iff.mp route')]

theorem owner_eq (e : g.Extends h) (hg : g.Coherent) (hh : h.Coherent) (hk : k ∈ g.roster)
    (hq : q ∈ g.portsOf k) : h.owner q = g.owner q := by
  rw [hg.owner_eq hk hq, hh.owner_eq (e.roster ▸ hk) ((e.portsOf k).subset hq)]

theorem outlineTo (e : g.Extends h) (n : Nat) (k : ComponentKey) :
    h.outlineTo n k = g.outlineTo n k := by
  induction n generalizing k with
  | zero => rfl
  | succ n ih =>
    rw [Graph.outlineTo, Graph.outlineTo, e.childrenOf]
    exact congrArg _ (List.map_congr_left fun c _ => ih c)

theorem components (e : g.Extends h) : h.components = g.components := by
  have same : h.outlineOf = g.outlineOf := by
    funext k
    rw [outlineOf, e.componentCount, e.outlineTo, outlineOf]
  rw [Graph.components, outline, e.root, same, Graph.components, outline]

end Extends

theorem factsOf_insertPort (hg : g.Coherent) (ho : owner ∈ g.roster) (hk : k ∈ g.roster) :
    (g.insertPort owner facts).2.factsOf k =
      g.factsOf k ++ if k = owner then [facts.kept] else [] := by
  have old : (g.portsOf k).map (fun q => ((g.insertPort owner facts).2.port q).facts) =
      g.factsOf k := by
    refine List.map_congr_left fun q hq => ?_
    rw [port_insertPort_of_lt g owner facts (hg.port_index_lt (hg.owned hk hq).1)]
  rw [factsOf, portsOf_insertPort (hg.index_lt ho)]
  split
  · next same =>
    subst same
    rw [List.map_append, old, List.map_singleton, port_insertPort_new]
    rfl
  · rw [old, List.append_nil]

theorem mem_factsOf_insertPort (hg : g.Coherent) (ho : owner ∈ g.roster) {f : PortFacts}
    (hk : k ∈ (g.insertPort owner facts).2.roster)
    (hf : f ∈ (g.insertPort owner facts).2.factsOf k) :
    k ∈ g.roster ∧ (f ∈ g.factsOf k ∨ f = facts.kept) := by
  rw [roster_insertPort] at hk
  rw [factsOf_insertPort hg ho hk] at hf
  refine ⟨hk, ?_⟩
  rcases List.mem_append.mp hf with old | new
  · exact .inl old
  · split at new
    · exact .inr (List.mem_singleton.mp new)
    · cases new

theorem owns_iff {μ : Meaning} :
    g.Owns k μ ↔ ∃ facts ∈ g.factsOf k, facts.identity.meaning = μ := by
  simp [Owns, factsOf, Port.facts]

theorem identified_iff :
    g.Identified ↔ ∀ k ∈ g.roster, ∀ f ∈ g.factsOf k, f.identity.IsIdentity := by
  simp [Identified, factsOf, Port.facts]

/-- The names in the graph can be written, and its ports are bound to proper identities. -/
structure Ordinary (g : Graph) : Prop where
  name : ∀ k ∈ g.roster, (g.component k).name.isWritable = true
  basename : ∀ k ∈ g.roster, ∀ f ∈ g.factsOf k, f.basename.isWritable = true
  identity : ∀ k ∈ g.roster, ∀ f ∈ g.factsOf k, f.identity.IsIdentity

def HasPortNames (g : Graph) : Prop :=
  ∀ k ∈ g.roster, ∀ f ∈ g.factsOf k, f.name.isWritable = true

namespace Ordinary

theorem identified (ord : g.Ordinary) : g.Identified := identified_iff.mpr ord.identity

theorem basename_written (ord : g.Ordinary) (hk : k ∈ g.roster) (hq : q ∈ g.portsOf k) :
    (g.port q).basename.isWritable = true :=
  ord.basename k hk (g.port q).facts (List.mem_map_of_mem hq)

theorem hashable (ord : g.Ordinary) (hg : g.Coherent) :
    ∀ q ∈ g.ports, (g.port q).identity.isHashable = true := by
  intro q hq
  obtain ⟨k, hk, listed⟩ := hg.mem_ports.mp hq
  exact (ord.identified k hk q listed).1

theorem insertPort (ord : g.Ordinary) (hg : g.Coherent) (ho : owner ∈ g.roster)
    (named : facts.basename.isWritable = true) (proper : facts.identity.IsIdentity) :
    (g.insertPort owner facts).2.Ordinary := by
  have e : g.Extends (g.insertPort owner facts).2 := .insertPort (hg.index_lt ho) facts
  constructor
  · intro k hk
    rw [e.roster] at hk
    rw [e.component]
    exact ord.name k hk
  · intro k hk f hf
    obtain ⟨hk, old | rfl⟩ := mem_factsOf_insertPort hg ho hk hf
    · exact ord.basename k hk f old
    · exact named
  · intro k hk f hf
    obtain ⟨hk, old | rfl⟩ := mem_factsOf_insertPort hg ho hk hf
    · exact ord.identity k hk f old
    · exact proper

end Ordinary

section Component

variable {name basename typeName : Value} {parent : Option ComponentKey}

theorem factsOf_insertComponent (hg : g.Coherent) (host : g.CanHost parent) (k : ComponentKey)
    (hk : k ∈ (g.insertComponent name basename typeName parent).2.roster) :
    (g.insertComponent name basename typeName parent).2.factsOf k =
      if k = g.freshComponent then [] else g.factsOf k := by
  rw [factsOf]
  split
  · next same => rw [same, portsOf_new host hg.toNumbered, List.map_nil]
  · next other =>
    have old := (mem_roster_insertComponent.mp hk).resolve_right other
    rw [portsOf_insertComponent hg.toNumbered old, factsOf]
    exact List.map_congr_left fun q _ => by rw [port_insertComponent]

theorem mem_factsOf_insertComponent (hg : g.Coherent) (host : g.CanHost parent) {f : PortFacts}
    (hk : k ∈ (g.insertComponent name basename typeName parent).2.roster)
    (hf : f ∈ (g.insertComponent name basename typeName parent).2.factsOf k) :
    k ∈ g.roster ∧ f ∈ g.factsOf k := by
  rw [factsOf_insertComponent hg host k hk] at hf
  split at hf
  · cases hf
  · next other => exact ⟨(mem_roster_insertComponent.mp hk).resolve_right other, hf⟩

theorem Ordinary.insertComponent (ord : g.Ordinary) (hg : g.Coherent) (host : g.CanHost parent)
    (named : name.isWritable = true) :
    (g.insertComponent name basename typeName parent).2.Ordinary := by
  constructor
  · intro k hk
    rcases mem_roster_insertComponent.mp hk with hk | rfl
    · rw [component_insertComponent hg.toNumbered hk]
      exact ord.name k hk
    · rw [component_new host hg.toNumbered]
      exact named
  · intro k hk f hf
    obtain ⟨old, known⟩ := mem_factsOf_insertComponent hg host hk hf
    exact ord.basename k old f known
  · intro k hk f hf
    obtain ⟨old, known⟩ := mem_factsOf_insertComponent hg host hk hf
    exact ord.identity k old f known

end Component

theorem ordinary_empty : Ordinary {} := ⟨nofun, nofun, nofun⟩

end Schematic.Graph
