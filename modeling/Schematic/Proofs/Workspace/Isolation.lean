import Schematic.Graph.Workspace
import Schematic.Proofs.Graph.Arborescence
import Schematic.Proofs.PassThrough.History

/-! Several graphs in one arena. Identifiers of different graphs overlap, but no record belongs to
two graphs, and a request to one of them touches the records of that one only. So every graph stays
coherent, whatever is asked of the others. -/

namespace Schematic

namespace Graph

/-- A graph with the same register and records, in an arena that may hold more. -/
structure Untouched (g h : Graph) : Prop where
  register : h.register = g.register
  component : ∀ k ∈ g.roster, h.component k = g.component k
  port : ∀ q ∈ g.portRoster, h.port q = g.port q
  componentCount : g.arena.components.size ≤ h.arena.components.size
  portCount : g.arena.ports.size ≤ h.arena.ports.size

/-- A graph in which only its own records changed, besides new ones. -/
structure Local (g h : Graph) : Prop where
  coherent : h.Coherent
  roster : ∀ k ∈ h.roster, k ∈ g.roster ∨ g.arena.components.size ≤ k.index
  portRoster : ∀ q ∈ h.portRoster, q ∈ g.portRoster ∨ g.arena.ports.size ≤ q.index
  component : ∀ k, k ∉ g.roster → k.index < g.arena.components.size → h.component k = g.component k
  port : ∀ q : PortKey, q.index < g.arena.ports.size → h.port q = g.port q
  componentCount : g.arena.components.size ≤ h.arena.components.size
  portCount : g.arena.ports.size ≤ h.arena.ports.size

variable {g h : Graph} {k owner : ComponentKey} {q : PortKey} {facts : PortFacts}
  {name basename typeName : Value} {parent : Option ComponentKey}

namespace Untouched

theorem roster (same : g.Untouched h) : h.roster = g.roster := by
  rw [Graph.roster, same.register, Graph.roster]

theorem portRoster (same : g.Untouched h) : h.portRoster = g.portRoster := by
  rw [Graph.portRoster, same.register, Graph.portRoster]

theorem childrenOf (same : g.Untouched h) (hk : k ∈ g.roster) : h.childrenOf k = g.childrenOf k :=
  congrArg Component.children (same.component k hk)

theorem portsOf (same : g.Untouched h) (hk : k ∈ g.roster) : h.portsOf k = g.portsOf k :=
  congrArg Component.ports (same.component k hk)

theorem numbered (same : g.Untouched h) (hg : g.Numbered) : h.Numbered where
  entry := by
    intro n k listed
    rw [same.register] at listed
    have old := hg.entry listed
    rw [same.component k (mem_roster.mpr ⟨n, listed⟩)]
    exact ⟨old.1.trans_le same.componentCount, old.2⟩
  port_entry := by
    intro n q listed
    rw [same.register] at listed
    have old := hg.port_entry listed
    rw [same.port q (mem_portRoster.mpr ⟨n, listed⟩)]
    exact ⟨old.1.trans_le same.portCount, old.2⟩
  distinct := by
    rw [usedIds, same.register]
    exact hg.distinct
  bounded := by
    rw [usedIds, lastId, same.register]
    exact hg.bounded

theorem nested (same : g.Untouched h) (hg : g.Nested) : h.Nested where
  root_first := by
    rw [same.roster, same.register]
    exact hg.root_first
  root_parent := by
    intro k root
    rw [same.register] at root
    rw [same.component k (hg.root_mem root)]
    exact hg.root_parent root
  listed := by
    intro k hk other
    rw [same.roster] at hk ⊢
    rw [same.register] at other
    obtain ⟨p, hp, listed⟩ := hg.listed hk other
    exact ⟨p, hp, same.childrenOf hp ▸ listed⟩
  child := by
    intro p c hp hc
    rw [same.roster] at hp ⊢
    rw [same.childrenOf hp] at hc
    have old := hg.child hp hc
    rw [same.component p hp, same.component c old.1]
    exact old
  children_nodup := by
    intro p hp
    rw [same.roster] at hp
    rw [same.childrenOf hp]
    exact hg.children_nodup hp

theorem attached (same : g.Untouched h) (hg : g.Attached) : h.Attached where
  port_listed := by
    intro q hq
    rw [same.portRoster] at hq
    obtain ⟨k, hk, listed⟩ := hg.port_listed hq
    exact ⟨k, same.roster ▸ hk, same.portsOf hk ▸ listed⟩
  owned := by
    intro k q hk hq
    rw [same.roster] at hk
    rw [same.portsOf hk] at hq
    have old := hg.owned hk hq
    rw [same.portRoster, same.component k hk, same.port q old.1]
    exact old
  ports_nodup := by
    intro k hk
    rw [same.roster] at hk
    rw [same.portsOf hk]
    exact hg.ports_nodup hk

theorem mirrored (same : g.Untouched h) (hg : g.Mirrored) (ht : g.Nested) : h.Mirrored where
  nodes := by
    rw [same.register]
    exact hg.nodes
  links := by
    intro a b
    rw [same.register, hg.links, same.roster]
    constructor
    · rintro ⟨p, hp, c, hc, rfl, rfl⟩
      exact ⟨p, hp, c, same.childrenOf hp ▸ hc, by rw [same.component p hp],
        by rw [same.component c (ht.child hp hc).1]⟩
    · rintro ⟨p, hp, c, hc, rfl, rfl⟩
      rw [same.childrenOf hp] at hc
      exact ⟨p, hp, c, hc, by rw [same.component p hp],
        by rw [same.component c (ht.child hp hc).1]⟩
  link_ends := by
    rw [same.register]
    exact hg.link_ends

theorem coherent (same : g.Untouched h) (hg : g.Coherent) : h.Coherent where
  toNumbered := same.numbered hg.toNumbered
  toNested := same.nested hg.toNested
  toAttached := same.attached hg.toAttached
  toMirrored := same.mirrored hg.toMirrored hg.toNested

end Untouched

namespace Local

theorem takeId (hg : g.Coherent) : g.Local g.takeId.2 where
  coherent := { hg with bounded := fun n hn => Nat.le_succ_of_le (hg.bounded n hn) }
  roster := fun _ => .inl
  portRoster := fun _ => .inl
  component := fun _ _ _ => rfl
  port := fun _ _ => rfl
  componentCount := Nat.le_refl _
  portCount := Nat.le_refl _

theorem insertPort (hg : g.Coherent) (ho : owner ∈ g.roster) :
    g.Local (g.insertPort owner facts).2 where
  coherent := hg.insertPort ho
  roster := fun _ => .inl
  portRoster := by
    intro q hq
    rw [portRoster_insertPort, List.mem_append, List.mem_singleton] at hq
    rcases hq with old | rfl
    · exact .inl old
    · exact .inr (Nat.le_refl _)
  component := fun k hk _ =>
    component_insertPort_of_ne g owner facts fun same => hk (same ▸ ho)
  port := fun _ bound => port_insertPort_of_lt g owner facts bound
  componentCount := (componentCount_insertPort g owner facts).ge
  portCount := (Nat.le_succ _).trans (portCount_insertPort g owner facts).ge

theorem insertComponent (hg : g.Coherent) (host : g.CanHost parent) :
    g.Local (g.insertComponent name basename typeName parent).2 where
  coherent := hg.insertComponent host
  roster := by
    intro k hk
    rcases mem_roster_insertComponent.mp hk with old | rfl
    · exact .inl old
    · exact .inr (Nat.le_refl _)
  portRoster := by
    intro q hq
    rw [Graph.portRoster, portKeys_insertComponent] at hq
    exact .inl hq
  component := by
    intro k hk bound
    refine component_insertComponent_of_ne g name basename typeName parent bound ?_
    rintro rfl
    exact hk host
  port := fun q _ => port_insertComponent g name basename typeName parent q
  componentCount := (Nat.le_succ _).trans
    (componentCount_insertComponent g name basename typeName parent).ge
  portCount := (portCount_insertComponent g name basename typeName parent).ge

theorem done {a : Addition} (hg : g.Coherent) (suits : a.Suits g) : g.Local (a.done g) := by
  cases a with
  | component => exact insertComponent hg suits
  | port => exact insertPort hg suits

end Local

end Graph

/-- What a caller asks of several graphs. The keys may come from any of them. -/
inductive Request where
  | newGraph
  | add (graph : Nat) (a : Addition)
  | nextId (graph : Nat)

namespace Request

def perform : Request → Action Workspace Unit
  | newGraph => do
    let _ ← Workspace.newGraph
    pure ()
  | add i a => Workspace.onGraph i a.perform
  | nextId i => do
    let _ ← Workspace.onGraph i Graph.nextId
    pure ()

/-- A graph is only asked for a second root, or with a component that it does not have, in vain. -/
def Suits (w : Workspace) : Request → Prop
  | newGraph => True
  | add i a => a.Suits (w.graph i)
  | nextId _ => True

end Request

namespace Workspace

def after (w : Workspace) (requests : List Request) : Workspace :=
  requests.foldl (fun w r => (r.perform.on w).state) w

structure IsApart (w : Workspace) : Prop where
  coherent : ∀ i, (w.graph i).Coherent
  components : ∀ {i j k}, k ∈ (w.graph i).roster → k ∈ (w.graph j).roster → i = j
  ports : ∀ {i j q}, q ∈ (w.graph i).portRoster → q ∈ (w.graph j).portRoster → i = j

variable {w : Workspace} {i j : Nat} {g : Graph}

theorem put_graph (w : Workspace) (i : Nat) : put i (w.graph i) w = w := by
  have same : w.registers.setIfInBounds i (w.registers.getD i {}) = w.registers := by
    refine Array.ext (by simp) fun n _ bound => ?_
    rw [Array.getElem_setIfInBounds bound]
    split
    · next here =>
      subst here
      simp [bound]
    · rfl
  rw [put, graph, same]

theorem graph_put_same (bound : i < w.registers.size) : (put i g w).graph i = g := by
  simp [graph, put, bound]

theorem register_put (w : Workspace) (g : Graph) (other : j ≠ i ∨ w.registers.size ≤ i) :
    (put i g w).graph j = ⟨g.arena, (w.graph j).register⟩ := by
  have same : (w.registers.setIfInBounds i g.register).getD j {} = w.registers.getD j {} := by
    rcases other with apart | outside
    · simp [Array.getElem?_setIfInBounds_ne apart.symm]
    · rw [Array.setIfInBounds_eq_of_size_le outside]
  rw [graph, put, same]
  rfl

theorem register_of_size_le (outside : w.registers.size ≤ i) : (w.graph i).register = {} := by
  simp [graph, outside]

namespace IsApart

/-- An edit of one graph leaves the others as they are. -/
theorem untouched (hw : w.IsApart) (step : (w.graph i).Local g)
    (other : j ≠ i ∨ w.registers.size ≤ i) :
    (w.graph j).Untouched ⟨g.arena, (w.graph j).register⟩ where
  register := rfl
  component := by
    intro k hk
    refine step.component k (fun here => ?_) ((hw.coherent j).index_lt hk)
    rcases other with apart | outside
    · exact apart (hw.components hk here)
    · rw [Graph.roster, register_of_size_le outside] at here
      cases here
  port := fun q hq => step.port q ((hw.coherent j).port_index_lt hq)
  componentCount := step.componentCount
  portCount := step.portCount

/-- A graph after an edit is the edited one, or else untouched. -/
theorem graph_put (hw : w.IsApart) (step : (w.graph i).Local g) (j : Nat) :
    j = i ∧ (put i g w).graph j = g ∨ (w.graph j).Untouched ((put i g w).graph j) := by
  by_cases here : j = i ∧ i < w.registers.size
  · obtain ⟨rfl, bound⟩ := here
    exact .inl ⟨rfl, graph_put_same bound⟩
  · have other : j ≠ i ∨ w.registers.size ≤ i := by
      rw [not_and_or, Nat.not_lt] at here
      exact here
    rw [register_put w g other]
    exact .inr (hw.untouched step other)

theorem mem_roster_put (hw : w.IsApart) (step : (w.graph i).Local g) {k : ComponentKey}
    (hk : k ∈ ((put i g w).graph j).roster) :
    k ∈ (w.graph j).roster ∨ j = i ∧ w.arena.components.size ≤ k.index := by
  rcases hw.graph_put step j with ⟨rfl, edited⟩ | same
  · rw [edited] at hk
    exact (step.roster k hk).imp_right fun new => ⟨rfl, new⟩
  · exact .inl (same.roster ▸ hk)

theorem mem_portRoster_put (hw : w.IsApart) (step : (w.graph i).Local g) {q : PortKey}
    (hq : q ∈ ((put i g w).graph j).portRoster) :
    q ∈ (w.graph j).portRoster ∨ j = i ∧ w.arena.ports.size ≤ q.index := by
  rcases hw.graph_put step j with ⟨rfl, edited⟩ | same
  · rw [edited] at hq
    exact (step.portRoster q hq).imp_right fun new => ⟨rfl, new⟩
  · exact .inl (same.portRoster ▸ hq)

theorem put (hw : w.IsApart) (step : (w.graph i).Local g) : (put i g w).IsApart where
  coherent := by
    intro j
    rcases hw.graph_put step j with ⟨-, edited⟩ | same
    · rw [edited]
      exact step.coherent
    · exact same.coherent (hw.coherent j)
  components := by
    intro a b k ha hb
    have bound {c : Nat} (known : k ∈ (w.graph c).roster) : k.index < w.arena.components.size :=
      (hw.coherent c).index_lt known
    rcases hw.mem_roster_put step ha with old | ⟨rfl, new⟩
    · rcases hw.mem_roster_put step hb with old' | ⟨rfl, new'⟩
      · exact hw.components old old'
      · exact absurd (bound old) (Nat.not_lt.mpr new')
    · rcases hw.mem_roster_put step hb with old' | ⟨rfl, -⟩
      · exact absurd (bound old') (Nat.not_lt.mpr new)
      · rfl
  ports := by
    intro a b q ha hb
    have bound {c : Nat} (known : q ∈ (w.graph c).portRoster) : q.index < w.arena.ports.size :=
      (hw.coherent c).port_index_lt known
    rcases hw.mem_portRoster_put step ha with old | ⟨rfl, new⟩
    · rcases hw.mem_portRoster_put step hb with old' | ⟨rfl, new'⟩
      · exact hw.ports old old'
      · exact absurd (bound old) (Nat.not_lt.mpr new')
    · rcases hw.mem_portRoster_put step hb with old' | ⟨rfl, -⟩
      · exact absurd (bound old') (Nat.not_lt.mpr new)
      · rfl

theorem empty : ({} : Workspace).IsApart := by
  have blank (i : Nat) : ({} : Workspace).graph i = {} := by
    cases i <;> rfl
  refine ⟨fun i => blank i ▸ Graph.coherent_empty, fun {i _ _} hk => ?_, fun {i _ _} hq => ?_⟩
  · rw [blank i] at hk
    cases hk
  · rw [blank i] at hq
    cases hq

theorem newGraph (hw : w.IsApart) : (Workspace.newGraph.on w).state.IsApart := by
  have same (i : Nat) : (Workspace.newGraph.on w).state.graph i = w.graph i := by
    have register : (w.registers.push {}).getD i {} = w.registers.getD i {} := by
      simp only [Array.getD_eq_getD_getElem?, Array.getElem?_push]
      split
      · next last => simp [last]
      · rfl
    exact congrArg (Graph.mk w.arena) register
  constructor
  · intro i
    rw [same]
    exact hw.coherent i
  · intro i j k
    rw [same, same]
    exact hw.components
  · intro i j q
    rw [same, same]
    exact hw.ports

end IsApart

/-- A request that suits is granted, any other refused without a change. -/
theorem IsApart.perform (hw : w.IsApart) (r : Request) :
    (r.perform.on w).state.IsApart ∧
      (r.Suits w ∧ (r.perform.on w).answer = .ok () ∨
        ¬ r.Suits w ∧ (∃ e, (r.perform.on w).answer = .error e) ∧ (r.perform.on w).state = w) := by
  cases r with
  | newGraph => exact ⟨hw.newGraph, .inl ⟨trivial, rfl⟩⟩
  | add i a =>
    have answer : ((Request.add i a).perform.on w).answer = (a.perform.on (w.graph i)).answer := rfl
    have state : ((Request.add i a).perform.on w).state =
        Workspace.put i (a.perform.on (w.graph i)).state w := rfl
    have hg := hw.coherent i
    rw [answer, state]
    by_cases suits : a.Suits (w.graph i)
    · obtain ⟨log, granted⟩ := Graph.perform_granted hg suits
      rw [granted]
      exact ⟨hw.put (.done hg suits), .inl ⟨suits, rfl⟩⟩
    · obtain ⟨e, refused⟩ := Graph.perform_refused hg suits
      rw [refused, put_graph]
      exact ⟨hw, .inr ⟨suits, ⟨e, rfl⟩, rfl⟩⟩
  | nextId i => exact ⟨hw.put (.takeId (hw.coherent i)), .inl ⟨trivial, rfl⟩⟩

theorem IsApart.after (hw : w.IsApart) (requests : List Request) : (w.after requests).IsApart := by
  induction requests generalizing w with
  | nil => exact hw
  | cons r requests ih => exact ih (hw.perform r).1

end Workspace

end Schematic
