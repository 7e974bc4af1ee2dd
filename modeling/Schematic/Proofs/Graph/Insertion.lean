import Schematic.Graph.Basic

/-! What adding a component or a port changes in a graph. Records are only ever appended; the one
record that changes is that of the parent or owner, whose list gets one more entry. -/

namespace Schematic

namespace Containment

theorem addNode_of_mem {c : Containment} {n : Nat} (h : n ∈ c.nodes) : c.addNode n = c := by
  simp [addNode, h]

theorem nodes_addNode_of_not_mem {c : Containment} {n : Nat} (h : n ∉ c.nodes) :
    (c.addNode n).nodes = c.nodes ++ [n] := by
  simp [addNode, h]

theorem link_of_not_mem {c : Containment} {a b : Nat} (ha : a ∈ c.nodes) (hb : b ∈ c.nodes)
    (new : (a, b) ∉ c.links) : c.link a b = { c with links := c.links ++ [(a, b)] } := by
  simp [link, addNode_of_mem ha, addNode_of_mem hb, new]

end Containment

def Port.facts (p : Port) : Graph.PortFacts :=
  { name := p.name
    basename := p.basename
    direction := p.direction
    typeName := p.typeName
    identity := p.identity
    signal := p.signal
    synthesized := p.synthesized }

namespace Graph

def roster (g : Graph) : List ComponentKey := g.register.componentKeys.map Prod.snd

def portRoster (g : Graph) : List PortKey := g.register.portKeys.map Prod.snd

def freshComponent (g : Graph) : ComponentKey := ⟨g.arena.components.size⟩

def freshPort (g : Graph) : PortKey := ⟨g.arena.ports.size⟩

def newPort (g : Graph) (owner : ComponentKey) (facts : PortFacts) : Port :=
  { id := .int (g.lastId + 1 : Nat)
    name := facts.name
    basename := facts.basename
    direction := facts.direction
    typeName := facts.typeName
    ownerId := .int (g.component owner).id
    identity := facts.identity
    signal := facts.signal.orElse .null
    synthesized := facts.synthesized }

def newComponent (g : Graph) (name basename typeName : Value) (parent : Option ComponentKey) :
    Component :=
  { id := g.lastId + 1
    name, basename, typeName
    parentId := match parent with
      | some p => .int (g.component p).id
      | none => .null
    children := []
    ports := [] }

section Port

variable (g : Graph) (owner : ComponentKey) (facts : PortFacts)

@[simp] theorem insertPort_fst : (g.insertPort owner facts).1 = g.freshPort := rfl

@[simp] theorem lastId_insertPort : (g.insertPort owner facts).2.lastId = g.lastId + 1 := rfl

@[simp] theorem componentKeys_insertPort :
    (g.insertPort owner facts).2.register.componentKeys = g.register.componentKeys := rfl

@[simp] theorem roster_insertPort : (g.insertPort owner facts).2.roster = g.roster := rfl

@[simp] theorem root_insertPort :
    (g.insertPort owner facts).2.register.root = g.register.root := rfl

@[simp] theorem containment_insertPort :
    (g.insertPort owner facts).2.register.containment = g.register.containment := rfl

@[simp] theorem portKeys_insertPort : (g.insertPort owner facts).2.register.portKeys =
    g.register.portKeys ++ [(g.lastId + 1, g.freshPort)] := rfl

@[simp] theorem componentCount_insertPort :
    (g.insertPort owner facts).2.arena.components.size = g.arena.components.size := by
  simp [insertPort, takeId, Arena.changeComponent, Arena.pushPort]

@[simp] theorem portCount_insertPort :
    (g.insertPort owner facts).2.arena.ports.size = g.arena.ports.size + 1 := by
  simp [insertPort, takeId, Arena.changeComponent, Arena.pushPort]

theorem component_insertPort_owner (h : owner.index < g.arena.components.size) :
    (g.insertPort owner facts).2.component owner =
      { g.component owner with ports := g.portsOf owner ++ [g.freshPort] } :=
  Arena.component_changeComponent_same h _

theorem component_insertPort_of_ne {k : ComponentKey} (h : k ≠ owner) :
    (g.insertPort owner facts).2.component k = g.component k :=
  Arena.component_changeComponent_of_ne h.symm _

theorem port_insertPort_new : (g.insertPort owner facts).2.port g.freshPort =
    g.newPort owner facts :=
  Arena.port_pushPort_new g.arena (g.newPort owner facts)

theorem port_insertPort_of_lt {q : PortKey} (h : q.index < g.arena.ports.size) :
    (g.insertPort owner facts).2.port q = g.port q :=
  Arena.port_pushPort_of_lt h _

theorem component_insertPort (k : ComponentKey) : (g.insertPort owner facts).2.component k =
    { g.component k with ports := (g.insertPort owner facts).2.portsOf k } := by
  by_cases same : k = owner
  · subst same
    by_cases bound : k.index < g.arena.components.size
    · simp only [portsOf, component_insertPort_owner g k facts bound]
    · have absent : (g.insertPort k facts).2.component k = g.component k := by
        simp [component, insertPort, takeId, Arena.component, Arena.changeComponent,
          Arena.pushPort, bound]
      simp only [portsOf, absent]
  · simp only [portsOf, component_insertPort_of_ne g owner facts same]

end Port

section Component

variable (g : Graph) (name basename typeName : Value) (parent : Option ComponentKey)

@[simp] theorem insertComponent_fst :
    (g.insertComponent name basename typeName parent).1 = g.freshComponent := by
  cases parent <;> rfl

@[simp] theorem lastId_insertComponent :
    (g.insertComponent name basename typeName parent).2.lastId = g.lastId + 1 := by
  cases parent <;> rfl

@[simp] theorem componentKeys_insertComponent :
    (g.insertComponent name basename typeName parent).2.register.componentKeys =
      g.register.componentKeys ++ [(g.lastId + 1, g.freshComponent)] := by
  cases parent <;> rfl

@[simp] theorem portKeys_insertComponent :
    (g.insertComponent name basename typeName parent).2.register.portKeys =
      g.register.portKeys := by
  cases parent <;> rfl

@[simp] theorem port_insertComponent (q : PortKey) :
    (g.insertComponent name basename typeName parent).2.port q = g.port q := by
  cases parent <;> rfl

@[simp] theorem portCount_insertComponent :
    (g.insertComponent name basename typeName parent).2.arena.ports.size = g.arena.ports.size := by
  cases parent <;> rfl

@[simp] theorem componentCount_insertComponent :
    (g.insertComponent name basename typeName parent).2.arena.components.size =
      g.arena.components.size + 1 := by
  cases parent <;> simp [insertComponent, takeId, Arena.changeComponent, Arena.pushComponent]

theorem component_insertComponent_new (h : ∀ p, parent = some p → p ≠ g.freshComponent) :
    (g.insertComponent name basename typeName parent).2.component g.freshComponent =
      g.newComponent name basename typeName parent := by
  cases parent with
  | none => exact Arena.component_pushComponent_new g.arena _
  | some p =>
    exact (Arena.component_changeComponent_of_ne (h p rfl) _).trans
      (Arena.component_pushComponent_new g.arena (g.newComponent name basename typeName (some p)))

theorem component_insertComponent_parent {p : ComponentKey}
    (h : p.index < g.arena.components.size) :
    (g.insertComponent name basename typeName (some p)).2.component p =
      { g.component p with children := g.childrenOf p ++ [g.freshComponent] } := by
  have kept := Arena.component_pushComponent_of_lt h
    (g.newComponent name basename typeName (some p))
  have bound : p.index < (g.arena.pushComponent
      (g.newComponent name basename typeName (some p))).2.components.size := by
    simp only [Arena.pushComponent, Array.size_push]
    omega
  exact (Arena.component_changeComponent_same bound _).trans (by rw [kept]; rfl)

theorem component_insertComponent_of_ne {k : ComponentKey} (h : k.index < g.arena.components.size)
    (other : parent ≠ some k) :
    (g.insertComponent name basename typeName parent).2.component k = g.component k := by
  cases parent with
  | none => exact Arena.component_pushComponent_of_lt h _
  | some p =>
    have apart : p ≠ k := fun same => other (congrArg some same)
    refine (Arena.component_changeComponent_of_ne apart _).trans ?_
    exact Arena.component_pushComponent_of_lt h _

end Component

end Graph

end Schematic
