import Schematic.Action
import Schematic.Graph.Containment
import Schematic.Value.Equality

/-!
Components and their ports. Records live in an arena and are referred to by keys, so that one
component can be known to several graphs' callers while it belongs to the register of one graph
only. A graph is an arena together with a register, which gives out identifiers and remembers what
it gave them to.
-/

namespace Schematic

/-- The place of a component in an arena. -/
structure ComponentKey where
  index : Nat
  deriving DecidableEq, Repr, Inhabited

/-- The place of a port in an arena. -/
structure PortKey where
  index : Nat
  deriving DecidableEq, Repr, Inhabited

/-- A point of a component where a binding attaches. The identity tells which binding that is, and
is null at a port without one; the signal is the name of what the port is bound to, or null. A
synthesized port was added to pass a binding on. -/
structure Port where
  id : Value
  name : Value
  basename : Value
  direction : Direction
  typeName : Value
  ownerId : Value
  identity : Value
  signal : Value
  synthesized : Bool
  deriving Inhabited

/-- A structural unit of the surveyed model. The identifier of its parent is null at a root. -/
structure Component where
  id : Nat
  name : Value
  basename : Value
  typeName : Value
  parentId : Value
  children : List ComponentKey
  ports : List PortKey
  deriving Inhabited

namespace Port

def isInput (p : Port) : Bool := p.direction == .input

def isBound (p : Port) : Bool := !p.identity.isNull

def connects (p q : Port) : Bool := p.isBound && q.isBound && p.identity.equal q.identity

end Port

namespace Component

def isRoot (c : Component) : Bool := c.parentId.isNull

def isEmpty (c : Component) : Bool := c.ports.isEmpty && c.children.isEmpty

end Component

/-- All components and ports that were ever made. -/
structure Arena where
  components : Array Component := #[]
  ports : Array Port := #[]
  deriving Inhabited

namespace Arena

def component (a : Arena) (k : ComponentKey) : Component := a.components.getD k.index default

def port (a : Arena) (k : PortKey) : Port := a.ports.getD k.index default

def pushComponent (a : Arena) (c : Component) : ComponentKey × Arena :=
  (⟨a.components.size⟩, { a with components := a.components.push c })

def pushPort (a : Arena) (p : Port) : PortKey × Arena :=
  (⟨a.ports.size⟩, { a with ports := a.ports.push p })

def changeComponent (a : Arena) (k : ComponentKey) (f : Component → Component) : Arena :=
  { a with components := a.components.modify k.index f }

def changePort (a : Arena) (k : PortKey) (f : Port → Port) : Arena :=
  { a with ports := a.ports.modify k.index f }

@[simp] theorem component_pushComponent_new (a : Arena) (c : Component) :
    (a.pushComponent c).2.component (a.pushComponent c).1 = c := by
  simp [pushComponent, component]

theorem component_pushComponent_of_lt {a : Arena} {k : ComponentKey}
    (h : k.index < a.components.size) (c : Component) :
    (a.pushComponent c).2.component k = a.component k := by
  simp [pushComponent, component, Array.getElem?_push, Nat.ne_of_lt h]

@[simp] theorem port_pushComponent (a : Arena) (c : Component) (k : PortKey) :
    (a.pushComponent c).2.port k = a.port k := rfl

@[simp] theorem port_pushPort_new (a : Arena) (p : Port) :
    (a.pushPort p).2.port (a.pushPort p).1 = p := by
  simp [pushPort, port]

theorem port_pushPort_of_lt {a : Arena} {k : PortKey} (h : k.index < a.ports.size) (p : Port) :
    (a.pushPort p).2.port k = a.port k := by
  simp [pushPort, port, Array.getElem?_push, Nat.ne_of_lt h]

@[simp] theorem component_pushPort (a : Arena) (p : Port) (k : ComponentKey) :
    (a.pushPort p).2.component k = a.component k := rfl

theorem component_changeComponent_same {a : Arena} {k : ComponentKey}
    (h : k.index < a.components.size) (f : Component → Component) :
    (a.changeComponent k f).component k = f (a.component k) := by
  simp [changeComponent, component, h, Array.getElem_modify]

theorem component_changeComponent_of_ne {a : Arena} {k l : ComponentKey} (h : k ≠ l)
    (f : Component → Component) : (a.changeComponent k f).component l = a.component l := by
  have hindex : k.index ≠ l.index := fun heq => h (by cases k; cases l; cases heq; rfl)
  simp [changeComponent, component, Array.getElem?_modify, hindex]

@[simp] theorem port_changeComponent (a : Arena) (k : ComponentKey) (f : Component → Component)
    (p : PortKey) : (a.changeComponent k f).port p = a.port p := rfl

theorem port_changePort_same {a : Arena} {k : PortKey} (h : k.index < a.ports.size)
    (f : Port → Port) : (a.changePort k f).port k = f (a.port k) := by
  simp [changePort, port, h, Array.getElem_modify]

@[simp] theorem component_changePort (a : Arena) (k : PortKey) (f : Port → Port)
    (c : ComponentKey) : (a.changePort k f).component c = a.component c := rfl

end Arena

/-- What one graph keeps: its root, the identifiers it gave out, and the containment relation. -/
structure Register where
  root : Option ComponentKey := none
  lastId : Nat := 0
  componentKeys : List (Nat × ComponentKey) := []
  portKeys : List (Nat × PortKey) := []
  containment : Containment := {}
  deriving Inhabited

/-- The components and ports of one survey. -/
structure Graph where
  arena : Arena := {}
  register : Register := {}
  deriving Inhabited

namespace Graph

def component (g : Graph) (k : ComponentKey) : Component := g.arena.component k

def port (g : Graph) (k : PortKey) : Port := g.arena.port k

def childrenOf (g : Graph) (k : ComponentKey) : List ComponentKey := (g.component k).children

def portsOf (g : Graph) (k : ComponentKey) : List PortKey := (g.component k).ports

def lastId (g : Graph) : Nat := g.register.lastId

def size (g : Graph) : Nat := g.register.componentKeys.length

def registers (g : Graph) (k : ComponentKey) : Bool :=
  g.register.componentKeys.lookup (g.component k).id == some k

def takeId (g : Graph) : Nat × Graph :=
  let id := g.register.lastId + 1
  (id, { g with register := { g.register with lastId := id } })

def insertComponent (g : Graph) (name basename typeName : Value)
    (parent : Option ComponentKey) : ComponentKey × Graph :=
  let (id, g) := g.takeId
  let parentId := match parent with
    | some p => .int (g.component p).id
    | none => .null
  let (key, arena) := g.arena.pushComponent
    { id, name, basename, typeName, parentId, children := [], ports := [] }
  let r := { g.register with
    componentKeys := g.register.componentKeys ++ [(id, key)]
    containment := g.register.containment.addNode id }
  match parent with
  | none => (key, { arena, register := { r with root := some key } })
  | some p =>
    let arena := arena.changeComponent p fun c => { c with children := c.children ++ [key] }
    let containment := r.containment.link (g.component p).id id
    (key, { arena, register := { r with containment } })

/-- What a new port is made of, besides its identifier and owner. -/
structure PortFacts where
  name : Value
  basename : Value
  direction : Direction
  typeName : Value
  identity : Value := .null
  signal : Value := .null
  synthesized : Bool := false

/-- A new port of a component. An empty signal name is none. -/
def insertPort (g : Graph) (owner : ComponentKey) (facts : PortFacts) : PortKey × Graph :=
  let (id, g) := g.takeId
  let (key, arena) := g.arena.pushPort
    { id := .int id
      name := facts.name
      basename := facts.basename
      direction := facts.direction
      typeName := facts.typeName
      ownerId := .int (g.component owner).id
      identity := facts.identity
      signal := facts.signal.orElse .null
      synthesized := facts.synthesized }
  let arena := arena.changeComponent owner fun c => { c with ports := c.ports ++ [key] }
  let register := { g.register with portKeys := g.register.portKeys ++ [((id : Nat), key)] }
  (key, { arena, register })

def nextId : Action Graph Nat := .update takeId

/-- Adds a component. There is at most one root, and a parent must be a component of this graph;
a refused addition changes nothing. -/
def addComponent (name basename typeName : Value) (parent : Option ComponentKey) :
    Action Graph ComponentKey := do
  let g ← Action.state
  match parent, g.register.root with
  | none, some root => .fail (.secondRoot (g.component root).name name)
  | none, none => pure ()
  | some p, _ => if g.registers p then pure () else .fail (.foreignParent (g.component p).name)
  .note .debug .graph
    ("Added component: " ++ name.plain ++ " (id=" ++ toString (g.lastId + 1) ++ ")")
  .update fun g => g.insertComponent name basename typeName parent

/-- Adds a port. Its owner must be a component of this graph; a refused addition changes
nothing. -/
def addPort (owner : ComponentKey) (facts : PortFacts) : Action Graph PortKey := do
  let g ← Action.state
  if g.registers owner then .update fun g => g.insertPort owner facts
  else .fail (.foreignOwner (g.component owner).name)

/-- The identifier that a value stands for as a table key: a whole number of any type. -/
def idOf? (v : Value) : Option Nat :=
  match v with
  | .int n => if 0 ≤ n then some n.toNat else none
  | .bool b => some (if b then 1 else 0)
  | .float x =>
    match x.toDyadic?.bind Dyadic.toInt? with
    | some n => if 0 ≤ n then some n.toNat else none
    | none => none
  | _ => none

/-- What a table of identifiers holds for a value; asking for a collection is an error. -/
def tableEntry? {α : Type} (table : List (Nat × α)) (id : Value) : Except Error (Option α) :=
  if id.isHashable then .ok ((idOf? id).bind fun n => table.lookup n) else .error .wrongType

def root (g : Graph) : Except Error ComponentKey :=
  match g.register.root with
  | some k => .ok k
  | none => .error .emptyGraph

def getComponent (g : Graph) (id : Value) : Except Error ComponentKey := do
  match ← tableEntry? g.register.componentKeys id with
  | some k => .ok k
  | none => .error (.noComponent id)

def getPort (g : Graph) (id : Value) : Except Error PortKey := do
  match ← tableEntry? g.register.portKeys id with
  | some k => .ok k
  | none => .error (.noPort id)

def resolve (g : Graph) (id : Value) : Except Error ComponentKey := do
  match ← tableEntry? g.register.componentKeys id with
  | some k => .ok k
  | none => .error (.unregistered id)

def owner (g : Graph) (p : PortKey) : Except Error ComponentKey := g.resolve (g.port p).ownerId

/-- The component that contains another, by the containment relation; of several the one that was
linked first. -/
def parent (g : Graph) (k : ComponentKey) : Except Error (Option ComponentKey) :=
  let id := (g.component k).id
  if g.register.containment.nodes.contains id then
    match g.register.containment.predecessors id with
    | [] => .ok none
    | above :: _ => (g.resolve (.int above)).map some
  else .error .notContained

def portFor (g : Graph) (k : ComponentKey) (identity : Value) : Option PortKey :=
  if identity.isNull then none
  else (g.portsOf k).find? fun p => (g.port p).identity.equal identity

def portCounts (g : Graph) (k : ComponentKey) : Nat × Nat :=
  let ports := g.portsOf k
  let inputs := ports.countP fun p => (g.port p).isInput
  (inputs, ports.length - inputs)

end Graph

end Schematic
