import Schematic.Graph.PassThrough
import Schematic.Graph.Summary
import Schematic.Graph.Wire

/-!
Several graphs side by side. Their registers number components independently, while all records
share one arena, so a component of one graph can be shown to another, which refuses it. The edits
here change one record or one relation and nothing that depends on it.
-/

namespace Schematic

structure Workspace where
  arena : Arena := {}
  registers : Array Register := #[{}]
  deriving Inhabited

/-- An attribute of a port that can be assigned. -/
inductive PortEdit where
  | id (v : Value)
  | ownerId (v : Value)
  | identity (v : Value)
  | signal (v : Value)
  | direction (d : Direction)

def PortEdit.apply (edit : PortEdit) (p : Port) : Port :=
  match edit with
  | .id v => { p with id := v }
  | .ownerId v => { p with ownerId := v }
  | .identity v => { p with identity := v }
  | .signal v => { p with signal := v }
  | .direction d => { p with direction := d }

namespace Workspace

def graph (w : Workspace) (i : Nat) : Graph := ⟨w.arena, w.registers.getD i {}⟩

def put (i : Nat) (g : Graph) (w : Workspace) : Workspace :=
  ⟨g.arena, w.registers.setIfInBounds i g.register⟩

def onGraph {α : Type} (i : Nat) (act : Action Graph α) : Action Workspace α :=
  .within (fun w => w.graph i) (put i) act

def newGraph : Action Workspace Nat :=
  .update fun w => (w.registers.size, { w with registers := w.registers.push {} })

def component (w : Workspace) (k : ComponentKey) : Component := w.arena.component k

def port (w : Workspace) (k : PortKey) : Port := w.arena.port k

def editComponent (k : ComponentKey) (f : Component → Component) : Action Workspace Unit :=
  .change fun w => { w with arena := w.arena.changeComponent k f }

def setParentId (k : ComponentKey) (v : Value) : Action Workspace Unit :=
  editComponent k fun c => { c with parentId := v }

def appendChild (k child : ComponentKey) : Action Workspace Unit :=
  editComponent k fun c => { c with children := c.children ++ [child] }

def removeChild (k child : ComponentKey) : Action Workspace Unit := do
  let w ← Action.state
  if (w.component k).children.contains child then
    editComponent k fun c => { c with children := c.children.erase child }
  else .fail .notListed

def appendPort (k : ComponentKey) (p : PortKey) : Action Workspace Unit :=
  editComponent k fun c => { c with ports := c.ports ++ [p] }

def removePort (k : ComponentKey) (p : PortKey) : Action Workspace Unit := do
  let w ← Action.state
  if (w.component k).ports.contains p then
    editComponent k fun c => { c with ports := c.ports.erase p }
  else .fail .notListed

def editPort (k : PortKey) (edit : PortEdit) : Action Workspace Unit :=
  .change fun w => { w with arena := w.arena.changePort k edit.apply }

def editContainment (i : Nat) (f : Containment → Except Error Containment) :
    Action Workspace Unit :=
  onGraph i do
    let g ← Action.state
    let c ← .of (f g.register.containment)
    .change fun g => { g with register := { g.register with containment := c } }

/-- Adds a link between the identifiers of two components to a graph's containment relation. -/
def link (i : Nat) (a b : ComponentKey) : Action Workspace Unit := do
  let w ← Action.state
  editContainment i fun c => .ok (c.link (w.component a).id (w.component b).id)

def unlink (i : Nat) (a b : ComponentKey) : Action Workspace Unit := do
  let w ← Action.state
  editContainment i fun c =>
    match c.unlink? (w.component a).id (w.component b).id with
    | some c => .ok c
    | none => .error .noLink

end Workspace

end Schematic
