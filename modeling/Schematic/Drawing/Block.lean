import Schematic.Graph.Wire

/-!
What a diagram shows of a graph, the same for every format: blocks within blocks, with the ports of
each, and the wires drawn inside it. Wires are numbered on from the last identifier of the graph,
those inside the children of a block before its own.
-/

namespace Schematic

structure Numbering where
  last : Int := 0
  deriving DecidableEq, Repr

def Numbering.next (n : Numbering) : String × Numbering :=
  (toString (n.last + 1), ⟨n.last + 1⟩)

structure NumberedWire where
  number : String
  wire : Wire
  deriving DecidableEq, Repr

def Numbering.wires (n : Numbering) : List Wire → List NumberedWire × Numbering
  | [] => ([], n)
  | w :: ws =>
    let (number, n) := n.next
    let (rest, n) := n.wires ws
    (⟨number, w⟩ :: rest, n)

theorem Numbering.map_wire_wires (n : Numbering) (ws : List Wire) :
    (n.wires ws).1.map NumberedWire.wire = ws := by
  induction ws generalizing n with
  | nil => rfl
  | cons w ws ih => simp [Numbering.wires, ih]

theorem Numbering.last_wires (n : Numbering) (ws : List Wire) :
    (n.wires ws).2.last = n.last + ws.length := by
  induction ws generalizing n with
  | nil => simp [Numbering.wires]
  | cons w ws ih =>
    simp only [Numbering.wires, Numbering.next, ih, List.length_cons]
    omega

/-- A component as a diagram shows it. The last number is the one reached when its own wires were
numbered. -/
inductive Block where
  | mk (component : ComponentKey) (ports : List PortKey) (children : List Block)
      (wires : List NumberedWire) (last : Int)
  deriving Inhabited

namespace Block

def component : Block → ComponentKey
  | mk k _ _ _ _ => k

mutual

def ofOutline (g : Graph) (n : Numbering) : Outline → Block × Numbering
  | .node k below =>
    let (children, n) := ofOutlines g n below
    let (wires, n) := n.wires (g.wires k)
    (mk k (g.portsOf k) children wires n.last, n)

def ofOutlines (g : Graph) (n : Numbering) : List Outline → List Block × Numbering
  | [] => ([], n)
  | o :: os =>
    let (b, n) := ofOutline g n o
    let (bs, n) := ofOutlines g n os
    (b :: bs, n)

end

mutual

/-- The ports of all blocks, those of a block before those of its children. -/
def allPorts : Block → List PortKey
  | mk _ ports children _ _ => ports ++ allPortsOf children

def allPortsOf : List Block → List PortKey
  | [] => []
  | b :: bs => allPorts b ++ allPortsOf bs

end

mutual

/-- The wires of all blocks, those of the children of a block before its own. -/
def allWires : Block → List NumberedWire
  | mk _ _ children wires _ => allWiresOf children ++ wires

def allWiresOf : List Block → List NumberedWire
  | [] => []
  | b :: bs => allWires b ++ allWiresOf bs

end

end Block

namespace Graph

def block? (g : Graph) : Option Block :=
  g.outline.map fun o => (Block.ofOutline g ⟨g.lastId⟩ o).1

/-- The height of a block: room for its ports, of which inputs and outputs stand on two sides. -/
def blockHeight (g : Graph) (k : ComponentKey) : Nat :=
  let (inputs, outputs) := g.portCounts k
  max 80 (max inputs outputs * 20)

end Graph

def Port.side (p : Port) : String := if p.isInput then "WEST" else "EAST"

end Schematic
