import Schematic.Graph.Outline

/-!
The wires that a block diagram draws inside one component. Only one level counts: a wire joins a
port of the component with a port of a child, or an output of one child with an input of another.
-/

namespace Schematic

/-- Whether a wire joins a component with its child or two children. -/
inductive WireKind where
  | parentChild
  | childChild
  deriving DecidableEq, Repr

def WireKind.name : WireKind → String
  | parentChild => "parent_child"
  | childChild => "child_child"

/-- A drawn connection of two ports and the components that own them. -/
structure Wire where
  source : ComponentKey
  sourcePort : PortKey
  target : ComponentKey
  targetPort : PortKey
  kind : WireKind
  deriving DecidableEq, Repr

/-- The label of a connection between two ports: the name of a signal if one of them has one. -/
def connectionLabel (source target : Port) : Except Error Value :=
  if source.signal.isTrue then .ok source.signal
  else if target.signal.isTrue then .ok target.signal
  else do
    let start ← source.basename.written
    let goal ← target.basename.written
    pure (.text (start ++ "_to_" ++ goal))

namespace Graph

def wireLabel (g : Graph) (w : Wire) : Except Error Value :=
  connectionLabel (g.port w.sourcePort) (g.port w.targetPort)

def boundaryWires (g : Graph) (k : ComponentKey) : List Wire :=
  (g.portsOf k).flatMap fun p =>
    (g.childrenOf k).flatMap fun child =>
      ((g.portsOf child).filter fun q => (g.port p).connects (g.port q)).map fun q =>
        ⟨k, p, child, q, .parentChild⟩

def innerWires (g : Graph) (k : ComponentKey) : List Wire :=
  (g.childrenOf k).flatMap fun source =>
    ((g.portsOf source).filter fun p => !(g.port p).isInput && (g.port p).isBound).flatMap fun p =>
      ((g.childrenOf k).filter fun target => target != source).flatMap fun target =>
        ((g.portsOf target).filter fun q =>
          (g.port q).isInput && (g.port p).connects (g.port q) && q != p).map fun q =>
            ⟨source, p, target, q, .childChild⟩

def wires (g : Graph) (k : ComponentKey) : List Wire := g.boundaryWires k ++ g.innerWires k

end Graph

end Schematic
