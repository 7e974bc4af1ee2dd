import Schematic.Graph.Outline

/-!
The figures that describe a graph.
-/

namespace Schematic

/-- Counts of components and ports, and the shape of the containment relation. -/
structure Summary where
  components : Nat
  ports : Nat
  boundPorts : Nat
  synthesizedPorts : Nat
  identities : Nat
  isTree : Bool
  maxDepth : Nat
  deriving DecidableEq, Repr

namespace Graph

/-- Whether the containment relation is a tree with one root; nothing is no tree. -/
def isTree (g : Graph) : Bool :=
  !g.register.componentKeys.isEmpty && g.register.containment.isArborescence

/-- The figures of a graph. Identities are counted by a table, so each must be able to serve as a
key. -/
def summary (g : Graph) : Except Error Summary :=
  let ports := g.ports.map g.port
  let bound := ports.filter Port.isBound
  let identities := bound.map Port.identity
  if identities.all Value.isHashable then
    .ok
      { components := g.size
        ports := ports.length
        boundPorts := bound.length
        synthesizedPorts := ports.countP Port.synthesized
        identities := (Value.distinctKeys identities).length
        isTree := g.isTree
        maxDepth := match g.register.root with
          | some k => g.register.containment.reach (g.component k).id
          | none => 0 }
  else .error .wrongType

end Graph

end Schematic
