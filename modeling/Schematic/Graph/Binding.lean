import Schematic.Graph.Outline

/-!
Bindings: the ports of a graph that share an identity. A port with an output direction drives its
binding, one with an input direction receives from it.
-/

namespace Schematic

/-- The ports that a table found under one identity, in the order of the walk. The identity is the
one that was met first. -/
structure Binding where
  identity : Value
  ports : List PortKey

namespace Binding

def insert (identity : Value) (p : PortKey) : List Binding → List Binding
  | [] => [⟨identity, [p]⟩]
  | b :: bs =>
    if b.identity.same identity then { b with ports := b.ports ++ [p] } :: bs
    else b :: insert identity p bs

def drivers (g : Graph) (b : Binding) : List PortKey := b.ports.filter fun p => !(g.port p).isInput

def receivers (g : Graph) (b : Binding) : List PortKey := b.ports.filter fun p => (g.port p).isInput

def pairs (g : Graph) (b : Binding) : List (PortKey × PortKey) :=
  (b.drivers g).flatMap fun d => (b.receivers g).map fun r => (d, r)

end Binding

namespace Graph

def boundPorts (g : Graph) : List PortKey := g.ports.filter fun p => (g.port p).isBound

/-- The bindings of some bound ports, in the order of their first ports. An identity must be able
to serve as a table key. -/
def bindingsOf (g : Graph) : List PortKey → List Binding → Except Error (List Binding)
  | [], bindings => .ok bindings
  | p :: ps, bindings =>
    let identity := (g.port p).identity
    if identity.isHashable then bindingsOf g ps (Binding.insert identity p bindings)
    else .error .wrongType

def bindings (g : Graph) : Except Error (List Binding) := g.bindingsOf g.boundPorts []

end Graph

end Schematic
