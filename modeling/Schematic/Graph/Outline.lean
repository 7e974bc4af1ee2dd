import Schematic.Graph.Basic

/-!
The tree of a graph: each component with its children, as the children lists have it. All walks
over a graph are walks over this tree.
-/

namespace Schematic

/-- A component and what is below it. -/
inductive Outline where
  | node (key : ComponentKey) (below : List Outline)
  deriving Inhabited

namespace Outline

def key : Outline → ComponentKey
  | node k _ => k

mutual

/-- The components of a tree, each before what is below it, siblings in their order. -/
def preorder : Outline → List ComponentKey
  | node k os => k :: preorderAll os

def preorderAll : List Outline → List ComponentKey
  | [] => []
  | o :: os => preorder o ++ preorderAll os

end

end Outline

namespace Graph

def outlineTo (g : Graph) : Nat → ComponentKey → Outline
  | 0, k => .node k []
  | depth + 1, k => .node k ((g.childrenOf k).map (outlineTo g depth))

/-- The tree below a component. No chain of distinct components is longer than the arena. -/
def outlineOf (g : Graph) (k : ComponentKey) : Outline :=
  g.outlineTo g.arena.components.size k

def outline (g : Graph) : Option Outline := g.register.root.map g.outlineOf

def components (g : Graph) : List ComponentKey :=
  match g.outline with
  | some o => o.preorder
  | none => []

def ports (g : Graph) : List PortKey := g.components.flatMap g.portsOf

def find (g : Graph) (name : Value) : Except Error ComponentKey :=
  match g.components.find? fun k => (g.component k).name.equal name with
  | some k => .ok k
  | none => .error (.noComponentNamed name)

end Graph

end Schematic
