import Schematic.Yaml.Node

/-!
Merge keys. A merge key brings the pairs of other mappings into its own mapping, in front of what is
written there. It is taken off the mapping first, so a mapping may even merge itself. The other
special key becomes an ordinary text.
-/

namespace Schematic.Yaml.NodeGraph

/-- The pairs of a mapping; other nodes have none. -/
def pairs (g : NodeGraph) (id : NodeId) : List (NodeId × NodeId) :=
  match (g.node id).content with
  | .mapping pairs => pairs
  | _ => []

def isMapping (g : NodeGraph) (id : NodeId) : Bool :=
  match (g.node id).content with
  | .mapping _ => true
  | _ => false

def isMerge (g : NodeGraph) (pair : NodeId × NodeId) : Bool := (g.node pair.1).tag == .merge

def mergeCount (g : NodeGraph) : Nat :=
  ((List.range g.nodes.size).map fun id => (g.pairs id).countP g.isMerge).foldr (· + ·) 0

def withOrdinaryKey (g : NodeGraph) (pair : NodeId × NodeId) : NodeGraph :=
  if (g.node pair.1).tag = .value then g.setTag pair.1 .text else g

/-- The graph with merged pairs in front of a mapping whose merge keys are all taken off. -/
def withMerged (g : NodeGraph) (id : NodeId) (merged : List (NodeId × NodeId)) : NodeGraph :=
  let pairs := g.pairs id
  (pairs.foldl withOrdinaryKey g).setContent id (.mapping (merged ++ pairs))

/-- What is done to each of some mappings before its pairs are brought in, and their pairs; those of
the last mapping come first. -/
def bringAll (resolve : NodeId → NodeGraph → Reading NodeGraph) (g : NodeGraph) :
    List NodeId → List (NodeId × NodeId) → Reading (List (NodeId × NodeId) × NodeGraph)
  | [], brought => .ok (brought, g)
  | id :: ids, brought =>
    if g.isMapping id then do
      let g ← resolve id g
      bringAll resolve g ids (g.pairs id ++ brought)
    else malformed

/-- The pairs that a merge key brings in: those of a mapping, or of a sequence of mappings. -/
def bring (resolve : NodeId → NodeGraph → Reading NodeGraph) (g : NodeGraph) (value : NodeId) :
    Reading (List (NodeId × NodeId) × NodeGraph) :=
  match (g.node value).content with
  | .mapping _ => bringAll resolve g [value] []
  | .sequence items => bringAll resolve g items []
  | .scalar _ => malformed

def resolveMerges : Nat → List (NodeId × NodeId) → NodeId → NodeGraph → Reading NodeGraph
  | 0, merged, id, g => .ok (g.withMerged id merged)
  | fuel + 1, merged, id, g =>
    match (g.pairs id).findIdx? g.isMerge with
    | none => .ok (g.withMerged id merged)
    | some place => do
      let value := ((g.pairs id).getD place default).2
      let g := g.setContent id (.mapping ((g.pairs id).eraseIdx place))
      let (brought, g) ← bring (resolveMerges fuel []) g value
      resolveMerges fuel (merged ++ brought) id g

end Schematic.Yaml.NodeGraph
