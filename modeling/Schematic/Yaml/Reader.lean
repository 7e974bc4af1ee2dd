import Schematic.Yaml.Shallow

/-!
Reading YAML text into a value. Nodes that share an item share its value. Every collection that
contains itself becomes a knot, also where another one around it contains both.

The modules on YAML stand for the library that the program hands its files to, with its loader for
plain data. They read YAML 1.1 as that library documents it: tokens and their layout, the graph of
nodes, merged mappings, and what a plain scalar looks like. What is proved of the loaders of
settings and snapshots relies on them in this:

* A text gives one value, or one fault and no value.
* A text that breaks the grammar, and a node that cannot be made of its tag, are errors of the
  library, which the loaders report as their own.
* A scalar whose contents are no number, day or truth value of the type that it claims is none of
  them, and neither is a number in the text that is too large for its place. Those faults come
  through the loaders as they are.
-/

namespace Schematic.Yaml

/-- A value inside collections, and those of them that it mentions. -/
structure Unfolded where
  value : Value
  mentions : List KnotId := []
  deriving Inhabited

abbrev Finished := Array (Option Value)

def NodeId.knot (id : NodeId) : KnotId := { collection := id }

namespace Unfolded

/-- A collection as a knot, if it mentions itself or what is around it, which contains it. -/
def tied (object : KnotId) (u : Unfolded) : Unfolded :=
  if u.mentions.isEmpty then u else ⟨.knot object u.value, u.mentions.filter (· != object)⟩

def gather (make : List Value → Value) (items : List Unfolded) : Unfolded :=
  ⟨make (items.map value), (items.flatMap mentions).eraseDups⟩

def pairAt (id : NodeId) (place : Nat) (a b : Unfolded) : Unfolded :=
  (gather .tuple [a, b]).tied { collection := id, place := some place }

def gatherPairs (id : NodeId) (firsts seconds : List Unfolded) : Unfolded :=
  gather .list ((firsts.zip seconds).mapIdx fun place (a, b) => pairAt id place a b)

def keep (id : NodeId) (u : Unfolded) : StateM Finished Unfolded := do
  if u.mentions.isEmpty then modify fun done => done.setIfInBounds id (some u.value)
  pure u

end Unfolded

namespace Shallow

def shape : Shallow → Shape
  | .mapping _ => .mapping
  | _ => .list

def fillWith (inner : NodeId → StateM Finished Unfolded) (id : NodeId) :
    Shallow → StateM Finished Unfolded
  | .value v => pure { value := v }
  | .list items => do
    let us ← items.mapM inner
    pure (.gather .list us)
  | .pairs items => do
    let firsts ← items.mapM fun pair => inner pair.1
    let seconds ← items.mapM fun pair => inner pair.2
    pure (.gatherPairs id firsts seconds)
  | .mapping entries => do
    let us ← entries.mapM fun entry => inner entry.2
    pure (.gather (fun vs => .mapping ((entries.map Prod.fst).zip vs)) us)

end Shallow

/-- The value of a node inside some collections. A collection around it is only mentioned, so no way
down is longer than there are nodes. -/
def unfolded (known : Array (Option Shallow)) :
    Nat → List NodeId → NodeId → StateM Finished Unfolded
  | 0, _, _ => pure { value := .null }
  | fuel + 1, around, id => do
    let done ← get
    match done.getD id none, (known.getD id none).getD (.value .null) with
    | some v, _ => pure { value := v }
    | none, .value v => pure { value := v }
    | none, found =>
      if around.contains id then pure ⟨.again id.knot found.shape, [id.knot]⟩
      else
        let u ← found.fillWith (unfolded known fuel (id :: around)) id
        let u ← u.keep id
        pure (u.tied id.knot)

/-- The value of a text with at most one document; without a document it is null. -/
def read (text : List Char) : Reading Value := do
  match ← Node.ofText text with
  | (none, _) => pure .null
  | (some root, g) =>
    let known ← g.shallow root
    let (u, _) := (unfolded known (g.nodes.size + 1) [] root).run
      (Array.replicate g.nodes.size none)
    pure u.value

end Schematic.Yaml
