import Schematic.Text.Base64
import Schematic.Value.Scatter
import Schematic.Yaml.Merge
import Schematic.Yaml.Scalar

/-!
What each node of a document stands for, with the items of collections left as nodes. Nodes are
visited collection by collection: a scalar gets its value when it is met, a collection waits until
all collections met before it have got their items. Of several faults the one that is visited first
counts.
-/

namespace Schematic.Yaml

/-- What a node stands for. A list of pairs is a list whose items are pairs of nodes. -/
inductive Shallow where
  | value (v : Value)
  | list (items : List NodeId)
  | pairs (items : List (NodeId × NodeId))
  | mapping (entries : List (Value × NodeId))
  deriving Inhabited

/-- The nodes of a document, what is known of them, and the collections that wait, the last one
first. -/
structure Visit where
  graph : NodeGraph
  known : Array (Option Shallow)
  waiting : List NodeId := []

namespace Visit

abbrev Step := StateT Visit Reading

def scalarFault {α : Type} (r : Except ScalarFault α) : Reading α :=
  match r with
  | .ok a => .ok a
  | .error fault => .error (.scalar fault)

/-- The text of a node. A mapping has the text of what stands under its special key. -/
def textOf (g : NodeGraph) : Nat → NodeId → Reading Text
  | 0, _ => .error (.scalar .endless)
  | fuel + 1, id =>
    match (g.node id).content with
    | .scalar content => .ok content
    | .sequence _ => malformed
    | .mapping pairs =>
      match pairs.find? fun pair => (g.node pair.1).tag == .value with
      | some (_, value) => textOf g fuel value
      | none => malformed

def commonNaN : Value := .nan 0

def ownNaN (id : NodeId) : Value := .nan (2 * (id + 1))

def bytesOf (t : Text) : Reading Value :=
  match (Scalar.asciiChars? t).bind Base64.decode? with
  | some content => .ok (.bytes content)
  | none => malformed

def timestampOf (g : NodeGraph) (id : NodeId) (t : Text) : Reading Value :=
  if g.isMapping id then .error (.scalar .momentExpected)
  else scalarFault (Scalar.timestampOf t)

def single (g : NodeGraph) (id : NodeId) : Reading Value := do
  let t ← textOf g (g.nodes.size + 1) id
  match (g.node id).tag with
  | .null => pure .null
  | .bool => .bool <$> scalarFault (Scalar.truthOf t)
  | .int => .int <$> scalarFault (Scalar.intOf t)
  | .float => scalarFault (Scalar.floatOf commonNaN (ownNaN id) t)
  | .bytes => bytesOf t
  | .timestamp => timestampOf g id t
  | _ => pure (.text t)

/-- What a node stands for before its items are known; `none` for a single value. -/
def opening? : Tag → Reading (Option Shallow)
  | .sequence => .ok (some (.list []))
  | .mapping => .ok (some (.mapping []))
  | .set => .ok (some (.value (.set [])))
  | .orderedMapping => .ok (some (.pairs []))
  | .pairs => .ok (some (.pairs []))
  | .merge => malformed
  | .value => malformed
  | .other _ => malformed
  | _ => .ok none

def remember (id : NodeId) (found : Shallow) : Step Unit :=
  modify fun s => { s with known := s.known.setIfInBounds id (some found) }

/-- Visits a node, unless that is done. A collection is left waiting. -/
def meet (id : NodeId) : Step Shallow := do
  let s ← get
  match s.known.getD id none with
  | some found => pure found
  | none =>
    match ← opening? (s.graph.node id).tag with
    | some opening =>
      remember id opening
      modify fun s => { s with waiting := id :: s.waiting }
      pure opening
    | none =>
      let v ← single s.graph id
      remember id (.value v)
      pure (.value v)

def meetAll : List NodeId → Step Unit
  | [] => pure ()
  | id :: ids => do
    let _ ← meet id
    meetAll ids

/-- Visits the key of a pair, which must be able to serve as such. -/
def meetKey (id : NodeId) : Step Value := do
  match ← meet id with
  | .value v => if v.isHashable then pure v else malformed
  | _ => malformed

/-- Visits pairs in their order, keys before values, and answers with the entries that they make. -/
def meetPairs : List (NodeId × NodeId) → List (Value × NodeId) → Step (List (Value × NodeId))
  | [], entries => pure entries
  | (k, v) :: rest, entries => do
    let key ← meetKey k
    let _ ← meet v
    meetPairs rest (Value.insertEntry entries key v)

def entriesOf (id : NodeId) : Step (List (Value × NodeId)) := do
  let s ← get
  if s.graph.isMapping id then
    let graph ← s.graph.resolveMerges (s.graph.mergeCount + 1) [] id
    set { s with graph }
    meetPairs (graph.pairs id) []
  else malformed

def pairsOf : List NodeId → Step (List (NodeId × NodeId))
  | [] => pure []
  | id :: ids => do
    let s ← get
    match (s.graph.node id).content with
    | .mapping [(k, v)] =>
      let _ ← meet k
      let _ ← meet v
      let rest ← pairsOf ids
      pure ((k, v) :: rest)
    | _ => malformed

def complete (id : NodeId) : Step Unit := do
  let s ← get
  let n := s.graph.node id
  match n.tag, n.content with
  | .sequence, .sequence items =>
    meetAll items
    remember id (.list items)
  | .mapping, _ =>
    let entries ← entriesOf id
    remember id (.mapping entries)
  | .set, _ =>
    let entries ← entriesOf id
    remember id (.value (.setOf (entries.map Prod.fst)))
  | .orderedMapping, .sequence items =>
    let pairs ← pairsOf items
    remember id (.pairs pairs)
  | .pairs, .sequence items =>
    let pairs ← pairsOf items
    remember id (.pairs pairs)
  | _, _ => malformed

def completeEach : List NodeId → Step Unit
  | [] => pure ()
  | id :: ids => do
    complete id
    completeEach ids

/-- Completes the collections that wait, and those met meanwhile in the next round. Each collection
waits once. -/
def completeAll : (rounds : Nat) → Step Unit
  | 0 => pure ()
  | rounds + 1 => do
    let s ← get
    if !s.waiting.isEmpty then
      set { s with waiting := [] }
      completeEach s.waiting.reverse
      completeAll rounds

end Visit

def NodeGraph.shallow (g : NodeGraph) (root : NodeId) : Reading (Array (Option Shallow)) := do
  let act : Visit.Step Unit := do
    let _ ← Visit.meet root
    Visit.completeAll (g.nodes.size + 1)
  let (_, s) ← act.run { graph := g, known := Array.replicate g.nodes.size none }
  pure s.known

end Schematic.Yaml
