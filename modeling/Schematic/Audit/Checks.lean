import Schematic.Audit.Report
import Schematic.Graph.Binding
import Schematic.Graph.Path
import Schematic.Graph.Summary
import Schematic.Graph.Wire

/-!
Whether a graph is fit to be drawn as a block diagram. Four checks are made: containment is a tree
with one root, identifiers are unique, every binding is covered by ports on its way, and no wire
joins a port with itself.
-/

namespace Schematic.Audit

def timesListed (g : Graph) (components : List ComponentKey) (id : Nat) : Nat :=
  (components.flatMap g.childrenOf).countP fun k => (g.component k).id == id

/-- The complaint about a component that is not listed as a child just once. -/
def listingProblem (g : Graph) (components : List ComponentKey) (k : ComponentKey) :
    Except Error (List Text) := do
  let c := g.component k
  let n := timesListed g components c.id
  if !c.isRoot && n != 1 then
    let name ← c.name.written
    pure ["'" ++ name ++ "' listed " ++ toString n ++ " times as a child"]
  else pure []

def treeProblems (g : Graph) : Except Error (List Text) := do
  let components := g.components
  let roots := components.filter fun k => (g.component k).isRoot
  let count : List Text :=
    if roots.length ≠ 1 then [toString roots.length ++ " root components"] else []
  let listed ← components.mapM (listingProblem g components)
  let shape : List Text := if g.isTree then [] else ["containment graph is not an arborescence"]
  pure (count ++ listed.flatten ++ shape)

def checkTree (g : Graph) : Except Error (List Finding) := do
  let problems ← treeProblems g
  let root ← g.root
  let subject := (g.component root).name
  pure [match problems with
    | [] =>
      { severity := .pass, category := .text "tree", subject
        message := .text (toString g.components.length ++ " components form a tree") }
    | _ =>
      { severity := .fail, category := .text "tree", subject
        message := .text (Text.intercalate "; " problems) }]

def repeated (ids : List Value) : List Value :=
  (Value.distinctKeys ids).filter fun v => decide (1 < ids.countP fun w => v.same w)

/-- A list with a value put in order; values that cannot be compared are an error. -/
def insertOrdered (v : Value) : List Value → Except Error (List Value)
  | [] => .ok [v]
  | w :: ws =>
    match v.less? w with
    | some true => .ok (v :: w :: ws)
    | some false => (insertOrdered v ws).map (w :: ·)
    | none => .error .wrongType

def ordered (vs : List Value) : Except Error (List Value) :=
  vs.foldlM (fun sorted v => insertOrdered v sorted) []

def allIds (g : Graph) : List Value :=
  (g.components.map fun k => Value.int (g.component k).id) ++ g.ports.map fun p => (g.port p).id

def checkIds (g : Graph) : Except Error (List Finding) := do
  let ids := allIds g
  if !ids.all Value.isHashable then throw .wrongType
  let duplicates ← ordered (repeated ids)
  let root ← g.root
  let subject := (g.component root).name
  if !duplicates.all Value.isWritable then throw .tooLongToWrite
  pure [if duplicates.isEmpty then
      { severity := .pass, category := .text "ids", subject
        message := .text (toString (Value.distinctKeys ids).length ++ " unique ids") }
    else
      { severity := .fail, category := .text "ids", subject
        message := .text ("Duplicate ids: " ++ (Value.list duplicates).quoted) }]

/-- The component of a way that is nearest to the root; of several the first. -/
def turningPoint? (path : List ComponentKey) (depths : List Nat) : Option ComponentKey :=
  match depths.min? with
  | some least => ((path.zip depths).find? fun (_, d) => d == least).map Prod.fst
  | none => none

/-- The components strictly inside a way, other than its turning point, that have no port of a
binding. -/
def uncovered (g : Graph) (identity : Value) (path : List ComponentKey) (depths : List Nat) :
    List ComponentKey :=
  let turning := turningPoint? path depths
  ((path.drop 1).dropLast).filter fun k => some k != turning && (g.portFor k identity).isNone

/-- Texts joined by commas; anything but a text is an error. -/
def joinNames (names : List Value) : Except Error Text :=
  match names.mapM Value.text? with
  | some texts => .ok (Text.intercalate ", " texts)
  | none => .error .wrongType

/-- The finding on one driver and one receiver of a binding; owners that no way joins give none. -/
def checkPair (g : Graph) (identity : Value) (driver receiver : PortKey) :
    Except Error (List Finding) := do
  let start ← g.owner driver
  let goal ← g.owner receiver
  let path ← g.pathBetween start goal
  if path.isEmpty then pure []
  else
    let depths ← path.mapM g.depth
    let missing := (uncovered g identity path depths).map fun k => (g.component k).name
    let source ← (g.port driver).name.written
    let target ← (g.port receiver).name.written
    let subject := Value.text (source ++ " -> " ++ target)
    if missing.isEmpty then
      pure [{ severity := .pass, category := .text "path_coverage", subject
              message := .text ("Covered over " ++ toString path.length ++ " components") }]
    else
      let names ← joinNames missing
      pure [{ severity := .fail, category := .text "path_coverage", subject
              message := .text ("No port for the binding on: " ++ names)
              details := .mapping [(.text "missing", .list missing)] }]

/-- The warning on a binding of several ports that has no driver or no receiver. -/
def oneSided (g : Graph) (b : Binding) : Except Error (List Finding) :=
  let drivers := (b.drivers g).length
  let receivers := (b.receivers g).length
  if 1 < b.ports.length ∧ (drivers = 0 ∨ receivers = 0) then
    if b.identity.isWritable then
      .ok
        [{ severity := .warning, category := .text "binding"
           subject := match b.ports with
            | p :: _ => (g.port p).name
            | [] => .null
           message := .text ("Binding " ++ b.identity.quoted ++ " has " ++ toString drivers ++
            " drivers and " ++ toString receivers ++ " receivers; nothing will be drawn for it.") }]
    else .error .tooLongToWrite
  else .ok []

def checkBinding (g : Graph) (b : Binding) : Except Error (List Finding) := do
  let warnings ← oneSided g b
  let pairs ← (b.pairs g).mapM fun (d, r) => checkPair g b.identity d r
  pure (warnings ++ pairs.flatten)

def checkCoverage (g : Graph) : Except Error (List Finding) := do
  let bindings ← g.bindings
  let findings ← bindings.mapM (checkBinding g)
  pure findings.flatten

def checkWires (g : Graph) : List Finding :=
  g.components.flatMap fun k =>
    let loops := (g.wires k).filter fun w => w.sourcePort == w.targetPort
    if loops.isEmpty then []
    else
      [{ severity := .fail, category := .text "edges", subject := (g.component k).name
         message := .text (toString loops.length ++ " edges connect a port to itself") }]

def findings (g : Graph) : Except Error (List Finding) := do
  let tree ← checkTree g
  let ids ← checkIds g
  let coverage ← checkCoverage g
  pure (tree ++ ids ++ coverage ++ checkWires g)

def validate {σ : Type} (g : Graph) : Action σ Report := do
  let report : Report := { findings := ← .of (findings g) }
  .note .info .checks ("Structure validation complete: " ++ toString report.findings.length ++
    " checks, " ++ toString report.failures.length ++ " failures")
  pure report

end Schematic.Audit
