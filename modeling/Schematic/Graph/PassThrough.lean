import Schematic.Graph.Binding
import Schematic.Graph.Path

/-!
Pass-through ports. A binding can join ports whose owners lie far apart, while a diagram draws wires
over one level only. Between a driver and a receiver, every component that the binding has to leave
or enter gets a port of that binding, unless it has one. The component where the way turns from up
to down needs none: there the wire joins two children.
-/

namespace Schematic

/-- The inner crumbs of a trail that the binding crosses, the receiver's end first: all but the ends
and the turning point. -/
def crossings (trail : List Crumb) : List Crumb :=
  (((trail.drop 1).zip (trail.drop 2)).filter fun (here, next) =>
    !(here.upwards && !next.upwards)).reverse.map Prod.fst

namespace Graph

/-- The port that passes a binding on at a crumb. On the way up it continues the driver, on the way
down it leads to the receiver. -/
def passThroughFacts (g : Graph) (driver receiver : PortKey) (crumb : Crumb) :
    Except Error PortFacts := do
  let source := g.port (if crumb.upwards then driver else receiver)
  let owner ← (g.component crumb.component).name.written
  let basename ← source.basename.written
  pure
    { name := .text (owner ++ "." ++ basename)
      basename := source.basename
      direction := if crumb.upwards then .output else .input
      typeName := source.typeName
      identity := (g.port receiver).identity
      synthesized := true }

/-- Adds the port that a crossing needs, and answers with the number of ports added. -/
def passThroughAt (driver receiver : PortKey) (crumb : Crumb) : Action Graph Nat := do
  let g ← Action.state
  match g.portFor crumb.component (g.port receiver).identity with
  | some _ => pure 0
  | none =>
    let facts ← .of (g.passThroughFacts driver receiver crumb)
    let _ ← addPort crumb.component facts
    .note .debug .inference ("Synthesized " ++ facts.direction.word ++ " port " ++
      facts.name.plain ++ " for " ++ (g.port driver).name.plain ++ " -> " ++
      (g.port receiver).name.plain)
    pure 1

/-- The sum of what an action answers for the items of a list, done in their order. -/
def total {σ α : Type} (act : α → Action σ Nat) : List α → Action σ Nat
  | [] => pure 0
  | a :: as => do
    let n ← act a
    let rest ← total act as
    pure (n + rest)

/-- Adds the ports that join a driver with a receiver, and answers with their number. -/
def bridge (driver receiver : PortKey) : Action Graph Nat := do
  let g ← Action.state
  let start ← .of (g.owner driver)
  let goal ← .of (g.owner receiver)
  if start = goal then pure 0
  else
    match ← .of (g.trail start goal) with
    | none =>
      .note .debug .inference ("No tree path from " ++ (g.port driver).name.plain ++ " to " ++
        (g.port receiver).name.plain ++ ", binding not bridged")
      pure 0
    | some trail => total (passThroughAt driver receiver) (crossings trail)

/-- Adds the pass-through ports of all bindings, and answers with their number. Only the ports that
are there at the start count as ends. -/
def addPassThroughs : Action Graph Nat := do
  let g ← Action.state
  let bindings ← .of g.bindings
  let count ← total (fun (d, r) => bridge d r) (bindings.flatMap fun b => b.pairs g)
  .note .info .inference ("Inferred " ++ toString count ++ " implicit ports")
  pure count

end Graph

end Schematic
