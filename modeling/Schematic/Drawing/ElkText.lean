import Schematic.Drawing.Block
import Schematic.Error

/-!
Diagrams in the text format of the ELK layout library. A block without ports and children is not
drawn.
-/

namespace Schematic.ElkText

inductive Statement where
  | algorithm
  | routing
  | node (name : Text)
  | size (height : Nat)
  | fixedSides
  | label (name : Text)
  | port (name : Text) (side : String)
  | edge (source target : Text)
  | close
  | blank
  deriving DecidableEq, Repr

namespace Statement

def text : Statement → Text
  | algorithm => "algorithm: org.eclipse.elk.layered"
  | routing => "edgeRouting: ORTHOGONAL"
  | node name => "node " ++ name ++ " \x7b"
  | size height => "layout [ size: 50, " ++ toString height ++ " ]"
  | fixedSides => "portConstraints: FIXED_SIDE"
  | label name => "label \"" ++ name ++ "\""
  | port name side =>
    "port " ++ name ++ " \x7b ^port.side: " ++ side ++ " label '" ++ name ++ "' \x7d"
  | edge source target => "edge " ++ source ++ " -> " ++ target
  | close => "\x7d"
  | blank => ""

end Statement

structure Line where
  depth : Nat
  statement : Statement
  deriving DecidableEq, Repr

def Line.text (l : Line) : Text := Text.blanks (4 * l.depth) ++ l.statement.text

def portStatement (g : Graph) (k : PortKey) : Except Error Statement := do
  let name ← (g.port k).basename.written
  pure (.port name (g.port k).side)

def wireStatement (g : Graph) (w : NumberedWire) : Except Error Statement := do
  let source ← (g.port w.wire.sourcePort).name.written
  let target ← (g.port w.wire.targetPort).name.written
  pure (.edge source target)

mutual

/-- The lines of a block: its head, ports, children, wires and end. All of them are worked out, even
where the block is not drawn. -/
def lines (g : Graph) (depth : Nat) : Block → Except Error (List Line)
  | .mk k ports children wires _ => do
    let ports ← ports.mapM (portStatement g)
    let children ← linesOf g (depth + 1) children
    let wires ← wires.mapM (wireStatement g)
    if (g.component k).isEmpty then pure []
    else
      let name ← (g.component k).basename.written
      pure ([⟨depth, .node name⟩, ⟨depth + 1, .size (g.blockHeight k)⟩, ⟨depth + 1, .fixedSides⟩,
          ⟨depth + 1, .label name⟩] ++
        ports.map (fun s => ⟨depth + 1, s⟩) ++
        children ++
        wires.map (fun s => ⟨depth + 1, s⟩) ++
        [⟨depth, .close⟩, ⟨0, .blank⟩])

def linesOf (g : Graph) (depth : Nat) : List Block → Except Error (List Line)
  | [] => pure []
  | b :: bs => do
    let first ← lines g depth b
    let rest ← linesOf g depth bs
    pure (first ++ rest)

end

def document (g : Graph) (block : Option Block) : Except Error (List Line) := do
  let body ← match block with
    | some b => lines g 0 b
    | none => pure []
  pure ([⟨0, .algorithm⟩, ⟨0, .routing⟩] ++ body)

def render (g : Graph) (block : Option Block) : Except Error Text := do
  let ls ← document g block
  pure (Text.join (ls.map fun l => l.text ++ "\n"))

end Schematic.ElkText
