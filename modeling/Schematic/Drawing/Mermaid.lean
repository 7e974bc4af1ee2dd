import Schematic.Action
import Schematic.Drawing.Block

/-!
Diagrams as Mermaid flowcharts: a subgraph for each block, a node for each port, all wires behind
them, and a style for pass-through ports. Labels are freed of the characters that would end them.
-/

namespace Schematic.Mermaid

/-- A code point of a label: double quotes become single ones and line ends become blanks. -/
def sanitisePoint (p : CodePoint) : CodePoint :=
  if p = CodePoint.ofChar '"' then '\'' else if p = CodePoint.ofChar '\n' then ' ' else p

def sanitise (t : Text) : Text := ⟨t.points.map sanitisePoint⟩

/-- Whether a value offers to replace parts of it, though not by texts: raw bytes, and by their own
meaning of the word points in time. -/
def replacesOther : Value → Bool
  | .bytes _ => true
  | .date _ => true
  | .moment _ => true
  | _ => false

def labelOf (v : Value) : Except Error Text :=
  match v.text? with
  | some s => .ok (sanitise s)
  | none => .error (if replacesOther v then .wrongType else .notText)

inductive Statement where
  | rule
  | title (text : Text)
  | graph (way : Text)
  | blank
  | subgraph (id : Nat) (label : Text)
  | runs (way : Text)
  | component (id : Nat) (label : Text)
  | port (id : Text) (direction : Direction) (label : Text)
  | close
  | edge (source : Text) (kind : WireKind) (label target : Text)
  | styleComment
  | styleClass
  | styled (ids : List Text)
  deriving DecidableEq, Repr

namespace Statement

def arrow : WireKind → String
  | .parentChild => "-.->"
  | .childChild => "-->"

def text : Statement → Text
  | rule => "---"
  | title text => "title: " ++ text
  | graph way => "graph " ++ way
  | blank => ""
  | subgraph id label => "subgraph c" ++ toString id ++ "[\"" ++ label ++ "\"]"
  | runs way => "direction " ++ way
  | component id label => "c" ++ toString id ++ "[\"" ++ label ++ "\"]"
  | port id .input label => "p" ++ id ++ "([\"" ++ label ++ "\"])"
  | port id .output label => "p" ++ id ++ "[[\"" ++ label ++ "\"]]"
  | close => "end"
  | edge source kind label target =>
    "p" ++ source ++ " " ++ arrow kind ++ "|" ++ label ++ "| p" ++ target
  | styleComment => "%% Styling"
  | styleClass =>
    "classDef synthesized fill:#F39C12,stroke:#E67E22,color:#fff,stroke-dasharray:5"
  | styled ids =>
    "class " ++ Text.intercalate "," (ids.map fun id => "p" ++ id) ++ " synthesized"

end Statement

/-- A statement at a nesting depth; a depth below zero is no indentation. -/
structure Line where
  depth : Int
  statement : Statement
  deriving DecidableEq, Repr

def Line.text (l : Line) : Text := Text.blanks (4 * l.depth.toNat) ++ l.statement.text

def portStatement (g : Graph) (k : PortKey) : Except Error Statement := do
  let p := g.port k
  let id ← p.id.written
  let label ← labelOf p.basename
  pure (.port id p.direction label)

def wireStatement (g : Graph) (w : NumberedWire) : Except Error Statement := do
  let source ← (g.port w.wire.sourcePort).id.written
  let label ← g.wireLabel w.wire
  let label ← labelOf label
  let target ← (g.port w.wire.targetPort).id.written
  pure (.edge source w.wire.kind label target)

/-- What stands behind the blocks of a flowchart: its wires, and the pass-through ports to be
styled. -/
structure Notes where
  wires : List Statement := []
  styled : List Text := []

def Notes.append (m n : Notes) : Notes := ⟨m.wires ++ n.wires, m.styled ++ n.styled⟩

instance : Append Notes := ⟨Notes.append⟩

def styledId (g : Graph) (k : PortKey) : List Value :=
  if (g.port k).synthesized then [(g.port k).id] else []

mutual

/-- The lines of a block at a depth, and its notes. A block with nothing in it is a plain node. -/
def lines (way : Value) (g : Graph) (depth : Int) : Block → Except Error (List Line × Notes)
  | .mk k ports children wires _ => do
    let c := g.component k
    let declared ← ports.mapM (portStatement g)
    let styled ← (ports.flatMap (styledId g)).mapM Value.written
    let (inner, notes) ← linesOf way g (depth + 1) children
    let wires ← wires.mapM (wireStatement g)
    let notes : Notes := ⟨[], styled⟩ ++ notes ++ ⟨wires, []⟩
    let label ← labelOf c.basename
    if c.isEmpty then pure ([⟨depth, .component c.id label⟩], notes)
    else
      let way ← way.written
      pure
        ([⟨depth, .subgraph c.id label⟩, ⟨depth + 1, .runs way⟩] ++
          declared.map (fun s => ⟨depth + 1, s⟩) ++ inner ++ [⟨depth, .close⟩], notes)

def linesOf (way : Value) (g : Graph) (depth : Int) :
    List Block → Except Error (List Line × Notes)
  | [] => pure ([], {})
  | b :: bs => do
    let (first, notes) ← lines way g depth b
    let (rest, more) ← linesOf way g depth bs
    pure (first ++ rest, notes ++ more)

end

def document (title way : Text) (body : List Line) (notes : Notes) : List Line :=
  [⟨0, .rule⟩, ⟨0, .title title⟩, ⟨0, .rule⟩, ⟨0, .graph way⟩, ⟨0, .blank⟩] ++ body ++
    [⟨0, .blank⟩] ++ notes.wires.map (fun s => ⟨1, s⟩) ++
    (if notes.styled.isEmpty then []
      else [⟨0, .blank⟩, ⟨1, .styleComment⟩, ⟨1, .styleClass⟩, ⟨1, .styled notes.styled⟩])

def textOf (ls : List Line) : Text := Text.join (ls.map fun l => l.text ++ "\n")

/-- Draws a block behind the notes of earlier drawings, at a level of nesting, and answers with the
text and all notes so far. -/
def draw {σ : Type} (title way : Value) (level : Int) (earlier : Notes) (g : Graph)
    (block : Option Block) : Action σ (Text × Notes) := do
  let (body, notes) ← match block with
    | some b => .of (lines way g (level + 1) b)
    | none => pure ([], {})
  let notes := earlier ++ notes
  let title ← .of title.written
  let way ← .of way.written
  .note .debug .mermaid ("Mermaid document: " ++ toString notes.wires.length ++ " edges, " ++
    toString notes.styled.length ++ " pass-through ports")
  pure (textOf (document title way body notes), notes)

def leftToRight : Value := .text "LR"

/-- Draws the same graph several times with one pen, which keeps the notes of all drawings. -/
def drawTimes {σ : Type} (title way : Value) (level : Int) (g : Graph) :
    Nat → Notes → Action σ (List Text)
  | 0, _ => pure []
  | n + 1, notes => do
    let _ ← .of g.root
    let (text, notes) ← draw title way level notes g g.block?
    let rest ← drawTimes title way level g n notes
    pure (text :: rest)

end Schematic.Mermaid
