import Schematic.Drawing.Block
import Schematic.Error
import Schematic.Json.Printer

/-!
Diagrams as JSON documents. The formats of this family nest blocks in the same way and differ in
what they say of a port, a wire and a block.
-/

namespace Schematic

/-- How a JSON format describes the parts of a diagram. -/
structure JsonStyle where
  port : Graph → PortKey → Except Error Json
  wire : Graph → NumberedWire → Except Error Json
  node : Graph → ComponentKey → (ports children wires : List Json) → (last : Int) → Json
  closing : Json → List (Text × Json)

namespace JsonStyle

mutual

def draw (style : JsonStyle) (g : Graph) : Block → Except Error Json
  | .mk k ports children wires last => do
    let ports ← ports.mapM (style.port g)
    let children ← drawAll style g children
    let wires ← wires.mapM (style.wire g)
    pure (style.node g k ports children wires last)

def drawAll (style : JsonStyle) (g : Graph) : List Block → Except Error (List Json)
  | [] => pure []
  | b :: bs => do
    let first ← draw style g b
    let rest ← drawAll style g bs
    pure (first :: rest)

end

def label (text : Json) : Json := .array [.object [("text", text)]]

def document (style : JsonStyle) (title : Json) (root : Option Json) : Json :=
  let members : List (Text × Json) :=
    [("id", .text "0"),
      ("labels", label title),
      ("layoutOptions", .object [("algorithm", .text "layered")]),
      ("children", .array root.toList),
      ("edges", .array [])]
  .object (members ++ style.closing title)

/-- The text of the document of a graph's block. The block is drawn before any of it is written. -/
def render (style : JsonStyle) (title : Value) (g : Graph) (block : Option Block) :
    Except Error Text := do
  let root ← block.mapM (style.draw g)
  match (style.document (.ofValue title) root).render 4 with
  | .ok s => .ok (s ++ "\n")
  | .error fault => .error (.ofJson fault)

end JsonStyle

def portRef (g : Graph) (k : PortKey) : Except Error Json := do
  let id ← (g.port k).id.written
  pure (.text id)

def componentRef (g : Graph) (k : ComponentKey) : Json := .text (toString (g.component k).id)

namespace ElkJson

def portMembers (g : Graph) (k : PortKey) : Except Error (List (Text × Json)) := do
  let p := g.port k
  let id ← portRef g k
  pure
    [("id", id),
      ("labels", JsonStyle.label (.ofValue p.basename)),
      ("width", .int 6),
      ("height", .int 6),
      ("layoutOptions", .object [("port.side", .text p.side)])]

def wire (g : Graph) (w : NumberedWire) : Except Error Json := do
  let source ← portRef g w.wire.sourcePort
  let target ← portRef g w.wire.targetPort
  pure (.object
    [("id", .text w.number), ("sources", .array [source]), ("targets", .array [target])])

def nodeMembers (g : Graph) (k : ComponentKey) (ports children wires : List Json) :
    List (Text × Json) :=
  [("id", componentRef g k),
    ("ports", .array ports),
    ("children", .array children),
    ("edges", .array wires),
    ("labels", JsonStyle.label (.ofValue (g.component k).basename)),
    ("width", .int 50),
    ("height", .int (g.blockHeight k))]

def style : JsonStyle where
  port g k := .object <$> portMembers g k
  wire := wire
  node g k ports children wires _ := .object (nodeMembers g k ports children wires)
  closing _ := []

end ElkJson

namespace DebugJson

/-- Whether a document shows an identity as it is: texts, numbers, truth values and null. -/
def isShownAsIs (v : Value) : Bool := v.isNull || v.isNumber || v.text?.isSome

/-- An identity as a document shows it: as it is, or else by its quoted text. -/
def identityValue (v : Value) : Except Error Value :=
  if isShownAsIs v then .ok v
  else if v.isWritable then .ok (.text v.quoted)
  else .error .tooLongToWrite

def portExtras (g : Graph) (k : PortKey) : Except Error (List (Text × Json)) := do
  let p := g.port k
  let identity ← identityValue p.identity
  pure
    [("type", .ofValue p.typeName),
      ("input", .bool p.isInput),
      ("interface", .ofValue identity),
      ("synthesized", .bool p.synthesized)]

def port (g : Graph) (k : PortKey) : Except Error Json := do
  let members ← ElkJson.portMembers g k
  let extras ← portExtras g k
  pure (.object (members ++ extras))

def nodeExtras (g : Graph) (k : ComponentKey) : List (Text × Json) :=
  let c := g.component k
  [("name", .ofValue c.basename),
    ("type", .ofValue c.typeName),
    ("topmodule", .bool c.isRoot)]

def style : JsonStyle where
  port := port
  wire := ElkJson.wire
  node g k ports children wires _ :=
    .object (ElkJson.nodeMembers g k ports children wires ++ nodeExtras g k)
  closing _ := []

end DebugJson

namespace D3Json

def port (g : Graph) (k : PortKey) : Except Error Json := do
  let p := g.port k
  let id ← portRef g k
  pure (.object
    [("id", id),
      ("direction", .text p.direction.symbol),
      ("hwMeta", .object [("name", .ofValue p.basename), ("connectedAsParent", .bool false)]),
      ("properties", .object [("side", .text p.side)]),
      ("children", .array [])])

def wire (g : Graph) (w : NumberedWire) : Except Error Json := do
  let source ← portRef g w.wire.sourcePort
  let target ← portRef g w.wire.targetPort
  let label ← g.wireLabel w.wire
  pure (.object
    [("id", .text w.number),
      ("source", componentRef g w.wire.source),
      ("sourcePort", source),
      ("target", componentRef g w.wire.target),
      ("targetPort", target),
      ("hwMeta", .object [("name", .ofValue label)])])

def properties (constraint : String) : Json :=
  .object
    [("org.eclipse.elk.layered.mergeEdges", .int 1),
      ("org.eclipse.elk.portConstraints", .text constraint)]

/-- A block. All but roots start folded, which is said by the names of two members. -/
def node (g : Graph) (k : ComponentKey) (ports children wires : List Json) (last : Int) : Json :=
  let c := g.component k
  let mark : Text := if c.isRoot then "" else "_"
  .object
    [("id", componentRef g k),
      ("ports", .array ports),
      (mark ++ "children", .array children),
      (mark ++ "edges", .array wires),
      ("hwMeta", .object
        [("name", .ofValue c.basename),
          ("cls", .ofValue c.typeName),
          ("maxId", .int last),
          ("isExternalPort", .bool false)]),
      ("properties", properties "FIXED_SIDE")]

def style : JsonStyle where
  port := port
  wire := wire
  node := node
  closing title :=
    [("hwMeta", .object [("cls", .null), ("maxId", .int 65536), ("name", title)]),
      ("properties", properties "FIXED_ORDER")]

end D3Json

end Schematic
