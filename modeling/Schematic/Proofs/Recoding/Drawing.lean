import Schematic.Drawing.Render
import Schematic.Proofs.Recoding.Inference

/-! Diagrams of a graph with other identities. The same wires are drawn under the same labels, and
the formats that show no identities make the same documents. -/

namespace Schematic

namespace Graph

variable {c : Recoding} {g : Graph}

theorem wires_recoded (known : g.IsKnown c) (k : ComponentKey) :
    (g.recoded c).wires k = g.wires k := by
  have isInput (p : PortKey) : ((g.recoded c).port p).isInput = (g.port p).isInput := by
    rw [port_recoded]
    rfl
  simp only [wires, boundaryWires, innerWires, connects_recoded known, isBound_recoded known,
    isInput]
  rfl

theorem wireLabel_recoded (c : Recoding) (g : Graph) (w : Wire) :
    (g.recoded c).wireLabel w = g.wireLabel w := by
  rw [wireLabel, port_recoded, port_recoded]
  rfl

mutual

theorem ofOutline_recoded (known : g.IsKnown c) : ∀ (o : Outline) (n : Numbering),
    Block.ofOutline (g.recoded c) n o = Block.ofOutline g n o
  | .node k below, n => by
    rw [Block.ofOutline, Block.ofOutline, ofOutlines_recoded known below, wires_recoded known]
    rfl

theorem ofOutlines_recoded (known : g.IsKnown c) : ∀ (os : List Outline) (n : Numbering),
    Block.ofOutlines (g.recoded c) n os = Block.ofOutlines g n os
  | [], _ => rfl
  | o :: os, n => by
    rw [Block.ofOutlines, Block.ofOutlines, ofOutline_recoded known o]
    simp only [ofOutlines_recoded known os]

end

theorem block?_recoded (known : g.IsKnown c) : (g.recoded c).block? = g.block? := by
  rw [block?, block?, outline_recoded]
  simp only [ofOutline_recoded known]
  rfl

theorem blockHeight_recoded (c : Recoding) (g : Graph) (k : ComponentKey) :
    (g.recoded c).blockHeight k = g.blockHeight k := by
  simp only [blockHeight, portCounts, port_recoded]
  rfl

end Graph

section Formats

variable {c : Recoding} {g : Graph}

theorem portRef_recoded (c : Recoding) (g : Graph) (k : PortKey) :
    portRef (g.recoded c) k = portRef g k := by
  rw [portRef, portRef, Graph.port_recoded]
  rfl

namespace JsonStyle

variable {style : JsonStyle} {h : Graph}

mutual

theorem draw_congr (port : style.port h = style.port g) (wire : style.wire h = style.wire g)
    (node : style.node h = style.node g) : ∀ b, style.draw h b = style.draw g b
  | .mk k ports children wires last => by
    rw [draw, draw, port, wire, node, drawAll_congr port wire node children]

theorem drawAll_congr (port : style.port h = style.port g) (wire : style.wire h = style.wire g)
    (node : style.node h = style.node g) : ∀ bs, style.drawAll h bs = style.drawAll g bs
  | [] => rfl
  | b :: bs => by
    rw [drawAll, drawAll, draw_congr port wire node b, drawAll_congr port wire node bs]

end

theorem render_congr (port : style.port h = style.port g) (wire : style.wire h = style.wire g)
    (node : style.node h = style.node g) (title : Value) (block : Option Block) :
    style.render title h block = style.render title g block := by
  rw [render, render, funext (draw_congr port wire node)]

end JsonStyle

namespace ElkJson

theorem portMembers_recoded (c : Recoding) (g : Graph) (k : PortKey) :
    portMembers (g.recoded c) k = portMembers g k := by
  rw [portMembers, portMembers, portRef_recoded, Graph.port_recoded]
  rfl

theorem wire_recoded (c : Recoding) (g : Graph) : wire (g.recoded c) = wire g := by
  funext w
  rw [wire, wire, portRef_recoded, portRef_recoded]

theorem nodeMembers_recoded (c : Recoding) (g : Graph) :
    nodeMembers (g.recoded c) = nodeMembers g := by
  funext k ports children wires
  rw [nodeMembers, Graph.blockHeight_recoded]
  rfl

theorem render_recoded (c : Recoding) (g : Graph) (title : Value) (block : Option Block) :
    style.render title (g.recoded c) block = style.render title g block := by
  refine JsonStyle.render_congr ?_ (wire_recoded c g) ?_ title block
  · funext k
    exact congrArg (Json.object <$> ·) (portMembers_recoded c g k)
  · funext k ports children wires last
    exact congrArg Json.object (by rw [nodeMembers_recoded])

end ElkJson

namespace D3Json

theorem render_recoded (c : Recoding) (g : Graph) (title : Value) (block : Option Block) :
    style.render title (g.recoded c) block = style.render title g block := by
  refine JsonStyle.render_congr ?_ ?_ ?_ title block
  · funext k
    change port (g.recoded c) k = port g k
    rw [port, port, portRef_recoded, Graph.port_recoded]
    rfl
  · funext w
    change wire (g.recoded c) w = wire g w
    rw [wire, wire, portRef_recoded, portRef_recoded, Graph.wireLabel_recoded]
    rfl
  · rfl

end D3Json

namespace ElkText

theorem portStatement_recoded (c : Recoding) (g : Graph) :
    portStatement (g.recoded c) = portStatement g := by
  funext k
  rw [portStatement, portStatement, Graph.port_recoded]
  rfl

theorem wireStatement_recoded (c : Recoding) (g : Graph) :
    wireStatement (g.recoded c) = wireStatement g := by
  funext w
  rw [wireStatement, wireStatement, Graph.port_recoded, Graph.port_recoded]
  rfl

mutual

theorem lines_recoded (c : Recoding) (g : Graph) : ∀ (b : Block) (depth : Nat),
    lines (g.recoded c) depth b = lines g depth b
  | .mk k ports children wires last, depth => by
    rw [lines, lines, portStatement_recoded, wireStatement_recoded, linesOf_recoded c g children,
      Graph.blockHeight_recoded, Graph.component_recoded]

theorem linesOf_recoded (c : Recoding) (g : Graph) : ∀ (bs : List Block) (depth : Nat),
    linesOf (g.recoded c) depth bs = linesOf g depth bs
  | [], _ => rfl
  | b :: bs, depth => by
    rw [linesOf, linesOf, lines_recoded c g b, linesOf_recoded c g bs]

end

theorem render_recoded (c : Recoding) (g : Graph) (block : Option Block) :
    render (g.recoded c) block = render g block := by
  cases block with
  | none => rfl
  | some b => rw [render, render, document, document, lines_recoded]

end ElkText

namespace Mermaid

theorem portStatement_recoded (c : Recoding) (g : Graph) :
    portStatement (g.recoded c) = portStatement g := by
  funext k
  rw [portStatement, portStatement, Graph.port_recoded]
  rfl

theorem wireStatement_recoded (c : Recoding) (g : Graph) :
    wireStatement (g.recoded c) = wireStatement g := by
  funext w
  rw [wireStatement, wireStatement, Graph.port_recoded, Graph.port_recoded,
    Graph.wireLabel_recoded]
  rfl

theorem styledId_recoded (c : Recoding) (g : Graph) : styledId (g.recoded c) = styledId g := by
  funext k
  rw [styledId, Graph.port_recoded]
  rfl

mutual

theorem lines_recoded (way : Value) (c : Recoding) (g : Graph) : ∀ (b : Block) (depth : Int),
    lines way (g.recoded c) depth b = lines way g depth b
  | .mk k ports children wires last, depth => by
    rw [lines, lines, portStatement_recoded, wireStatement_recoded, styledId_recoded,
      linesOf_recoded way c g children, Graph.component_recoded]

theorem linesOf_recoded (way : Value) (c : Recoding) (g : Graph) :
    ∀ (bs : List Block) (depth : Int), linesOf way (g.recoded c) depth bs = linesOf way g depth bs
  | [], _ => rfl
  | b :: bs, depth => by
    rw [linesOf, linesOf, lines_recoded way c g b, linesOf_recoded way c g bs]

end

theorem draw_recoded {σ : Type} (title way : Value) (level : Int) (earlier : Notes) (c : Recoding)
    (g : Graph) (block : Option Block) : (draw title way level earlier (g.recoded c) block :
      Action σ (Text × Notes)) = draw title way level earlier g block := by
  cases block with
  | none => rfl
  | some b => rw [draw, draw, lines_recoded]

end Mermaid

/-- Diagrams that show no identities do not depend on them. -/
theorem render_recoded {σ : Type} (known : g.IsKnown c) {format : Format}
    (silent : format ≠ .debugJson) (title : Value) :
    (render format title (g.recoded c) : Action σ Text) = render format title g := by
  have same : (document format title (g.recoded c) g.block? : Action σ Text) =
      document format title g g.block? := by
    cases format with
    | debugJson => exact absurd rfl silent
    | elkJson => exact congrArg Action.of (ElkJson.render_recoded c g title _)
    | d3Json => exact congrArg Action.of (D3Json.render_recoded c g title _)
    | elkText => exact congrArg Action.of (ElkText.render_recoded c g _)
    | mermaid => rw [document, document, Mermaid.draw_recoded]
  rw [render, render, Graph.block?_recoded known, same]
  rfl

end Formats

end Schematic
