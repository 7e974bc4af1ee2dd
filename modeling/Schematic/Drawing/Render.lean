import Schematic.Drawing.ElkText
import Schematic.Drawing.Format
import Schematic.Drawing.JsonStyle
import Schematic.Drawing.Mermaid

/-!
The document of a graph in any of the formats.
-/

namespace Schematic

def document {σ : Type} (format : Format) (title : Value) (g : Graph) (block : Option Block) :
    Action σ Text :=
  match format with
  | .debugJson => .of (DebugJson.style.render title g block)
  | .elkJson => .of (ElkJson.style.render title g block)
  | .d3Json => .of (D3Json.style.render title g block)
  | .elkText => .of (ElkText.render g block)
  | .mermaid => do
    let (text, _) ← Mermaid.draw title Mermaid.leftToRight 0 {} g block
    pure text

def render {σ : Type} (format : Format) (title : Value) (g : Graph) : Action σ Text := do
  let _ ← .of g.root
  let text ← document format title g g.block?
  .note .debug .rendering ("Rendered " ++ format.name ++ " document (" ++ toString text.length ++
    " bytes)")
  pure text

end Schematic
