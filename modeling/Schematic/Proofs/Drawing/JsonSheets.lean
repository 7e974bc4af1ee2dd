import Schematic.Proofs.Drawing.Layout

/-! The sheets that a JSON document shows, read off the document alone: its blocks with the ports
declared in them and the edges that stand in them. One style says of an edge also which blocks it
joins. All styles show the sheets of the graph. -/

namespace Schematic

open Sheet

variable {g : Graph}

namespace Json

/-- The blocks that an edge names besides the ports, in the style that has them. -/
def owners? (members : List (Text × Json)) : Option (Json × Json) :=
  match member? members "source", member? members "target" with
  | some source, some target => some (source, target)
  | _, _ => none

def edge? : Json → Option (Joint Json Json)
  | .object members =>
    match drawnAs? members with
    | some (.wire _ source target) => some ⟨source, target, owners? members⟩
    | _ => none
  | _ => none

def entries : Json → List Json
  | .array js => js
  | _ => []

/-- The edges that stand in a block, whatever the member that lists them is called. -/
def edgesIn (members : List (Text × Json)) : List (Joint Json Json) :=
  members.flatMap fun m => m.2.entries.filterMap edge?

mutual

def sheets : Json → List (Sheet Json Json (Joint Json Json))
  | .object members =>
    match drawnAs? members with
    | some (.block id ports) => [.block id ports (edgesIn members) (sheetsIn members)]
    | _ => sheetsIn members
  | .array js => sheetsAmong js
  | _ => []

def sheetsAmong : List Json → List (Sheet Json Json (Joint Json Json))
  | [] => []
  | j :: js => sheets j ++ sheetsAmong js

def sheetsIn : List (Text × Json) → List (Sheet Json Json (Joint Json Json))
  | [] => []
  | (_, j) :: rest => sheets j ++ sheetsIn rest

end

theorem sheetsIn_append (ms ns : List (Text × Json)) :
    sheetsIn (ms ++ ns) = sheetsIn ms ++ sheetsIn ns := by
  induction ms with
  | nil => rfl
  | cons m ms ih => rw [List.cons_append, sheetsIn, ih, sheetsIn, List.append_assoc]

mutual

/-- What draws no block shows no sheets. -/
theorem sheets_eq_nil : ∀ j : Json, j.drawn.filterMap Drawn.block? = [] → j.sheets = []
  | .object members, bare => by
    rw [drawn, List.filterMap_append, List.append_eq_nil_iff] at bare
    have below := sheetsIn_eq_nil members bare.2
    cases found : drawnAs? members with
    | none => simp only [sheets, found, below]
    | some d =>
      rw [found] at bare
      cases d with
      | block id ports => cases bare.1
      | wire id source target | other id => simp only [sheets, found, below]
  | .array js, bare => by
    rw [drawn] at bare
    exact sheetsAmong_eq_nil js bare
  | .null, _ | .bool _, _ | .int _, _ | .float _, _ | .notANumber, _ | .text _, _ | .gap _, _ => by
    simp only [sheets]

theorem sheetsAmong_eq_nil : ∀ js : List Json,
    (drawnAmong js).filterMap Drawn.block? = [] → sheetsAmong js = []
  | [], _ => rfl
  | j :: js, bare => by
    rw [drawnAmong, List.filterMap_append, List.append_eq_nil_iff] at bare
    rw [sheetsAmong, sheets_eq_nil j bare.1, sheetsAmong_eq_nil js bare.2, List.append_nil]

theorem sheetsIn_eq_nil : ∀ members : List (Text × Json),
    (drawnIn members).filterMap Drawn.block? = [] → sheetsIn members = []
  | [], _ => rfl
  | (_, j) :: rest, bare => by
    rw [drawnIn, List.filterMap_append, List.append_eq_nil_iff] at bare
    rw [sheetsIn, sheets_eq_nil j bare.1, sheetsIn_eq_nil rest bare.2, List.append_nil]

end

theorem IsPlain.sheets_eq {j : Json} (plain : j.IsPlain) : j.sheets = [] :=
  sheets_eq_nil j (congrArg (List.filterMap Drawn.block?) plain)

/-- What is an edge draws nothing before itself. -/
theorem drawn_of_edge {j : Json} {e : Joint Json Json} (edge : j.edge? = some e) :
    ∃ id rest, j.drawn = .wire id e.source e.target :: rest := by
  cases j with
  | object members =>
    simp only [edge?] at edge
    split at edge
    · next id source target found =>
      cases edge
      exact ⟨id, drawnIn members, by rw [drawn, found]; rfl⟩
    · cases edge
  | _ => cases edge

theorem edge?_of_block {j : Json} {id : Json} {ports : List Json} {rest : List Drawn}
    (block : j.drawn = .block id ports :: rest) : j.edge? = none := by
  cases found : j.edge? with
  | none => rfl
  | some e =>
    obtain ⟨number, rest', edge⟩ := drawn_of_edge found
    cases edge.symm.trans block

/-- Where no wires are drawn no edges stand. -/
theorem edges_eq_nil {js : List Json} (unwired : (drawnAmong js).filterMap Drawn.wire? = []) :
    js.filterMap edge? = [] := by
  induction js with
  | nil => rfl
  | cons j js ih =>
    rw [drawnAmong, List.filterMap_append, List.append_eq_nil_iff] at unwired
    cases found : j.edge? with
    | none => rw [List.filterMap_cons_none found, ih unwired.2]
    | some e =>
      obtain ⟨id, rest, edge⟩ := drawn_of_edge found
      rw [edge] at unwired
      cases unwired.1

theorem IsPlain.edges_eq {j : Json} (plain : j.IsPlain) : j.entries.filterMap edge? = [] := by
  cases j with
  | array js =>
    rw [IsPlain, drawn] at plain
    exact edges_eq_nil (congrArg (List.filterMap Drawn.wire?) plain)
  | _ => rfl

theorem edgesIn_append (ms ns : List (Text × Json)) :
    edgesIn (ms ++ ns) = edgesIn ms ++ edgesIn ns := List.flatMap_append

end Json

open Json

/-- How a style shows sheets: a wire as an edge in words of its own, and a block with its ports, its
edges and what is inside it. -/
structure JsonStyle.Lays (style : JsonStyle) (g : Graph) (joint : Wire → Joint Json Json) : Prop
    extends style.Numbers g where
  edge : ∀ {w j}, style.wire g w = .ok j → j.edge? = some (joint w.wire)
  block : ∀ k ∈ g.roster, ∀ ports children wires last,
    ports.filterMap edge? = [] → children.filterMap edge? = [] → sheetsAmong ports = [] →
      sheetsAmong wires = [] → (style.node g k ports children wires last).sheets =
        [.block (componentRef g k) (ports.map idOf) (wires.filterMap edge?) (sheetsAmong children)]
  outer : ∀ (title : Json) (root : Option Json), title.IsPlain →
    (style.document title root).sheets = sheetsAmong root.toList

section

variable {k : ComponentKey} {w : NumberedWire} {j : Json}

def fullJoint (g : Graph) (w : Wire) : Joint Json Json := w.joint.map (componentRef g) g.portNumber

def shortJoint (g : Graph) (w : Wire) : Joint Json Json := (fullJoint g w).nameless

theorem sheets_document {style : JsonStyle} {title : Json} {root : Option Json}
    (plain : title.IsPlain) (closing : sheetsIn (style.closing title) = [])
    (top : drawnAs? (([("id", .text "0"), ("labels", JsonStyle.label title),
      ("layoutOptions", .object [("algorithm", .text "layered")]),
      ("children", .array root.toList), ("edges", .array [])] : List (Text × Json)) ++
        style.closing title) = some (.other (numeral 0))) :
    (style.document title root).sheets = sheetsAmong root.toList := by
  have label := (isPlain_label plain).sheets_eq
  rw [JsonStyle.document, sheets, top]
  dsimp only
  rw [sheetsIn_append, closing]
  have options : (Json.object [("algorithm", .text "layered")]).sheets = [] := rfl
  simp only [sheetsIn, label, options]
  simp only [sheets, sheetsAmong, List.append_nil, List.nil_append]

namespace ElkJson

theorem edge_wire (done : wire g w = .ok j) : j.edge? = some (shortJoint g w.wire) := by
  obtain ⟨source, found, done⟩ := exists_of_bind_ok done
  obtain ⟨target, found', done⟩ := exists_of_bind_ok done
  cases done
  cases Graph.portRef_ok found
  cases Graph.portRef_ok found'
  rfl

theorem edgesIn_nodeMembers (words : g.IsLettered) (hk : k ∈ g.roster)
    {ports children wires : List Json} (portless : ports.filterMap edge? = [])
    (childless : children.filterMap edge? = []) :
    edgesIn (nodeMembers g k ports children wires) = wires.filterMap edge? := by
  have shown := (isPlain_label (isPlain_ofValue (.inl (words.label k hk).basename))).edges_eq
  simp only [Graph.label] at shown
  simp only [edgesIn, nodeMembers, List.flatMap_cons, List.flatMap_nil, shown]
  simp only [entries, componentRef, portless, childless, List.filterMap_nil, List.nil_append,
    List.append_nil]

theorem sheetsIn_nodeMembers (words : g.IsLettered) (hk : k ∈ g.roster)
    {ports wires : List Json} (bare : sheetsAmong ports = []) (bare' : sheetsAmong wires = [])
    (children : List Json) :
    sheetsIn (nodeMembers g k ports children wires) = sheetsAmong children := by
  have shown := (isPlain_label (isPlain_ofValue (.inl (words.label k hk).basename))).sheets_eq
  simp only [Graph.label] at shown
  simp only [nodeMembers, sheetsIn, sheets, componentRef, shown, bare, bare', List.nil_append,
    List.append_nil]

theorem lays (hg : g.Coherent) (words : g.IsLettered) : style.Lays g (shortJoint g) where
  toNumbers := numbers hg words
  edge := edge_wire
  block := by
    intro k hk ports children wires last portless childless bare bare'
    have block : drawnAs? (nodeMembers g k ports children wires) =
      some (.block (componentRef g k) (ports.map idOf)) := rfl
    have node : style.node g k ports children wires last =
      .object (nodeMembers g k ports children wires) := rfl
    rw [node, sheets, block]
    dsimp only
    rw [edgesIn_nodeMembers words hk portless childless, sheetsIn_nodeMembers words hk bare bare']
  outer := fun _ _ plain => sheets_document plain rfl rfl

end ElkJson

namespace DebugJson

theorem lays (hg : g.Coherent) (words : g.IsLettered) : style.Lays g (shortJoint g) where
  toNumbers := numbers hg words
  edge := ElkJson.edge_wire
  block := by
    intro k hk ports children wires last portless childless bare bare'
    have block : drawnAs? (ElkJson.nodeMembers g k ports children wires ++ nodeExtras g k) =
      some (.block (componentRef g k) (ports.map idOf)) := rfl
    have node : style.node g k ports children wires last =
      .object (ElkJson.nodeMembers g k ports children wires ++ nodeExtras g k) := rfl
    have basename := isPlain_ofValue (.inl (words.label k hk).basename)
    have typeName := isPlain_ofValue (.inl (words.label k hk).typeName)
    simp only [Graph.label] at basename typeName
    have edges : edgesIn (nodeExtras g k) = [] := by
      simp only [edgesIn, nodeExtras, List.flatMap_cons, List.flatMap_nil, basename.edges_eq,
        typeName.edges_eq]
      rfl
    have inner : sheetsIn (nodeExtras g k) = [] := by
      simp [sheetsIn, nodeExtras, basename.sheets_eq, typeName.sheets_eq, sheets]
    rw [node, sheets, block]
    dsimp only
    rw [edgesIn_append, sheetsIn_append, edges, inner, List.append_nil, List.append_nil,
      ElkJson.edgesIn_nodeMembers words hk portless childless,
      ElkJson.sheetsIn_nodeMembers words hk bare bare']
  outer := fun _ _ plain => sheets_document plain rfl rfl

end DebugJson

namespace D3Json

theorem edge_wire (done : wire g w = .ok j) : j.edge? = some (fullJoint g w.wire) := by
  obtain ⟨source, found, done⟩ := exists_of_bind_ok done
  obtain ⟨target, found', done⟩ := exists_of_bind_ok done
  obtain ⟨label, -, done⟩ := exists_of_bind_ok done
  cases done
  cases Graph.portRef_ok found
  cases Graph.portRef_ok found'
  rfl

theorem sheets_node (words : g.IsLettered) (hk : k ∈ g.roster) {ports children wires : List Json}
    (portless : ports.filterMap edge? = []) (childless : children.filterMap edge? = [])
    (bare : sheetsAmong ports = []) (bare' : sheetsAmong wires = []) (last : Int) :
    (node g k ports children wires last).sheets =
      [.block (componentRef g k) (ports.map idOf) (wires.filterMap edge?)
        (sheetsAmong children)] := by
  have basename := (isPlain_ofValue (.inl (words.label k hk).basename)).sheets_eq
  have typeName := (isPlain_ofValue (.inl (words.label k hk).typeName)).sheets_eq
  simp only [Graph.label] at basename typeName
  have block (mark : Text) (a b c d : Json) : drawnAs? [("id", componentRef g k),
    ("ports", .array ports), (mark ++ "children", a), (mark ++ "edges", b), ("hwMeta", c),
    ("properties", d)] = some (.block (componentRef g k) (ports.map idOf)) := rfl
  have shape (a b c d : Json) : drawnAs? [("name", a), ("cls", b), ("maxId", c),
    ("isExternalPort", d)] = none := rfl
  have fixed : (properties "FIXED_SIDE").sheets = [] := rfl
  have id : (componentRef g k).sheets = [] := rfl
  rw [node, sheets]
  simp only [block, sheetsIn, id, fixed]
  simp only [sheets, sheetsIn, shape, basename, typeName, bare, bare', List.nil_append,
    List.append_nil]
  simp [edgesIn, entries, componentRef, properties, portless, childless]

theorem lays (hg : g.Coherent) (words : g.IsLettered) : style.Lays g (fullJoint g) where
  toNumbers := numbers hg words
  edge := edge_wire
  block := fun _ hk _ _ _ last portless childless bare bare' =>
    sheets_node words hk portless childless bare bare' last
  outer := by
    intro title root plain
    have closing : sheetsIn (style.closing title) = [] := by
      have shown := plain.sheets_eq
      have shape (a b c : Json) : drawnAs? [("cls", a), ("maxId", b), ("name", c)] = none := rfl
      have fixed : (properties "FIXED_ORDER").sheets = [] := rfl
      simp only [style, sheetsIn, fixed]
      simp only [sheets, sheetsIn, shape, shown, List.append_nil]
    exact sheets_document plain closing rfl

end D3Json

namespace JsonStyle.Numbers

variable {style : JsonStyle}

theorem sheets_ports (law : style.Numbers g) {qs : List PortKey} {js : List Json}
    (known : ∀ q ∈ qs, q ∈ g.ports) (done : qs.mapM (style.port g) = .ok js) :
    sheetsAmong js = [] := by
  apply sheetsAmong_eq_nil
  rw [(law.drawn_ports known done).2, List.filterMap_map]
  exact List.filterMap_eq_nil_iff.mpr fun _ _ => rfl

theorem edges_ports (law : style.Numbers g) {qs : List PortKey} {js : List Json}
    (known : ∀ q ∈ qs, q ∈ g.ports) (done : qs.mapM (style.port g) = .ok js) :
    js.filterMap edge? = [] := by
  apply edges_eq_nil
  rw [(law.drawn_ports known done).2, List.filterMap_map]
  exact List.filterMap_eq_nil_iff.mpr fun _ _ => rfl

theorem sheets_wires (law : style.Numbers g) {ws : List NumberedWire} {js : List Json}
    (known : ∀ w ∈ ws, w.wire.sourcePort ∈ g.ports ∧ w.wire.targetPort ∈ g.ports)
    (done : ws.mapM (style.wire g) = .ok js) : sheetsAmong js = [] := by
  apply sheetsAmong_eq_nil
  rw [law.drawn_wires known done, List.filterMap_map]
  exact List.filterMap_eq_nil_iff.mpr fun _ _ => rfl

end JsonStyle.Numbers

namespace JsonStyle.Lays

variable {style : JsonStyle} {joint : Wire → Joint Json Json}

theorem edges_eq (law : style.Lays g joint) {ws : List NumberedWire} {js : List Json}
    (done : ws.mapM (style.wire g) = .ok js) :
    js.filterMap edge? = (ws.map NumberedWire.wire).map joint := by
  have each := forall₂_of_mapM done
  clear done
  induction each with
  | nil => rfl
  | cons found _ ih =>
    rw [List.filterMap_cons_some (law.edge found), ih]
    rfl

mutual

/-- What is drawn of a tree shows the sheets of the tree. -/
theorem sheets_draw (law : style.Lays g joint) (hg : g.Coherent) : ∀ (o : Outline)
    (n : Numbering) (j : Json), o.Unfolds g → style.draw g (Block.ofOutline g n o).1 = .ok j →
      j.sheets = mapAll (componentRef g) g.portNumber joint (o.sheets g fun _ => true) ∧
        j.edge? = none
  | .node k os, n, j, unfolds, done => by
    have hk := unfolds.1
    rw [Graph.ofOutline_node] at done
    obtain ⟨ports, children, wires, portsDone, childrenDone, wiresDone, rfl⟩ := exists_of_draw done
    have listed : ∀ q ∈ g.portsOf k, q ∈ g.ports := fun q hq => hg.mem_ports.mpr ⟨k, hk, hq⟩
    have owned : ∀ w ∈ ((Block.ofOutlines g n os).2.wires (g.wires k)).1,
        w.wire.sourcePort ∈ g.ports ∧ w.wire.targetPort ∈ g.ports := fun w hw =>
      (hg.lies hk (Numbering.wire_mem hw)).ends hg
    have ids := (law.drawn_ports listed portsDone).1
    have bare := law.sheets_ports listed portsDone
    have bare' := law.sheets_wires owned wiresDone
    have portless := law.edges_ports listed portsDone
    obtain ⟨inner, childless⟩ := sheets_drawAll law hg os n children unfolds.2.2 childrenDone
    refine ⟨?_, edge?_of_block (law.node k hk _ _ _ _)⟩
    rw [law.block k hk _ _ _ _ portless childless bare bare', ids, inner, law.edges_eq wiresDone,
      Numbering.map_wire_wires]
    rfl

theorem sheets_drawAll (law : style.Lays g joint) (hg : g.Coherent) : ∀ (os : List Outline)
    (n : Numbering) (js : List Json), Outline.UnfoldAll g os →
      style.drawAll g (Block.ofOutlines g n os).1 = .ok js →
        sheetsAmong js =
            mapAll (componentRef g) g.portNumber joint (Outline.sheetsAll g (fun _ => true) os) ∧
          js.filterMap edge? = []
  | [], _, _, _, done => by
    cases done
    exact ⟨rfl, rfl⟩
  | o :: os, n, js, unfold, done => by
    rw [Graph.ofOutlines_cons] at done
    obtain ⟨j, rest, first, later, rfl⟩ := exists_of_drawAll done
    obtain ⟨here, none⟩ := sheets_draw law hg o n j unfold.1 first
    obtain ⟨there, none'⟩ := sheets_drawAll law hg os _ rest unfold.2 later
    rw [sheetsAmong, here, there, Outline.sheetsAll, mapAll_append, List.filterMap_cons_none none]
    exact ⟨rfl, none'⟩

end

/-- A document around the tree of a graph shows the sheets of the graph. -/
theorem sheets_document (law : style.Lays g joint) (hg : g.Coherent) {o : Outline} {root : Json}
    (outlined : g.outline = some o)
    (drawing : style.draw g (Block.ofOutline g ⟨g.lastId⟩ o).1 = .ok root) (title : Text) :
    (style.document (.ofValue (.text title)) (some root)).sheets =
      mapAll (componentRef g) g.portNumber joint (g.sheets fun _ => true) := by
  have plain := isPlain_ofValue (v := .text title) (.inl ⟨title, rfl⟩)
  obtain ⟨shown, -⟩ := law.sheets_draw hg o ⟨g.lastId⟩ root (hg.unfolds outlined) drawing
  rw [law.outer _ (some root) plain, Option.toList_some, sheetsAmong, sheetsAmong, shown,
    List.append_nil, Graph.sheets_of_outline outlined]

end JsonStyle.Lays

end

end Schematic
