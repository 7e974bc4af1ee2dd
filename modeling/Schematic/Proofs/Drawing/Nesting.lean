import Schematic.Proofs.Drawing.JsonSheets

/-! How the styles relate. All of them nest the same blocks with the same ports, whatever they call
the members that hold them, and one style is another one with more members in blocks and ports. -/

namespace Schematic

/-- A block of a document by its identifier, with those of its ports and the blocks inside it. -/
inductive Nest where
  | node (id : Json) (ports : List Json) (inner : List Nest)

namespace Sheet

variable {ω : Type}

mutual

def nest : Sheet Json Json ω → Nest
  | block id ports _ inner => .node id ports (nestAll inner)

def nestAll : List (Sheet Json Json ω) → List Nest
  | [] => []
  | s :: ss => nest s :: nestAll ss

end

theorem nestAll_eq (ss : List (Sheet Json Json ω)) : nestAll ss = ss.map nest := by
  induction ss with
  | nil => rfl
  | cons s ss ih => rw [nestAll, ih, List.map_cons]

end Sheet

namespace Json

mutual

def nests : Json → List Nest
  | .object members =>
    match drawnAs? members with
    | some (.block id ports) => [.node id ports (nestsIn members)]
    | _ => nestsIn members
  | .array js => nestsAmong js
  | _ => []

def nestsAmong : List Json → List Nest
  | [] => []
  | j :: js => nests j ++ nestsAmong js

def nestsIn : List (Text × Json) → List Nest
  | [] => []
  | (_, j) :: rest => nests j ++ nestsIn rest

end

mutual

/-- The nested blocks are those of the sheets, which show the edges as well. -/
theorem nests_eq : ∀ j : Json, j.nests = j.sheets.map Sheet.nest
  | .object members => by
    cases found : drawnAs? members with
    | none => simp only [nests, sheets, found, nestsIn_eq members]
    | some d =>
      cases d with
      | block id ports =>
        simp only [nests, sheets, found, nestsIn_eq members, List.map_cons, List.map_nil,
          Sheet.nest, Sheet.nestAll_eq]
      | wire id source target | other id => simp only [nests, sheets, found, nestsIn_eq members]
  | .array js => by rw [nests, sheets, nestsAmong_eq js]
  | .null | .bool _ | .int _ | .float _ | .notANumber | .text _ | .gap _ => by
    simp only [nests, sheets, List.map_nil]

theorem nestsAmong_eq : ∀ js : List Json, nestsAmong js = (sheetsAmong js).map Sheet.nest
  | [] => rfl
  | j :: js => by rw [nestsAmong, sheetsAmong, List.map_append, nests_eq j, nestsAmong_eq js]

theorem nestsIn_eq : ∀ members : List (Text × Json),
    nestsIn members = (sheetsIn members).map Sheet.nest
  | [] => rfl
  | (_, j) :: rest => by rw [nestsIn, sheetsIn, List.map_append, nests_eq j, nestsIn_eq rest]

end

/-- The members that one style gives to blocks and the other ones do not. -/
def blockExtras : List Text := ["name", "type", "topmodule"]

def portExtras : List Text := ["type", "input", "interface", "synthesized"]

mutual

def trimmed : Json → Json
  | .object members =>
    match drawnAs? members with
    | some (.block _ _) =>
      .object ((trimmedIn members).filter fun m => !blockExtras.contains m.1)
    | some (.other _) =>
      .object ((trimmedIn members).filter fun m => !portExtras.contains m.1)
    | _ => .object (trimmedIn members)
  | .array js => .array (trimmedAmong js)
  | j => j

def trimmedAmong : List Json → List Json
  | [] => []
  | j :: js => trimmed j :: trimmedAmong js

def trimmedIn : List (Text × Json) → List (Text × Json)
  | [] => []
  | (name, j) :: rest => (name, trimmed j) :: trimmedIn rest

end

theorem trimmedAmong_eq (js : List Json) : trimmedAmong js = js.map trimmed := by
  induction js with
  | nil => rfl
  | cons j js ih => rw [trimmedAmong, ih, List.map_cons]

theorem trimmedIn_append (ms ns : List (Text × Json)) :
    trimmedIn (ms ++ ns) = trimmedIn ms ++ trimmedIn ns := by
  induction ms with
  | nil => rfl
  | cons m ms ih => rw [List.cons_append, trimmedIn, ih, trimmedIn, List.cons_append]

mutual

theorem trimmed_of_plain : ∀ j : Json, j.IsPlain → j.trimmed = j
  | .object members, plain => by
    rw [IsPlain, drawn, List.append_eq_nil_iff] at plain
    have inner := trimmedIn_of_plain members plain.2
    have none : drawnAs? members = none := Option.toList_eq_nil_iff.mp plain.1
    rw [trimmed, none, inner]
  | .array js, plain => by
    rw [IsPlain, drawn] at plain
    rw [trimmed, trimmedAmong_of_plain js plain]
  | .null, _ | .bool _, _ | .int _, _ | .float _, _ | .notANumber, _ | .text _, _ | .gap _, _ => by
    simp only [trimmed]

theorem trimmedAmong_of_plain : ∀ js : List Json, drawnAmong js = [] → trimmedAmong js = js
  | [], _ => rfl
  | j :: js, plain => by
    rw [drawnAmong, List.append_eq_nil_iff] at plain
    rw [trimmedAmong, trimmed_of_plain j plain.1, trimmedAmong_of_plain js plain.2]

theorem trimmedIn_of_plain : ∀ members : List (Text × Json), drawnIn members = [] →
    trimmedIn members = members
  | [], _ => rfl
  | (_, j) :: rest, plain => by
    rw [drawnIn, List.append_eq_nil_iff] at plain
    rw [trimmedIn, trimmed_of_plain j plain.1, trimmedIn_of_plain rest plain.2]

end

end Json

open Json

variable {g : Graph}

namespace Graph

mutual

def nest (g : Graph) : Outline → Nest
  | .node k os => .node (componentRef g k) ((g.portsOf k).map g.portNumber) (nestAll g os)

def nestAll (g : Graph) : List Outline → List Nest
  | [] => []
  | o :: os => nest g o :: nestAll g os

end

def nests (g : Graph) : List Nest := g.outline.toList.map g.nest

end Graph

namespace Outline

variable {ω : Type} {joint : Wire → ω}

mutual

theorem nest_sheets : ∀ o : Outline, (Sheet.mapAll (componentRef g) g.portNumber joint
    (o.sheets g fun _ => true)).map Sheet.nest = [g.nest o]
  | .node k os => by
    rw [sheets, if_pos rfl, Sheet.mapAll, Sheet.mapAll, Sheet.map, List.map_singleton, Sheet.nest,
      Sheet.nestAll_eq, nest_sheetsAll os, Graph.nest]

theorem nest_sheetsAll : ∀ os : List Outline, (Sheet.mapAll (componentRef g) g.portNumber joint
    (sheetsAll g (fun _ => true) os)).map Sheet.nest = g.nestAll os
  | [] => rfl
  | o :: os => by
    rw [sheetsAll, Sheet.mapAll_append, List.map_append, nest_sheets o, nest_sheetsAll os,
      Graph.nestAll, List.singleton_append]

end

end Outline

/-- A document that shows the sheets of a graph nests its blocks. -/
theorem Json.nests_of_sheets {doc : Json} {joint : Wire → Joint Json Json}
    (shows : doc.sheets = Sheet.mapAll (componentRef g) g.portNumber joint
      (g.sheets fun _ => true)) : doc.nests = g.nests := by
  rw [nests_eq, shows, Graph.sheets, Graph.nests]
  cases g.outline with
  | none => rfl
  | some o =>
    rw [Option.toList_some, List.flatMap_singleton, List.map_singleton]
    exact o.nest_sheets

namespace DebugJson

variable {k : ComponentKey} {q : PortKey} {w : NumberedWire} {j : Json}

theorem trimmed_port (hg : g.Coherent) (words : g.IsLettered) (hq : q ∈ g.ports)
    (done : style.port g q = .ok j) : ElkJson.style.port g q = .ok j.trimmed := by
  obtain ⟨members, found, done⟩ := exists_of_bind_ok done
  obtain ⟨extras, found', done⟩ := exists_of_bind_ok done
  cases done
  have made : ElkJson.style.port g q = .ok (.object members) := by
    change Json.object <$> ElkJson.portMembers g q = _
    rw [found]
    rfl
  obtain ⟨label, layout, plain, plain', rfl⟩ := ElkJson.portMembers_ok hg words hq found
  obtain ⟨typeName, input, identity, flag, -, rfl⟩ := portExtras_ok hg words hq found'
  have port : drawnAs? (([("id", g.portNumber q), ("labels", label), ("width", .int 6),
      ("height", .int 6), ("layoutOptions", layout)] : List (Text × Json)) ++
        ([("type", typeName), ("input", input), ("interface", identity),
          ("synthesized", flag)] : List (Text × Json))) =
      some (.other (g.portNumber q)) := rfl
  rw [made, trimmed, port, trimmedIn_append]
  dsimp only
  simp only [trimmedIn, trimmed_of_plain label plain, trimmed_of_plain layout plain', trimmed,
    Graph.portNumber]
  rfl

theorem trimmed_wire (done : ElkJson.wire g w = .ok j) : j.trimmed = j := by
  obtain ⟨source, found, done⟩ := exists_of_bind_ok done
  obtain ⟨target, found', done⟩ := exists_of_bind_ok done
  cases done
  cases Graph.portRef_ok found
  cases Graph.portRef_ok found'
  rfl

theorem trimmed_node (words : g.IsLettered) (hk : k ∈ g.roster) (ports children wires : List Json)
    (last : Int) : (style.node g k ports children wires last).trimmed =
      ElkJson.style.node g k (ports.map trimmed) (children.map trimmed) (wires.map trimmed)
        last := by
  have label := isPlain_label (isPlain_ofValue (.inl (words.label k hk).basename))
  simp only [Graph.label] at label
  have block : drawnAs? (ElkJson.nodeMembers g k ports children wires ++ nodeExtras g k) =
    some (.block (componentRef g k) (ports.map idOf)) := rfl
  have node : style.node g k ports children wires last =
    .object (ElkJson.nodeMembers g k ports children wires ++ nodeExtras g k) := rfl
  rw [node, trimmed, block, trimmedIn_append]
  dsimp only
  simp only [ElkJson.nodeMembers, nodeExtras, trimmedIn, trimmed_of_plain _ label, trimmed,
    trimmedAmong_eq, componentRef]
  rfl

mutual

/-- With the same numbers, the one style draws what the other one draws without its extras. -/
theorem trimmed_draw (hg : g.Coherent) (words : g.IsLettered) : ∀ (o : Outline) (n : Numbering)
    (j : Json), o.Unfolds g → style.draw g (Block.ofOutline g n o).1 = .ok j →
      ElkJson.style.draw g (Block.ofOutline g n o).1 = .ok j.trimmed
  | .node k os, n, j, unfolds, done => by
    have hk := unfolds.1
    rw [Graph.ofOutline_node] at done ⊢
    obtain ⟨ports, children, wires, portsDone, childrenDone, wiresDone, rfl⟩ :=
      JsonStyle.exists_of_draw done
    rw [JsonStyle.draw]
    have owns : (g.portsOf k).mapM (ElkJson.style.port g) = .ok (ports.map trimmed) :=
      mapM_map_ok (fun q hq _ => trimmed_port hg words (hg.mem_ports.mpr ⟨k, hk, hq⟩)) portsDone
    have joins : ((Block.ofOutlines g n os).2.wires (g.wires k)).1.mapM (ElkJson.style.wire g) =
        .ok (wires.map trimmed) :=
      mapM_map_ok (fun _ _ _ drawn => (trimmed_wire drawn).symm ▸ drawn) wiresDone
    rw [owns, trimmed_drawAll hg words os n children unfolds.2.2 childrenDone, joins,
      trimmed_node words hk]
    rfl

theorem trimmed_drawAll (hg : g.Coherent) (words : g.IsLettered) : ∀ (os : List Outline)
    (n : Numbering) (js : List Json), Outline.UnfoldAll g os →
      style.drawAll g (Block.ofOutlines g n os).1 = .ok js →
        ElkJson.style.drawAll g (Block.ofOutlines g n os).1 = .ok (js.map trimmed)
  | [], _, _, _, done => by
    cases done
    rfl
  | o :: os, n, js, unfold, done => by
    rw [Graph.ofOutlines_cons] at done ⊢
    obtain ⟨j, rest, first, later, rfl⟩ := JsonStyle.exists_of_drawAll done
    rw [JsonStyle.drawAll, trimmed_draw hg words o n j unfold.1 first,
      trimmed_drawAll hg words os _ rest unfold.2 later]
    rfl

end

theorem trimmed_document {title : Json} (plain : title.IsPlain) (root : Json) :
    (style.document title (some root)).trimmed =
      ElkJson.style.document title (some root.trimmed) := by
  have label := isPlain_label plain
  have top : drawnAs? (([("id", .text "0"), ("labels", JsonStyle.label title),
      ("layoutOptions", .object [("algorithm", .text "layered")]),
      ("children", .array [root]), ("edges", .array [])] : List (Text × Json)) ++
        style.closing title) = some (.other (numeral 0)) := rfl
  rw [JsonStyle.document, trimmed, Option.toList_some, top, trimmedIn_append]
  dsimp only
  simp only [trimmedIn, trimmed_of_plain _ label, trimmed, trimmedAmong]
  rfl

end DebugJson

end Schematic
