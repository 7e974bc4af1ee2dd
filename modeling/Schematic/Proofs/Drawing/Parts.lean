import Schematic.Drawing.Render
import Schematic.Proofs.Survey.Wording
import Schematic.Proofs.Text.Codes

/-! What a JSON document draws, read off the document alone. Every object with an identifier is a
block, a wire, or something else such as a port; the styles agree on which it is and on what it
names, and nothing that is shown with it has an identifier of its own. -/

namespace Schematic

/-- What an object of a document draws: a block with the identifiers of its ports, a wire with those
of the ports that it joins, or something else. -/
inductive Drawn where
  | block (id : Json) (ports : List Json)
  | wire (id source target : Json)
  | other (id : Json)

namespace Drawn

def id : Drawn → Json
  | block id _ => id
  | wire id _ _ => id
  | other id => id

def block? : Drawn → Option (Json × List Json)
  | block id ports => some (id, ports)
  | _ => none

def wire? : Drawn → Option (Json × Json × Json)
  | wire id source target => some (id, source, target)
  | _ => none

def other? : Drawn → Option Json
  | other id => some id
  | _ => none

/-- The identifiers of what is drawn are those of blocks, wires and the rest. -/
theorem ids_perm (ds : List Drawn) : (ds.map id).Perm ((ds.filterMap block?).map Prod.fst ++
    (ds.filterMap other? ++ (ds.filterMap wire?).map Prod.fst)) := by
  induction ds with
  | nil => exact .refl _
  | cons d ds ih =>
    have later := ih.cons d.id
    cases d with
    | block id ports => exact later
    | other id => exact later.trans List.perm_middle.symm
    | wire id source target =>
      rw [← List.append_assoc] at later
      have moved := later.trans List.perm_middle.symm
      rw [List.append_assoc] at moved
      exact moved

end Drawn

namespace Json

def numeral (n : Nat) : Json := .text (toString n)

theorem numeral_injective : Function.Injective numeral := fun _ _ same =>
  natText_inj (Text.ofString_inj.mp (Json.text.inj same))

def member? (members : List (Text × Json)) (name : Text) : Option Json := members.lookup name

def idOf : Json → Json
  | .object members => (member? members "id").getD .null
  | _ => .null

/-- The ends of a wire. One style lists them and the other names one each. -/
def ends? (members : List (Text × Json)) : Option (Json × Json) :=
  match member? members "sources", member? members "targets" with
  | some (.array [source]), some (.array [target]) => some (source, target)
  | _, _ =>
    match member? members "sourcePort", member? members "targetPort" with
    | some source, some target => some (source, target)
    | _, _ => none

def drawnAs? (members : List (Text × Json)) : Option Drawn :=
  match member? members "id" with
  | none => none
  | some id =>
    match member? members "ports" with
    | some (.array ports) => some (.block id (ports.map idOf))
    | _ =>
      match ends? members with
      | some (source, target) => some (.wire id source target)
      | none => some (.other id)

mutual

/-- All that a document draws, in its order: an object before what is inside it. -/
def drawn : Json → List Drawn
  | .object members => (drawnAs? members).toList ++ drawnIn members
  | .array js => drawnAmong js
  | _ => []

def drawnAmong : List Json → List Drawn
  | [] => []
  | j :: js => drawn j ++ drawnAmong js

def drawnIn : List (Text × Json) → List Drawn
  | [] => []
  | (_, j) :: rest => drawn j ++ drawnIn rest

end

theorem drawnIn_append (ms ns : List (Text × Json)) :
    drawnIn (ms ++ ns) = drawnIn ms ++ drawnIn ns := by
  induction ms with
  | nil => rfl
  | cons m ms ih => rw [List.cons_append, drawnIn, ih, drawnIn, List.append_assoc]

/-- A single value draws nothing. -/
def IsPlain (j : Json) : Prop := j.drawn = []

theorem isPlain_ofValue {v : Value} (words : v.IsTextIfAny) : (ofValue v).IsPlain := by
  obtain ⟨t, text⟩ | rfl := words
  · cases v with
    | text s => simp only [ofValue, IsPlain, drawn]
    | direction d => simp only [ofValue, IsPlain, drawn]
    | _ => cases text
  · simp only [ofValue, IsPlain, drawn]

theorem isPlain_shown {v : Value} (shown : DebugJson.isShownAsIs v = true) :
    (ofValue v).IsPlain := by
  cases v with
  | int n =>
    unfold ofValue
    split <;> rfl
  | list | tuple | mapping | knot | again | bytes | date | moment | set => cases shown
  | _ => simp only [ofValue, IsPlain, drawn]

theorem isPlain_label {j : Json} (plain : j.IsPlain) : (JsonStyle.label j).IsPlain := by
  have bare : drawnAs? [("text", j)] = none := rfl
  rw [IsPlain, JsonStyle.label, drawn, drawnAmong, drawn, drawnIn, bare, plain]
  rfl

end Json

namespace Graph

def portNumber (g : Graph) (q : PortKey) : Json := .text (g.port q).id.plain

theorem portRef_ok {g : Graph} {q : PortKey} {j : Json} (done : portRef g q = .ok j) :
    j = g.portNumber q := by
  obtain ⟨t, wrote, done⟩ := exists_of_bind_ok done
  cases done
  cases Value.eq_of_written wrote
  rfl

end Graph

/-- How a style writes the parts of a graph: each with its number, a block with the numbers of its
ports, and a wire with those of the ports that it joins. -/
structure JsonStyle.Numbers (style : JsonStyle) (g : Graph) : Prop where
  port : ∀ {q j}, q ∈ g.ports → style.port g q = .ok j →
    j.idOf = g.portNumber q ∧ j.drawn = [.other (g.portNumber q)]
  wire : ∀ {w j}, w.wire.sourcePort ∈ g.ports → w.wire.targetPort ∈ g.ports →
    style.wire g w = .ok j → j.drawn =
      [.wire (.text w.number) (g.portNumber w.wire.sourcePort) (g.portNumber w.wire.targetPort)]
  node : ∀ k ∈ g.roster, ∀ ports children wires last,
    (style.node g k ports children wires last).drawn =
      .block (componentRef g k) (ports.map Json.idOf) ::
        (Json.drawnAmong ports ++ (Json.drawnAmong children ++ Json.drawnAmong wires))
  document : ∀ (title : Json) (root : Option Json), title.IsPlain →
    (style.document title root).idOf = .numeral 0 ∧
      (style.document title root).drawn = .other (.numeral 0) :: Json.drawnAmong root.toList

open Json

variable {g : Graph} {k : ComponentKey} {q : PortKey} {w : NumberedWire} {j : Json}
  {members : List (Text × Json)}

theorem drawn_document {style : JsonStyle} {title : Json} {root : Option Json}
    (plain : title.IsPlain) (top : drawnAs? (([("id", .text "0"), ("labels", JsonStyle.label title),
      ("layoutOptions", .object [("algorithm", .text "layered")]),
      ("children", .array root.toList), ("edges", .array [])] : List (Text × Json)) ++
        style.closing title) = some (.other (numeral 0)))
    (closing : drawnIn (style.closing title) = []) :
    (style.document title root).drawn = .other (numeral 0) :: drawnAmong root.toList := by
  have label := isPlain_label plain
  rw [IsPlain] at label
  rw [JsonStyle.document, drawn, top, drawnIn_append, closing]
  simp only [drawnIn, label, drawn, drawnAmong, Option.toList_some, List.append_nil]
  rfl

namespace ElkJson

theorem portMembers_ok (hg : g.Coherent) (words : g.IsLettered) (hq : q ∈ g.ports)
    (done : portMembers g q = .ok members) : ∃ label layout, label.IsPlain ∧ layout.IsPlain ∧
      members = ([("id", g.portNumber q), ("labels", label), ("width", .int 6), ("height", .int 6),
        ("layoutOptions", layout)] : List (Text × Json)) := by
  obtain ⟨id, found, done⟩ := exists_of_bind_ok done
  cases done
  cases Graph.portRef_ok found
  have shown := isPlain_ofValue (.inl (words.ofPort hg hq).basename)
  refine ⟨_, _, isPlain_label shown, ?_, rfl⟩
  rfl

theorem wire_ok (done : wire g w = .ok j) : j.drawn =
    [.wire (.text w.number) (g.portNumber w.wire.sourcePort) (g.portNumber w.wire.targetPort)] := by
  obtain ⟨source, found, done⟩ := exists_of_bind_ok done
  obtain ⟨target, found', done⟩ := exists_of_bind_ok done
  cases done
  cases Graph.portRef_ok found
  cases Graph.portRef_ok found'
  rfl

theorem drawnIn_nodeMembers (words : g.IsLettered) (hk : k ∈ g.roster)
    (ports children wires : List Json) : drawnIn (nodeMembers g k ports children wires) =
      drawnAmong ports ++ (drawnAmong children ++ drawnAmong wires) := by
  have shown := isPlain_label (isPlain_ofValue (.inl (words.label k hk).basename))
  rw [IsPlain] at shown
  simp only [Graph.label] at shown
  simp only [nodeMembers, drawnIn, drawn, componentRef, shown, List.nil_append, List.append_nil]

theorem numbers (hg : g.Coherent) (words : g.IsLettered) : style.Numbers g where
  port := by
    intro q j hq done
    obtain ⟨members, found, done⟩ := exists_of_bind_ok done
    cases done
    obtain ⟨label, layout, plain, plain', rfl⟩ := portMembers_ok hg words hq found
    refine ⟨rfl, ?_⟩
    rw [IsPlain] at plain plain'
    simp only [drawn, drawnIn, plain, plain']
    rfl
  wire := fun _ _ done => wire_ok done
  node := by
    intro k hk ports children wires last
    have block : drawnAs? (nodeMembers g k ports children wires) =
      some (.block (componentRef g k) (ports.map idOf)) := rfl
    have node : style.node g k ports children wires last =
      .object (nodeMembers g k ports children wires) := rfl
    rw [node, drawn, block, drawnIn_nodeMembers words hk]
    rfl
  document := fun _ _ plain => ⟨rfl, drawn_document plain rfl rfl⟩

end ElkJson

namespace DebugJson

theorem portExtras_ok (hg : g.Coherent) (words : g.IsLettered) (hq : q ∈ g.ports)
    (done : portExtras g q = .ok members) : ∃ typeName input identity synthesized,
      (typeName.IsPlain ∧ input.IsPlain ∧ identity.IsPlain ∧ synthesized.IsPlain) ∧
        members = ([("type", typeName), ("input", input), ("interface", identity),
          ("synthesized", synthesized)] : List (Text × Json)) := by
  obtain ⟨identity, found, done⟩ := exists_of_bind_ok done
  cases done
  have typeName := isPlain_ofValue (.inl (words.ofPort hg hq).typeName)
  have plain : (ofValue identity).IsPlain := by
    unfold identityValue at found
    split at found
    · next shown =>
      cases found
      exact isPlain_shown shown
    · split at found
      · cases found
        exact isPlain_ofValue (.inl ⟨_, rfl⟩)
      · cases found
  exact ⟨.ofValue (g.port q).typeName, .bool (g.port q).isInput, .ofValue identity,
    .bool (g.port q).synthesized, ⟨typeName, rfl, plain, rfl⟩, rfl⟩

theorem drawnIn_nodeExtras (words : g.IsLettered) (hk : k ∈ g.roster) :
    drawnIn (nodeExtras g k) = [] := by
  have basename := isPlain_ofValue (.inl (words.label k hk).basename)
  have typeName := isPlain_ofValue (.inl (words.label k hk).typeName)
  rw [IsPlain] at basename typeName
  simp only [Graph.label] at basename typeName
  simp only [nodeExtras, drawnIn, drawn, basename, typeName, List.append_nil]

theorem numbers (hg : g.Coherent) (words : g.IsLettered) : style.Numbers g where
  port := by
    intro q j hq done
    obtain ⟨members, found, done⟩ := exists_of_bind_ok done
    obtain ⟨extras, found', done⟩ := exists_of_bind_ok done
    cases done
    obtain ⟨label, layout, plain, plain', rfl⟩ := ElkJson.portMembers_ok hg words hq found
    obtain ⟨typeName, input, identity, flag, ⟨p, p', q, q'⟩, rfl⟩ :=
      portExtras_ok hg words hq found'
    refine ⟨rfl, ?_⟩
    rw [IsPlain] at plain plain' p p' q q'
    rw [drawn, drawnIn_append]
    simp only [drawn, drawnIn, plain, plain', p, p', q, q']
    rfl
  wire := fun _ _ done => ElkJson.wire_ok done
  node := by
    intro k hk ports children wires last
    have block : drawnAs? (ElkJson.nodeMembers g k ports children wires ++ nodeExtras g k) =
      some (.block (componentRef g k) (ports.map idOf)) := rfl
    have node : style.node g k ports children wires last =
      .object (ElkJson.nodeMembers g k ports children wires ++ nodeExtras g k) := rfl
    rw [node, drawn, block, drawnIn_append, ElkJson.drawnIn_nodeMembers words hk,
      drawnIn_nodeExtras words hk, List.append_nil]
    rfl
  document := fun _ _ plain => ⟨rfl, drawn_document plain rfl rfl⟩

end DebugJson

namespace D3Json

theorem isPlain_wireLabel (hg : g.Coherent) (words : g.IsLettered) {w : Wire} {v : Value}
    (hs : w.sourcePort ∈ g.ports) (ht : w.targetPort ∈ g.ports) (found : g.wireLabel w = .ok v) :
    (ofValue v).IsPlain := by
  unfold Graph.wireLabel connectionLabel at found
  split at found
  · cases found
    exact isPlain_ofValue (words.ofPort hg hs).signal
  · split at found
    · cases found
      exact isPlain_ofValue (words.ofPort hg ht).signal
    · obtain ⟨start, -, found⟩ := exists_of_bind_ok found
      obtain ⟨goal, -, found⟩ := exists_of_bind_ok found
      cases found
      exact isPlain_ofValue (.inl ⟨_, rfl⟩)

theorem drawn_node (words : g.IsLettered) (hk : k ∈ g.roster) (ports children wires : List Json)
    (last : Int) : (node g k ports children wires last).drawn =
      .block (componentRef g k) (ports.map idOf) ::
        (drawnAmong ports ++ (drawnAmong children ++ drawnAmong wires)) := by
  have basename := isPlain_ofValue (.inl (words.label k hk).basename)
  have typeName := isPlain_ofValue (.inl (words.label k hk).typeName)
  rw [IsPlain] at basename typeName
  simp only [Graph.label] at basename typeName
  -- two members have names that depend on the component, but the decisive ones come first
  have block (mark : Text) (a b c d : Json) : drawnAs? [("id", componentRef g k),
    ("ports", .array ports), (mark ++ "children", a), (mark ++ "edges", b), ("hwMeta", c),
    ("properties", d)] = some (.block (componentRef g k) (ports.map idOf)) := rfl
  have shape (a b c d : Json) : drawnAs? [("name", a), ("cls", b), ("maxId", c),
    ("isExternalPort", d)] = none := rfl
  have fixed (a b : Json) : drawnAs? [("org.eclipse.elk.layered.mergeEdges", a),
    ("org.eclipse.elk.portConstraints", b)] = none := rfl
  rw [node]
  simp only [drawn, drawnIn, properties, block, shape, fixed, basename, typeName,
    Option.toList_none, List.append_nil]
  rfl

theorem numbers (hg : g.Coherent) (words : g.IsLettered) : style.Numbers g where
  port := by
    intro q j hq done
    obtain ⟨id, found, done⟩ := exists_of_bind_ok done
    cases done
    cases Graph.portRef_ok found
    have shown := isPlain_ofValue (.inl (words.ofPort hg hq).basename)
    rw [IsPlain] at shown
    simp only [Port.facts] at shown
    refine ⟨rfl, ?_⟩
    simp only [drawn, drawnIn, drawnAmong, shown]
    rfl
  wire := by
    intro w j hs ht done
    obtain ⟨source, found, done⟩ := exists_of_bind_ok done
    obtain ⟨target, found', done⟩ := exists_of_bind_ok done
    obtain ⟨label, labelled, done⟩ := exists_of_bind_ok done
    cases done
    cases Graph.portRef_ok found
    cases Graph.portRef_ok found'
    have plain := isPlain_wireLabel hg words hs ht labelled
    rw [IsPlain] at plain
    simp only [drawn, drawnIn, componentRef, plain]
    rfl
  node := fun _ hk => drawn_node words hk
  document := by
    intro title root plain
    have closing : drawnIn (style.closing title) = [] := by
      rw [IsPlain] at plain
      simp only [style, drawn, drawnIn, properties, plain]
      rfl
    exact ⟨rfl, drawn_document plain rfl closing⟩

end D3Json

end Schematic
