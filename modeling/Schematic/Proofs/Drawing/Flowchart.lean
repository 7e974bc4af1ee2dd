import Schematic.Proofs.Drawing.Layout
import Schematic.Proofs.Drawing.Styles

/-! The lines of a flowchart. They show the blocks of a graph, each by its identifier and a label,
and behind all of them the edges, those of a block after those of the blocks inside it. -/

namespace Schematic.Mermaid

open Sheet

variable {σ : Type} {g : Graph} {k : ComponentKey} {o : Outline} {q : PortKey} {w : NumberedWire}

def labelIn (v : Value) : Text := sanitise (v.text?.getD "")

def portOf (g : Graph) (q : PortKey) : Statement :=
  .port (g.port q).id.plain (g.port q).direction (labelIn (g.port q).basename)

/-- What an edge is called: what one of its ports is bound to, and otherwise what both ports are
called. -/
def wireWord (g : Graph) (w : Wire) : Text :=
  let source := g.port w.sourcePort
  let target := g.port w.targetPort
  if source.signal.isTrue then source.signal.text?.getD ""
  else if target.signal.isTrue then target.signal.text?.getD ""
  else source.basename.plain ++ "_to_" ++ target.basename.plain

def edgeOf (g : Graph) (w : Wire) : Statement :=
  .edge (g.port w.sourcePort).id.plain w.kind (sanitise (wireWord g w))
    (g.port w.targetPort).id.plain

mutual

def blockLines (g : Graph) (depth : Int) : Sheet ComponentKey PortKey Wire → List Line
  | .block k ports _ below =>
    let c := g.component k
    if c.isEmpty then [⟨depth, .component c.id (labelIn c.basename)⟩]
    else
      [⟨depth, .subgraph c.id (labelIn c.basename)⟩, ⟨depth + 1, .runs "LR"⟩] ++
        (ports.map (portOf g)).map (fun s => ⟨depth + 1, s⟩) ++ blocksLines g (depth + 1) below ++
        [⟨depth, .close⟩]

def blocksLines (g : Graph) (depth : Int) : List (Sheet ComponentKey PortKey Wire) → List Line
  | [] => []
  | b :: bs => blockLines g depth b ++ blocksLines g depth bs

end

def styledIds (g : Graph) (ss : List (Sheet ComponentKey PortKey Wire)) : List Text :=
  (blocksAll ss).flatMap fun b => (b.ports.flatMap (styledId g)).map Value.plain

def notesOf (g : Graph) (ss : List (Sheet ComponentKey PortKey Wire)) : Notes :=
  ⟨(stated ss).map (edgeOf g), styledIds g ss⟩

def flowchart (g : Graph) (title : Text) : List Line :=
  let ss := g.sheets fun _ => true
  document title "LR" (blocksLines g 1 ss) (notesOf g ss)

theorem blocksLines_append (depth : Int) (ss ts : List (Sheet ComponentKey PortKey Wire)) :
    blocksLines g depth (ss ++ ts) = blocksLines g depth ss ++ blocksLines g depth ts := by
  induction ss with
  | nil => rfl
  | cons s ss ih => simp only [List.cons_append, blocksLines, ih, List.append_assoc]

theorem notesOf_append (ss ts : List (Sheet ComponentKey PortKey Wire)) :
    notesOf g (ss ++ ts) = notesOf g ss ++ notesOf g ts := by
  have both (m n : Notes) : m ++ n = ⟨m.wires ++ n.wires, m.styled ++ n.styled⟩ := rfl
  simp only [both, notesOf, styledIds, stated_append, blocksAll_append, List.map_append,
    List.flatMap_append]

/-- The notes of a block: its own styles before those of what is inside it, its own edges behind. -/
theorem notesOf_block (k : ComponentKey) (ports : List PortKey) (edges : List Wire)
    (inner : List (Sheet ComponentKey PortKey Wire)) :
    notesOf g [.block k ports edges inner] =
      ⟨[], (ports.flatMap (styledId g)).map Value.plain⟩ ++ notesOf g inner ++
        ⟨edges.map (edgeOf g), []⟩ := by
  have both (m n : Notes) : m ++ n = ⟨m.wires ++ n.wires, m.styled ++ n.styled⟩ := rfl
  simp only [both, notesOf, styledIds, stated_block, blocksAll, blocks, List.map_append,
    List.flatMap_cons, List.append_nil, List.nil_append, Sheet.ports]

/-- A graph with labels that are texts: those of its components and ports, and of what a port is
bound to. -/
structure CanLabel (g : Graph) : Prop where
  component : ∀ k ∈ g.roster, (g.component k).basename.IsText
  port : ∀ q ∈ g.ports, (g.port q).basename.IsText
  signal : ∀ q ∈ g.ports, (g.port q).signal.IsTextIfAny

theorem canLabel (words : g.IsDrawable) (hg : g.Coherent) : CanLabel g where
  component := fun k hk => (words.label k hk).basename
  port := fun _ hq => (words.ofPort hg hq).basename
  signal := fun _ hq => (words.ofPort hg hq).signal

theorem writes_labelOf {v : Value} (text : v.IsText) :
    Writes (labelOf v) True fun t => t = labelIn v := by
  obtain ⟨t, found⟩ := text
  rw [labelOf, labelIn, found]
  exact Writes.pure rfl

/-- A signal that counts is a text. -/
theorem isText_of_isTrue {v : Value} (any : v.IsTextIfAny) (counts : v.isTrue = true) :
    v.IsText := by
  rcases any with text | rfl
  · exact text
  · cases counts

theorem writes_wireLabel (labels : CanLabel g) {w : Wire} (hs : w.sourcePort ∈ g.ports)
    (ht : w.targetPort ∈ g.ports) :
    Writes (g.wireLabel w) True fun v => v.IsText ∧ labelIn v = sanitise (wireWord g w) := by
  unfold Graph.wireLabel connectionLabel wireWord
  dsimp only
  split
  · next named => exact .pure ⟨isText_of_isTrue (labels.signal _ hs) named, rfl⟩
  · split
    · next named => exact .pure ⟨isText_of_isTrue (labels.signal _ ht) named, rfl⟩
    · refine ((Writes.written _).bind fun t same => (Writes.written _).bind fun u same' =>
        Writes.pure ?_).congr ?_
      · rw [same, same']
        exact ⟨⟨_, rfl⟩, rfl⟩
      · exact iff_of_true
          ⟨(labels.port _ hs).isWritable, (labels.port _ ht).isWritable, trivial⟩ trivial

theorem writes_portStatement (labels : CanLabel g) (hq : q ∈ g.ports) :
    Writes (portStatement g q) ((g.port q).id.isWritable = true) fun s => s = portOf g q := by
  refine ((Writes.written _).bind fun t same => (writes_labelOf (labels.port q hq)).bind
    fun u same' => Writes.pure ?_).congr (and_iff_left ⟨trivial, trivial⟩)
  rw [same, same']
  rfl

theorem writes_wireStatement (labels : CanLabel g) (hs : w.wire.sourcePort ∈ g.ports)
    (ht : w.wire.targetPort ∈ g.ports) :
    Writes (wireStatement g w) ((g.port w.wire.sourcePort).id.isWritable = true ∧
      (g.port w.wire.targetPort).id.isWritable = true) fun s => s = edgeOf g w.wire := by
  refine ((Writes.written _).bind fun t source => (writes_wireLabel labels hs ht).bind
    fun v called => (writes_labelOf called.1).bind fun l label => (Writes.written _).bind
      fun u target => Writes.pure ?_).congr (by simp only [true_and, and_true])
  rw [source, label, called.2, target]
  rfl

theorem eq_of_mem_styledId {v : Value} (listed : v ∈ styledId g q) : v = (g.port q).id := by
  unfold styledId at listed
  split at listed
  · exact List.mem_singleton.mp listed
  · cases listed

mutual

/-- The lines and notes of a tree are those of its blocks. All they need is that the identifiers of
its ports can be written. -/
theorem writes_lines (labels : CanLabel g) (hg : g.Coherent) : ∀ (o : Outline) (n : Numbering)
    (depth : Int), o.Unfolds g →
      Writes (lines leftToRight g depth (Block.ofOutline g n o).1)
        (∀ q ∈ o.allPorts g, (g.port q).id.isWritable = true) fun x =>
          x = (blocksLines g depth (o.sheets g fun _ => true), notesOf g (o.sheets g fun _ => true))
  | .node k os, n, depth, unfolds => by
    have hk := unfolds.1
    have ends : ∀ w ∈ ((Block.ofOutlines g n os).2.wires (g.wires k)).1,
        w.wire.sourcePort ∈ g.ports ∧ w.wire.targetPort ∈ g.ports := fun w hw =>
      (hg.lies hk (Numbering.wire_mem hw)).ends hg
    have ports := Writes.mapM_map fun q hq =>
      writes_portStatement labels (hg.mem_ports.mpr ⟨k, hk, hq⟩)
    have styles := Writes.mapM_map fun v (_ : v ∈ (g.portsOf k).flatMap (styledId g)) =>
      Writes.written v
    have children := writes_linesOf labels hg os n (depth + 1) unfolds.2.2
    have wires := Writes.mapM_map fun w hw =>
      writes_wireStatement labels (ends w hw).1 (ends w hw).2
    rw [Graph.ofOutline_node, lines, Outline.allPorts_node]
    refine (ports.bind fun declared declares => styles.bind fun styled marks =>
      children.bind fun x inner => wires.bind fun joints joins =>
        (writes_labelOf (labels.component k hk)).bind fun label called =>
          (?_ : Writes _ True _)).congr ?_
    · rw [Numbering.map_wires (edgeOf g)] at joins
      have here : (Outline.node k os).sheets g (fun _ => true) =
          [.block k (g.portsOf k) (g.wires k) (Outline.sheetsAll g (fun _ => true) os)] := rfl
      rw [here, notesOf_block, ← marks, ← joins, inner, declares, called]
      by_cases empty : (g.component k).isEmpty = true
      · rw [if_pos empty]
        refine Writes.pure (congrArg (·, _) ?_)
        simp only [blocksLines, blockLines, if_pos empty, List.append_nil]
      · rw [if_neg empty]
        refine ((Writes.written leftToRight).bind fun t way => Writes.pure ?_).congr
          (iff_of_true ⟨rfl, trivial⟩ trivial)
        refine congrArg (·, _) ?_
        rw [way]
        simp only [blocksLines, blockLines, if_neg empty, List.append_nil]
        rfl
    · simp only [and_true, List.forall_mem_append]
      constructor
      · exact fun h => ⟨h.1, h.2.2.1⟩
      · rintro ⟨own, below⟩
        have all : ∀ q ∈ (Outline.node k os).allPorts g, (g.port q).id.isWritable = true := by
          rw [Outline.allPorts_node, List.forall_mem_append]
          exact ⟨own, below⟩
        refine ⟨own, fun v hv => ?_, below, fun w hw => ?_⟩
        · obtain ⟨q, hq, listed⟩ := List.mem_flatMap.mp hv
          exact eq_of_mem_styledId listed ▸ own q hq
        · have inside := hg.ends_inside unfolds (Numbering.wire_mem hw)
          exact ⟨all _ inside.1, all _ inside.2⟩

theorem writes_linesOf (labels : CanLabel g) (hg : g.Coherent) : ∀ (os : List Outline)
    (n : Numbering) (depth : Int), Outline.UnfoldAll g os →
      Writes (linesOf leftToRight g depth (Block.ofOutlines g n os).1)
        (∀ q ∈ Outline.allPortsOf g os, (g.port q).id.isWritable = true) fun x =>
          x = (blocksLines g depth (Outline.sheetsAll g (fun _ => true) os),
            notesOf g (Outline.sheetsAll g (fun _ => true) os))
  | [], _, depth, _ => by
    have nothing : Writes (pure ([], {})) True fun x =>
        x = (blocksLines g depth [], notesOf g []) := .pure rfl
    exact nothing.congr (iff_of_true trivial (List.forall_mem_nil _))
  | o :: os, n, depth, unfold => by
    have first := writes_lines labels hg o n depth unfold.1
    have rest := writes_linesOf labels hg os (Block.ofOutline g n o).2 depth unfold.2
    rw [Graph.ofOutlines_cons, linesOf, Outline.allPortsOf_cons, List.forall_mem_append]
    refine (first.bind fun x same => rest.bind fun y same' => Writes.pure ?_).congr
      (and_congr_right fun _ => and_iff_left trivial)
    rw [same, same', Outline.sheetsAll, blocksLines_append, notesOf_append]

end

/-- The text of a graph is that of its flowchart. -/
theorem needs_draw (labels : CanLabel g) (hg : g.Coherent) (outlined : g.outline = some o)
    (title : Text) (s : σ) : (draw (.text title) leftToRight 0 {} g g.block?).Needs s
      (∀ q ∈ g.ports, (g.port q).id.isWritable = true) fun x s' =>
        x.1 = textOf (flowchart g title) ∧ s' = s := by
  have body := writes_lines labels hg o ⟨g.lastId⟩ 1 (hg.unfolds outlined)
  rw [Graph.ports_of_outline outlined, ← Graph.sheets_of_outline outlined] at body
  rw [Graph.block?, outlined, Option.map_some]
  unfold draw
  refine ((body.run s).bind fun x s' same => ?_).congr (and_true _).to_iff
  obtain ⟨rfl, rfl⟩ := same
  refine .of_written rfl (.of_written rfl ?_)
  refine Action.needs_note.andThen fun _ s' same => ?_
  rw [same]
  exact Action.needs_pure ⟨rfl, rfl⟩

end Schematic.Mermaid
