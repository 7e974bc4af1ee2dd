import Schematic.Proofs.Drawing.Layout

/-! The lines of the text format that knows no identifiers. They show the blocks of a graph that
have something inside: each by its basename, its ports by theirs and by their side, its edges by
the names of the ports. -/

namespace Schematic.ElkText

open Sheet

variable {g : Graph} {k : ComponentKey} {q : PortKey} {w : NumberedWire}

/-- A block as this format shows it. Of a port it shows what it is called and whether it is an
input. -/
abbrev Figure := Sheet Text (Text × Bool) (Text × Text)

/-- What a line of this format shows. The other lines repeat or arrange it. -/
def Statement.mark? : Statement → Option (Mark Text (Text × Bool) (Text × Text))
  | node name => some (.opened name)
  | port name side => some (.port (name, side == "WEST"))
  | edge source target => some (.edge (source, target))
  | close => some .closed
  | _ => none

def marks (ls : List Line) : List (Mark Text (Text × Bool) (Text × Text)) :=
  ls.filterMap fun l => l.statement.mark?

def portStatementOf (p : Text × Bool) : Statement := .port p.1 (if p.2 then "WEST" else "EAST")

def edgeStatementOf (e : Text × Text) : Statement := .edge e.1 e.2

def heightOf (ports : List (Text × Bool)) : Nat :=
  let inputs := ports.countP Prod.snd
  max 80 (max inputs (ports.length - inputs) * 20)

mutual

def figureLines (depth : Nat) : Figure → List Line
  | .block name ports edges below =>
    [⟨depth, .node name⟩, ⟨depth + 1, .size (heightOf ports)⟩, ⟨depth + 1, .fixedSides⟩,
        ⟨depth + 1, .label name⟩] ++
      (ports.map portStatementOf).map (fun s => ⟨depth + 1, s⟩) ++
      figuresLines (depth + 1) below ++
      (edges.map edgeStatementOf).map (fun s => ⟨depth + 1, s⟩) ++
      [⟨depth, .close⟩, ⟨0, .blank⟩]

def figuresLines (depth : Nat) : List Figure → List Line
  | [] => []
  | b :: bs => figureLines depth b ++ figuresLines depth bs

end

def documentOf (bs : List Figure) : List Line :=
  [⟨0, .algorithm⟩, ⟨0, .routing⟩] ++ figuresLines 0 bs

def textOf (ls : List Line) : Text := Text.join (ls.map fun l => l.text ++ "\n")

theorem marks_append (ls ls' : List Line) : marks (ls ++ ls') = marks ls ++ marks ls' :=
  List.filterMap_append

theorem marks_at (depth : Nat) (ss : List Statement) :
    marks (ss.map fun s => ⟨depth, s⟩) = ss.filterMap Statement.mark? := by
  rw [marks, List.filterMap_map]
  rfl

theorem marks_ports (ports : List (Text × Bool)) :
    (ports.map portStatementOf).filterMap Statement.mark? = ports.map Mark.port := by
  induction ports with
  | nil => rfl
  | cons p ports ih =>
    obtain ⟨name, input⟩ := p
    cases input <;> exact congrArg (_ :: ·) ih

theorem marks_edges (edges : List (Text × Text)) :
    (edges.map edgeStatementOf).filterMap Statement.mark? = edges.map Mark.edge := by
  induction edges with
  | nil => rfl
  | cons e edges ih => exact congrArg (_ :: ·) ih

mutual

theorem marks_figureLines : ∀ (b : Figure) (depth : Nat), marks (figureLines depth b) = b.marks
  | .block name ports edges below, depth => by
    simp only [figureLines, marks_append, marks_at, marks_ports, marks_edges,
      marks_figuresLines below, Sheet.marks, List.append_assoc]
    rfl

/-- What the lines of blocks show is the blocks. -/
theorem marks_figuresLines : ∀ (bs : List Figure) (depth : Nat),
    marks (figuresLines depth bs) = marksAll bs
  | [], _ => rfl
  | b :: bs, depth => by
    rw [figuresLines, marks_append, marks_figureLines b, marks_figuresLines bs, marksAll]

end

theorem marks_documentOf (bs : List Figure) : marks (documentOf bs) = marksAll bs :=
  marks_figuresLines bs 0

theorem figuresLines_append (depth : Nat) (bs bs' : List Figure) :
    figuresLines depth (bs ++ bs') = figuresLines depth bs ++ figuresLines depth bs' := by
  induction bs with
  | nil => rfl
  | cons b bs ih => simp only [List.cons_append, figuresLines, ih, List.append_assoc]

def isShown (g : Graph) (k : ComponentKey) : Bool := !(g.component k).isEmpty

theorem spares_isShown (g : Graph) : g.Spares (isShown g) := by
  intro k empty
  simp only [isShown, Component.isEmpty, Bool.not_eq_false', Bool.and_eq_true,
    List.isEmpty_iff] at empty
  exact empty

def endNames (g : Graph) (w : Wire) : Text × Text :=
  ((g.port w.sourcePort).name.plain, (g.port w.targetPort).name.plain)

def portFigure (g : Graph) (q : PortKey) : Text × Bool :=
  ((g.port q).basename.plain, (g.port q).isInput)

def figures (g : Graph) (ss : List (Sheet ComponentKey PortKey Wire)) : List Figure :=
  mapAll (fun k => (g.component k).basename.plain) (portFigure g) (endNames g) ss

def drawing (g : Graph) : List Figure := figures g (g.sheets (isShown g))

structure CanSpell (g : Graph) : Prop where
  component : ∀ k ∈ g.roster, (g.component k).basename.isWritable = true
  port : ∀ q ∈ g.ports, (g.port q).basename.isWritable = true
  name : ∀ q ∈ g.ports, (g.port q).name.isWritable = true

theorem heightOf_portFigures (g : Graph) (k : ComponentKey) :
    heightOf ((g.portsOf k).map (portFigure g)) = g.blockHeight k := by
  simp only [heightOf, List.countP_map, List.length_map]
  rfl

theorem writes_portStatement (spells : CanSpell g) (hq : q ∈ g.ports) :
    Writes (portStatement g q) True fun s => s = portStatementOf (portFigure g q) := by
  refine ((Writes.written _).bind fun t same => Writes.pure ?_).congr
    (iff_of_true ⟨spells.port q hq, trivial⟩ trivial)
  rw [same]
  rfl

theorem writes_wireStatement (spells : CanSpell g) (hs : w.wire.sourcePort ∈ g.ports)
    (ht : w.wire.targetPort ∈ g.ports) :
    Writes (wireStatement g w) True fun s => s = edgeStatementOf (endNames g w.wire) := by
  refine ((Writes.written _).bind fun t same => (Writes.written _).bind fun u same' =>
    Writes.pure ?_).congr (iff_of_true ⟨spells.name _ hs, spells.name _ ht, trivial⟩ trivial)
  rw [same, same']
  rfl

mutual

/-- The lines of a tree are those of its blocks that are shown. -/
theorem writes_lines (spells : CanSpell g) (hg : g.Coherent) : ∀ (o : Outline) (n : Numbering)
    (depth : Nat), o.Unfolds g → Writes (lines g depth (Block.ofOutline g n o).1) True fun ls =>
      ls = figuresLines depth (figures g (o.sheets g (isShown g)))
  | .node k os, n, depth, unfolds => by
    have hk := unfolds.1
    have ends : ∀ w ∈ ((Block.ofOutlines g n os).2.wires (g.wires k)).1,
        w.wire.sourcePort ∈ g.ports ∧ w.wire.targetPort ∈ g.ports := fun w hw =>
      (hg.lies hk (Numbering.wire_mem hw)).ends hg
    have ports := Writes.mapM_eq fun q hq =>
      writes_portStatement spells (hg.mem_ports.mpr ⟨k, hk, hq⟩)
    have children := writes_linesOf spells hg os n (depth + 1) unfolds.2.2
    have wires := Writes.mapM_eq fun w hw =>
      writes_wireStatement spells (ends w hw).1 (ends w hw).2
    rw [Graph.ofOutline_node, lines, Outline.sheets]
    refine (ports.bind fun ps declares => children.bind fun ls inner =>
      wires.bind fun ss joins => (?_ : Writes _ True _)).congr (by simp only [true_and])
    by_cases empty : (g.component k).isEmpty = true
    · have hidden : isShown g k = false := congrArg not empty
      rw [if_pos empty, hidden]
      exact Writes.pure rfl
    · have shown : isShown g k = true := by simpa [isShown] using empty
      rw [if_neg empty, shown, if_pos rfl]
      refine ((Writes.written _).bind fun t same => Writes.pure ?_).congr
        (iff_of_true ⟨spells.component k hk, trivial⟩ trivial)
      rw [declares, inner, joins, same, Numbering.map_wires fun w => edgeStatementOf (endNames g w)]
      simp only [figures, mapAll, Sheet.map, figuresLines, figureLines, heightOf_portFigures,
        List.map_map, Function.comp_def, List.append_nil]

theorem writes_linesOf (spells : CanSpell g) (hg : g.Coherent) : ∀ (os : List Outline)
    (n : Numbering) (depth : Nat), Outline.UnfoldAll g os →
      Writes (linesOf g depth (Block.ofOutlines g n os).1) True fun ls =>
        ls = figuresLines depth (figures g (Outline.sheetsAll g (isShown g) os))
  | [], _, _, _ => Writes.pure rfl
  | o :: os, n, depth, unfold => by
    have first := writes_lines spells hg o n depth unfold.1
    have rest := writes_linesOf spells hg os (Block.ofOutline g n o).2 depth unfold.2
    rw [Graph.ofOutlines_cons, linesOf, Outline.sheetsAll, figures, mapAll_append,
      figuresLines_append]
    refine (first.bind fun ls same => rest.bind fun ls' same' => Writes.pure ?_).congr
      (iff_of_true ⟨trivial, trivial, trivial⟩ trivial)
    rw [same, same']
    rfl

end

theorem writes_document (spells : CanSpell g) (hg : g.Coherent) :
    Writes (document g g.block?) True fun ls => ls = documentOf (drawing g) := by
  rw [Graph.block?, drawing]
  cases outlined : g.outline with
  | none =>
    rw [Graph.sheets, outlined]
    exact Writes.pure rfl
  | some o =>
    have body := writes_lines spells hg o ⟨g.lastId⟩ 0 (hg.unfolds outlined)
    rw [Graph.sheets_of_outline outlined]
    exact (body.bind fun ls same => .pure (congrArg _ same)).congr (and_true True).to_iff

/-- The text of a graph is that of its drawing. -/
theorem render_eq (spells : CanSpell g) (hg : g.Coherent) :
    render g g.block? = .ok (textOf (documentOf (drawing g))) := by
  obtain ⟨ls, found, same⟩ := (writes_document spells hg).answers trivial
  have made : document g g.block? = .ok ls := found
  rw [render, made, same]
  rfl

end Schematic.ElkText
