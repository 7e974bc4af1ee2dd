import Schematic.Proofs.Drawing.Figures
import Schematic.Proofs.Drawing.Flowchart

/-! What the two text formats state of a graph: which components and ports they declare, and which
ports their edges join. The one leaves out components that have nothing inside. The other one keeps
the edges for the end, but in the same order. -/

namespace Schematic

open Sheet

variable {g : Graph}

namespace ElkText

def Statement.edge? : Statement → Option (Text × Text)
  | edge source target => some (source, target)
  | _ => none

def Statement.isDeclaration : Statement → Bool
  | node _ => true
  | port _ _ => true
  | _ => false

def edges (ls : List Line) : List (Text × Text) := ls.filterMap fun l => l.statement.edge?

def declared (ls : List Line) : List Statement :=
  (ls.map Line.statement).filter Statement.isDeclaration

def declarations (g : Graph) (k : ComponentKey) : List Statement :=
  .node (g.component k).basename.plain ::
    (g.portsOf k).map fun q => .port (g.port q).basename.plain (g.port q).side

def HasNames (g : Graph) : Prop := ∀ q ∈ g.ports, (g.port q).name.isWritable = true

theorem canSpell (words : g.IsDrawable) (hg : g.Coherent) (names : HasNames g) : CanSpell g where
  component := fun k hk => (words.label k hk).basename.isWritable
  port := fun _ hq => (words.ofPort hg hq).basename.isWritable
  name := names

theorem edges_eq (ls : List Line) : edges ls = (marks ls).filterMap Mark.edge? := by
  rw [edges, marks, List.filterMap_filterMap]
  apply List.filterMap_congr
  intro l _
  cases l.statement <;> rfl

theorem declared_append (ls ls' : List Line) :
    declared (ls ++ ls') = declared ls ++ declared ls' := by
  rw [declared, List.map_append, List.filter_append, declared, declared]

theorem declared_at (depth : Nat) (ss : List Statement) :
    declared (ss.map fun s => ⟨depth, s⟩) = ss.filter Statement.isDeclaration := by
  rw [declared, List.map_map]
  exact congrArg _ (List.map_id ss)

theorem declared_ports (ports : List (Text × Bool)) :
    (ports.map portStatementOf).filter Statement.isDeclaration = ports.map portStatementOf := by
  rw [List.filter_eq_self, List.forall_mem_map]
  exact fun _ _ => rfl

theorem declared_edges (edges : List (Text × Text)) :
    (edges.map edgeStatementOf).filter Statement.isDeclaration = [] := by
  rw [List.filter_eq_nil_iff, List.forall_mem_map]
  exact fun _ _ => Bool.false_ne_true

mutual

theorem declared_figureLines : ∀ (b : Figure) (depth : Nat), declared (figureLines depth b) =
    b.blocks.flatMap fun c => .node c.name :: c.ports.map portStatementOf
  | .block name ports edges below, depth => by
    simp only [figureLines, declared_append, declared_at, declared_ports, declared_edges,
      declared_figuresLines below, blocks, List.flatMap_cons, List.append_nil]
    exact List.append_nil _

theorem declared_figuresLines : ∀ (bs : List Figure) (depth : Nat),
    declared (figuresLines depth bs) =
      (blocksAll bs).flatMap fun c => .node c.name :: c.ports.map portStatementOf
  | [], _ => rfl
  | b :: bs, depth => by
    rw [figuresLines, declared_append, declared_figureLines b, declared_figuresLines bs, blocksAll,
      List.flatMap_append]

end

theorem edges_documentOf (hg : g.Coherent) :
    edges (documentOf (drawing g)) = g.allWires.map (endNames g) := by
  rw [edges_eq, marks_documentOf, drawing, figures, ← stated, stated_mapAll,
    hg.stated_sheets (spares_isShown g)]

theorem declared_documentOf (hg : g.Coherent) : declared (documentOf (drawing g)) =
    (g.components.filter (isShown g)).flatMap (declarations g) := by
  have lines : declared (documentOf (drawing g)) = declared (figuresLines 0 (drawing g)) := rfl
  rw [lines, declared_figuresLines, drawing, figures, blocksAll_mapAll, List.flatMap_map]
  simp only [name_map, ports_map, List.map_map]
  exact hg.flatMap_blocks (spares_isShown g) fun k qs =>
    Statement.node (g.component k).basename.plain :: qs.map (portStatementOf ∘ portFigure g)

end ElkText

namespace Mermaid

def Statement.edge? : Statement → Option (Text × Text)
  | edge source _ _ target => some (source, target)
  | _ => none

/-- The component or port that a statement declares, by the identifier under which edges and styles
refer to it. -/
def Statement.declares? : Statement → Option (Nat ⊕ Text)
  | subgraph id _ => some (.inl id)
  | component id _ => some (.inl id)
  | port id _ _ => some (.inr id)
  | _ => none

def edges (ls : List Line) : List (Text × Text) := ls.filterMap fun l => l.statement.edge?

def declared (ls : List Line) : List (Nat ⊕ Text) :=
  ls.filterMap fun l => l.statement.declares?

def declarations (g : Graph) (k : ComponentKey) : List (Nat ⊕ Text) :=
  .inl (g.component k).id :: (g.portsOf k).map fun q => .inr (g.port q).id.plain

def endIds (g : Graph) (w : Wire) : Text × Text :=
  ((g.port w.sourcePort).id.plain, (g.port w.targetPort).id.plain)

/-- What a statement shows of blocks, ports and edges, by their identifiers. A component that has
nothing inside is shown by one statement. -/
def Statement.marks : Statement → List (Mark Nat Text (Text × Text))
  | subgraph id _ => [.opened id]
  | component id _ => [.opened id, .closed]
  | port id _ _ => [.port id]
  | edge source _ _ target => [.edge (source, target)]
  | close => [.closed]
  | _ => []

def marks (ls : List Line) : List (Mark Nat Text (Text × Text)) :=
  ls.flatMap fun l => l.statement.marks

def charts (g : Graph) (ss : List (Sheet ComponentKey PortKey Wire)) :
    List (Sheet Nat Text (Text × Text)) :=
  mapAll (fun k => (g.component k).id) (fun q => (g.port q).id.plain) (endIds g) ss

def chart (g : Graph) : List (Sheet Nat Text (Text × Text)) := charts g (g.sheets fun _ => true)

/-- The marks of blocks whose edges are kept for the end. -/
def marksApart (ss : List (Sheet Nat Text (Text × Text))) : List (Mark Nat Text (Text × Text)) :=
  (marksAll ss).filter Mark.isFrame ++ (stated ss).map .edge

theorem marks_append (ls ls' : List Line) : marks (ls ++ ls') = marks ls ++ marks ls' :=
  List.flatMap_append

theorem marks_at (depth : Int) (ss : List Statement) :
    marks (ss.map fun s => ⟨depth, s⟩) = ss.flatMap Statement.marks := by
  rw [marks, List.flatMap_map]

theorem edges_eq (ls : List Line) : edges ls = (marks ls).filterMap Mark.edge? := by
  induction ls with
  | nil => rfl
  | cons l ls ih =>
    rw [marks, List.flatMap_cons, List.filterMap_append, ← marks, ← ih, edges, List.filterMap_cons]
    cases l.statement <;> rfl

theorem declared_eq (ls : List Line) : declared ls = (marks ls).filterMap Mark.declared? := by
  induction ls with
  | nil => rfl
  | cons l ls ih =>
    rw [marks, List.flatMap_cons, List.filterMap_append, ← marks, ← ih, declared,
      List.filterMap_cons]
    cases l.statement <;> rfl

mutual

/-- The lines of a block show it without its edges. -/
theorem marks_blockLines : ∀ (b : Sheet ComponentKey PortKey Wire) (depth : Int),
    (∀ c ∈ b.blocks, c.Depicts g fun _ => true) →
      marks (blockLines g depth b) = (marksAll (charts g [b])).filter Mark.isFrame
  | .block k ports edges below, depth, depicts => by
    rw [blocks, List.forall_mem_cons] at depicts
    obtain ⟨⟨-, owns, -, inner⟩, others⟩ := depicts
    have here : charts g [.block k ports edges below] = [.block (g.component k).id
      (ports.map fun q => (g.port q).id.plain) (edges.map (endIds g)) (charts g below)] := rfl
    rw [here, blockLines]
    by_cases empty : (g.component k).isEmpty = true
    · have hidden : ElkText.isShown g k = false := congrArg not empty
      obtain ⟨bare, none⟩ := ElkText.spares_isShown g k hidden
      have portless : ports = [] := owns.trans bare
      have leaf : below = [] := by
        simpa only [name, none, List.filter_nil, List.map_eq_nil_iff, Sheet.inner] using inner
      rw [if_pos empty, portless, leaf]
      simp [marks, Statement.marks, marksAll, Sheet.marks, charts, mapAll, Mark.isFrame,
        List.filter_cons, List.filter_map, Function.comp_def]
    · have declared : (ports.map (portOf g)).flatMap Statement.marks =
          ports.map fun q => .port (g.port q).id.plain := by
        rw [List.flatMap_map]
        exact (List.map_eq_flatMap ..).symm
      simp only [if_neg empty, marks_append, marks_at, declared, marks_blocksLines below _ others,
        marksAll, Sheet.marks]
      simp [marks, Statement.marks, Mark.isFrame, List.filter_cons, List.filter_map,
        Function.comp_def]

theorem marks_blocksLines : ∀ (bs : List (Sheet ComponentKey PortKey Wire)) (depth : Int),
    (∀ c ∈ blocksAll bs, c.Depicts g fun _ => true) →
      marks (blocksLines g depth bs) = (marksAll (charts g bs)).filter Mark.isFrame
  | [], _, _ => rfl
  | b :: bs, depth, depicts => by
    rw [blocksAll, List.forall_mem_append] at depicts
    have apart : charts g (b :: bs) = charts g [b] ++ charts g bs := rfl
    rw [blocksLines, marks_append, marks_blockLines b depth depicts.1,
      marks_blocksLines bs depth depicts.2, apart, marksAll_append, List.filter_append]

end

theorem marks_document (title way : Text) (body : List Line) (notes : Notes) :
    marks (document title way body notes) =
      marks body ++ notes.wires.flatMap Statement.marks := by
  have styles : marks (if notes.styled.isEmpty then [] else [⟨0, .blank⟩, ⟨1, .styleComment⟩,
      ⟨1, .styleClass⟩, ⟨1, .styled notes.styled⟩]) = [] := by
    split <;> rfl
  rw [document]
  simp only [marks_append, marks_at, styles, List.append_nil]
  simp [marks, Statement.marks]

/-- A flowchart shows the blocks of a graph, and their edges behind them. -/
theorem marks_flowchart (hg : g.Coherent) (title : Text) :
    marks (flowchart g title) = marksApart (chart g) := by
  have body := marks_blocksLines (g.sheets fun _ => true) 1 hg.depicts_sheets
  have edges : ((stated (g.sheets fun _ => true)).map (edgeOf g)).flatMap Statement.marks =
      (stated (chart g)).map .edge := by
    rw [chart, charts, stated_mapAll, List.map_map, List.flatMap_map]
    exact (List.map_eq_flatMap ..).symm
  rw [flowchart, marks_document, body, notesOf, edges]
  rfl

theorem edges_of_marks {ls : List Line} (hg : g.Coherent)
    (shows : marks ls = marksApart (chart g)) : edges ls = g.allWires.map (endIds g) := by
  rw [edges_eq, shows, marksApart, List.filterMap_append, Mark.filterMap_edge?_frames,
    Mark.filterMap_edge?_edges, chart, charts, stated_mapAll, hg.stated_sheets g.spares_all,
    List.nil_append]

theorem declared_of_marks {ls : List Line} (hg : g.Coherent)
    (shows : marks ls = marksApart (chart g)) :
    declared ls = g.components.flatMap (declarations g) := by
  rw [declared_eq, shows, marksApart, List.filterMap_append, Mark.filterMap_declared?_frames,
    Mark.filterMap_declared?_edges, List.append_nil, declared_marksAll, chart, charts,
    blocksAll_mapAll, List.flatMap_map]
  simp only [name_map, ports_map, List.map_map]
  have all : g.components.filter (fun _ => true) = g.components := by simp
  rw [← all]
  exact hg.flatMap_blocks g.spares_all fun k qs =>
    Sum.inl (g.component k).id :: qs.map (Sum.inr ∘ fun q => (g.port q).id.plain)

end Mermaid

end Schematic
