import Schematic.Proofs.Drawing.Labels

/-! Lines of a flowchart are read back one by one, and every subgraph has its end. Only an edge that
is called by a text with a bar is not read back from its line. -/

namespace Schematic

open Sheet

namespace Mermaid

open ElkText (newline isBlank flat_append)

variable {σ : Type} {g : Graph} {ls : List Line} {l : Line}

/-- A line by its statement and its depth, four blanks for each level. -/
def readLine? (ps : List CodePoint) : Option Line :=
  (readStatement? (ps.dropWhile isBlank)).map fun s =>
    ⟨((ps.takeWhile isBlank).length / 4 : Nat), s⟩

def readText? (text : Text) : Option (List Line) :=
  (text.points.splitOn newline).dropLast.mapM readLine?

def Statement.isBracket : Statement → Bool
  | subgraph _ _ => true
  | close => true
  | _ => false

def Statement.isEdge : Statement → Bool
  | edge _ _ _ _ => true
  | _ => false

def Statement.quoted? : Statement → Option Text
  | subgraph _ label => some label
  | component _ label => some label
  | port _ _ label => some label
  | _ => none

/-- Lines in which every subgraph has its end, which is at the same depth. -/
inductive AreClosed : List Line → Prop
  | nil : AreClosed []
  | line {l : Line} {rest : List Line} (plain : l.statement.isBracket = false)
      (later : AreClosed rest) : AreClosed (l :: rest)
  | block {inner rest : List Line} (depth : Int) (id : Nat) (label : Text)
      (within : AreClosed inner) (later : AreClosed rest) :
      AreClosed (⟨depth, .subgraph id label⟩ :: (inner ++ ⟨depth, .close⟩ :: rest))

/-- What can be told of the lines of a flowchart: each is one line of the text and, unless an edge
is torn, read back from it. -/
structure AreLegible (ls : List Line) : Prop where
  apart : (textOf ls).points.splitOn newline = ls.map (fun l => l.text.points) ++ [[]]
  closed : AreClosed ls
  reads : ∀ l ∈ ls, readLine? l.text.points = if l.statement.isTorn then none else some l
  quoted : ∀ l ∈ ls, ∀ label ∈ l.statement.quoted?, label.holds '"' = false

structure Line.IsSound (l : Line) : Prop where
  depth : 0 ≤ l.depth
  statement : l.statement.IsSound

theorem readLine?_text (sound : l.IsSound) :
    readLine? l.text.points = if l.statement.isTorn then none else some l := by
  obtain ⟨depth, s⟩ := l
  obtain ⟨deep, sound⟩ := sound
  obtain ⟨none, all⟩ := front_text s
  have blank : isBlank (CodePoint.ofChar ' ') = true := rfl
  have indented : (Line.mk depth s).text.points.takeWhile isBlank =
      List.replicate (4 * depth.toNat) (CodePoint.ofChar ' ') := by
    simp [Line.text, Text.blanks, none, blank]
  have rest : (Line.mk depth s).text.points.dropWhile isBlank = s.text.points := by
    simp [Line.text, Text.blanks, all, blank]
  rw [readLine?, indented, rest, readStatement?_text sound, List.length_replicate,
    Nat.mul_div_cancel_left _ (by decide), Int.toNat_of_nonneg deep]
  dsimp only
  split <;> rfl

theorem flat_line (sound : l.IsSound) : newline ∉ l.text.points := by
  have blanks : newline ∉ (Text.blanks (4 * l.depth.toNat)).points := by
    have other : newline ≠ CodePoint.ofChar ' ' := by decide
    simp [Text.blanks, other]
  exact flat_append blanks (flat_text sound.statement)

theorem splitOn_textOf (sound : ∀ l ∈ ls, l.IsSound) :
    (textOf ls).points.splitOn newline = ls.map (fun l => l.text.points) ++ [[]] := by
  induction ls with
  | nil => rfl
  | cons l ls ih =>
    rw [List.forall_mem_cons] at sound
    have first : (textOf (l :: ls)).points = l.text.points ++ newline :: (textOf ls).points := by
      simp [textOf, Text.join, newline]
    rw [first, List.splitOn_append_cons_self_of_not_mem (flat_line sound.1), ih sound.2]
    rfl

/-- Lines are read one by one, and all of them if none is torn. -/
theorem readText?_textOf (sound : ∀ l ∈ ls, l.IsSound) :
    readText? (textOf ls) = some ls ↔ ∀ l ∈ ls, l.statement.isTorn = false := by
  rw [readText?, splitOn_textOf sound, List.dropLast_concat]
  induction ls with
  | nil => simp
  | cons l ls ih =>
    rw [List.forall_mem_cons] at sound
    have more (r : Option (List Line)) :
        (r.bind fun rest => some (l :: rest)) = some (l :: ls) ↔ r = some ls := by
      cases r <;> simp
    rw [List.map_cons, List.mapM_cons, readLine?_text sound.1, List.forall_mem_cons, ← ih sound.2]
    cases l.statement.isTorn with
    | true => simp
    | false => exact (more _).trans (and_iff_right rfl).symm

section flowchart

variable {bs : List (Sheet ComponentKey PortKey Wire)}

/-- Lines that state no edges and open and close no subgraphs. -/
theorem areClosed_of_plain (plain : ∀ l ∈ ls, l.statement.isBracket = false) : AreClosed ls := by
  induction ls with
  | nil => exact .nil
  | cons l ls ih =>
    rw [List.forall_mem_cons] at plain
    exact .line plain.1 (ih plain.2)

theorem AreClosed.append {ls' : List Line} (first : AreClosed ls) (rest : AreClosed ls') :
    AreClosed (ls ++ ls') := by
  induction first with
  | nil => exact rest
  | line plain _ ih => exact .line plain ih
  | block depth id label within _ _ ih =>
    rw [List.cons_append, List.append_assoc, List.cons_append]
    exact .block depth id label within ih

theorem closed_at (depth : Int) (ports : List PortKey) :
    AreClosed ((ports.map (portOf g)).map fun s => ⟨depth, s⟩) := by
  apply areClosed_of_plain
  simp [portOf, Statement.isBracket]

mutual

theorem closed_blockLines : ∀ (b : Sheet ComponentKey PortKey Wire) (depth : Int),
    AreClosed (blockLines g depth b)
  | .block k ports edges below, depth => by
    rw [blockLines]
    split
    · exact .line rfl .nil
    · have inner := (closed_at (g := g) (depth + 1) ports).append
        (closed_blocksLines below (depth + 1))
      have whole := AreClosed.block depth (g.component k).id (labelIn (g.component k).basename)
        (.line (l := ⟨depth + 1, .runs "LR"⟩) rfl inner) .nil
      simpa using whole

theorem closed_blocksLines : ∀ (bs : List (Sheet ComponentKey PortKey Wire)) (depth : Int),
    AreClosed (blocksLines g depth bs)
  | [], _ => .nil
  | b :: bs, depth => (closed_blockLines b depth).append (closed_blocksLines bs depth)

end

def HasNumbers (g : Graph) : Prop := ∀ q ∈ g.ports, IsNumeral (g.port q).id.plain

theorem hasNumbers (hg : g.IsBuilt) : HasNumbers g := by
  intro q hq
  have listed : g.portNumber q ∈ (List.range' 1 g.lastId).map Json.numeral :=
    hg.parts.subset (List.mem_append_right _ (List.mem_map_of_mem hq))
  obtain ⟨n, -, same⟩ := List.mem_map.mp listed
  exact ⟨n, (Json.text.inj same).symm⟩

theorem sound_portOf (numbers : HasNumbers g) {q : PortKey} (hq : q ∈ g.ports) :
    (portOf g q).IsSound :=
  ⟨numbers q hq, isCalm_sanitise _⟩

theorem sound_edgeOf (numbers : HasNumbers g) {w : Wire} (hs : w.sourcePort ∈ g.ports)
    (ht : w.targetPort ∈ g.ports) : (edgeOf g w).IsSound :=
  ⟨numbers _ hs, isCalm_sanitise _, numbers _ ht⟩

mutual

/-- The lines of a block are legible, and none of them is an edge. -/
theorem sound_blockLines (numbers : HasNumbers g) :
    ∀ (b : Sheet ComponentKey PortKey Wire) (depth : Int), 0 ≤ depth →
      (∀ c ∈ b.blocks, ∀ q ∈ c.ports, q ∈ g.ports) →
        ∀ l ∈ blockLines g depth b, l.IsSound ∧ l.statement.isEdge = false
  | .block k ports edges below, depth, deep, known, l, hl => by
    rw [blocks, List.forall_mem_cons] at known
    have inner : 0 ≤ depth + 1 := by omega
    rw [blockLines] at hl
    split at hl
    · cases List.mem_singleton.mp hl
      exact ⟨⟨deep, isCalm_sanitise _⟩, rfl⟩
    · simp only [List.map_map, List.mem_append, List.mem_map, List.mem_cons, List.not_mem_nil,
        or_false] at hl
      rcases hl with (((rfl | rfl) | ⟨q, hq, rfl⟩) | hl) | rfl
      · exact ⟨⟨deep, isCalm_sanitise _⟩, rfl⟩
      · exact ⟨⟨inner, rfl⟩, rfl⟩
      · exact ⟨⟨inner, sound_portOf numbers (known.1 q hq)⟩, rfl⟩
      · exact sound_blocksLines numbers below (depth + 1) inner known.2 l hl
      · exact ⟨⟨deep, trivial⟩, rfl⟩

theorem sound_blocksLines (numbers : HasNumbers g) :
    ∀ (bs : List (Sheet ComponentKey PortKey Wire)) (depth : Int), 0 ≤ depth →
      (∀ c ∈ blocksAll bs, ∀ q ∈ c.ports, q ∈ g.ports) →
        ∀ l ∈ blocksLines g depth bs, l.IsSound ∧ l.statement.isEdge = false
  | [], _, _, _, _, hl => by cases hl
  | b :: bs, depth, deep, known, l, hl => by
    rw [blocksAll, List.forall_mem_append] at known
    rw [blocksLines, List.mem_append] at hl
    rcases hl with hl | hl
    · exact sound_blockLines numbers b depth deep known.1 l hl
    · exact sound_blocksLines numbers bs depth deep known.2 l hl

end

/-- The notes on a graph: one line for each of its wires, and the numbers of some of its ports. -/
theorem sound_notesOf (hg : g.Coherent) (numbers : HasNumbers g) :
    (notesOf g (g.sheets fun _ => true)).wires = g.allWires.map (edgeOf g) ∧
      (∀ w ∈ g.allWires, (edgeOf g w).IsSound) ∧
      ∀ id ∈ (notesOf g (g.sheets fun _ => true)).styled, IsNumeral id := by
  refine ⟨congrArg _ (hg.stated_sheets g.spares_all), fun w hw => ?_, fun id hid => ?_⟩
  · rw [← hg.stated_sheets g.spares_all] at hw
    obtain ⟨b, hb, listed⟩ := exists_of_statedAll _ hw
    obtain ⟨known, -, edges, -⟩ := hg.depicts_sheets b hb
    have ends := (hg.lies known (edges ▸ listed)).ends hg
    exact sound_edgeOf numbers ends.1 ends.2
  · obtain ⟨b, hb, listed⟩ := List.mem_flatMap.mp hid
    obtain ⟨v, hv, rfl⟩ := List.mem_map.mp listed
    obtain ⟨q, hq, styled⟩ := List.mem_flatMap.mp hv
    obtain ⟨known, ports, -, -⟩ := hg.depicts_sheets b hb
    rw [eq_of_mem_styledId styled]
    exact numbers q (hg.mem_ports.mpr ⟨b.name, known, ports ▸ hq⟩)

theorem sound_body (hg : g.IsBuilt) : ∀ l ∈ blocksLines g 1 (g.sheets fun _ => true),
    l.IsSound ∧ l.statement.isEdge = false := by
  refine sound_blocksLines (hasNumbers hg) _ 1 (by decide) fun c hc q hq => ?_
  obtain ⟨roster, ports, -, -⟩ := hg.coherent.depicts_sheets c hc
  exact hg.coherent.mem_ports.mpr ⟨c.name, roster, ports ▸ hq⟩

theorem sound_flowchart (hg : g.IsBuilt) {title : Text} (flat : newline ∉ title.points) :
    ∀ l ∈ flowchart g title, l.IsSound := by
  obtain ⟨wires, edges, styled⟩ := sound_notesOf hg.coherent (hasNumbers hg)
  have outer : (0 : Int) ≤ 0 := by decide
  have inner : (0 : Int) ≤ 1 := by decide
  intro l hl
  rw [flowchart, document, wires] at hl
  simp only [List.map_map, List.mem_append, List.mem_map, List.mem_cons, List.not_mem_nil,
    or_false] at hl
  rcases hl with (((head | hl) | rfl) | ⟨w, hw, rfl⟩) | hl
  · rcases head with rfl | rfl | rfl | rfl | rfl
    · exact ⟨outer, trivial⟩
    · exact ⟨outer, flat⟩
    · exact ⟨outer, trivial⟩
    · exact ⟨outer, rfl⟩
    · exact ⟨outer, trivial⟩
  · exact (sound_body hg l hl).1
  · exact ⟨outer, trivial⟩
  · exact ⟨inner, edges w hw⟩
  · split at hl
    · cases hl
    · next listed =>
      simp only [List.mem_cons, List.not_mem_nil, or_false] at hl
      rcases hl with rfl | rfl | rfl | rfl
      · exact ⟨outer, trivial⟩
      · exact ⟨inner, trivial⟩
      · exact ⟨inner, trivial⟩
      · exact ⟨inner, by simpa using listed, styled⟩

theorem closed_flowchart (g : Graph) (title : Text) : AreClosed (flowchart g title) := by
  have wires : AreClosed ((notesOf g (g.sheets fun _ => true)).wires.map fun s => ⟨1, s⟩) := by
    apply areClosed_of_plain
    simp [notesOf, edgeOf, Statement.isBracket]
  rw [flowchart, document]
  refine .append (.append (.append (.append (areClosed_of_plain ?_) (closed_blocksLines _ _))
    (areClosed_of_plain ?_)) wires) (areClosed_of_plain ?_)
  · simp [Statement.isBracket]
  · simp [Statement.isBracket]
  · split <;> simp [Statement.isBracket]

theorem edges_document (title way : Text) (body : List Line) (notes : Notes)
    (plain : ∀ l ∈ body, l.statement.isEdge = false) (joins : ∀ s ∈ notes.wires, s.isEdge = true) :
    ((document title way body notes).map Line.statement).filter Statement.isEdge = notes.wires := by
  have none : (body.map Line.statement).filter Statement.isEdge = [] := by
    rw [List.filter_eq_nil_iff, List.forall_mem_map]
    exact fun l hl => Bool.eq_false_iff.mp (plain l hl)
  have all : (notes.wires.map fun s => (s : Statement)).filter Statement.isEdge = notes.wires := by
    rw [List.map_id', List.filter_eq_self]
    exact joins
  have styles : ((if notes.styled.isEmpty then [] else [⟨0, .blank⟩, ⟨1, .styleComment⟩,
      ⟨1, .styleClass⟩, ⟨1, .styled notes.styled⟩] : List Line).map Line.statement).filter
        Statement.isEdge = [] := by
    split <;> rfl
  rw [document]
  simp only [List.map_append, List.filter_append, List.map_map, Function.comp_def, none, all,
    styles, List.append_nil]
  rfl

/-- The edges of a flowchart are the wires of the graph. -/
theorem edges_flowchart (hg : g.IsBuilt) (title : Text) :
    ((flowchart g title).map Line.statement).filter Statement.isEdge =
      g.allWires.map (edgeOf g) := by
  have wires := (sound_notesOf hg.coherent (hasNumbers hg)).1
  rw [flowchart, edges_document _ _ _ _ fun l hl => (sound_body hg l hl).2]
  · exact wires
  · rw [wires, List.forall_mem_map]
    exact fun _ _ => rfl

/-- All lines are read back if what no edge is called holds a bar. -/
theorem readText?_flowchart (hg : g.IsBuilt) {title : Text} (flat : newline ∉ title.points) :
    readText? (textOf (flowchart g title)) = some (flowchart g title) ↔
      ∀ w ∈ g.allWires, (wireWord g w).holds '|' = false := by
  have edges := edges_flowchart hg title
  have torn (w : Wire) : (edgeOf g w).isTorn = (wireWord g w).holds '|' := holds_sanitise _
  rw [readText?_textOf (sound_flowchart hg flat)]
  constructor
  · intro whole w hw
    have listed : edgeOf g w ∈ (flowchart g title).map Line.statement :=
      List.mem_of_mem_filter (edges ▸ List.mem_map_of_mem hw)
    obtain ⟨l, hl, same⟩ := List.mem_map.mp listed
    rw [← torn, ← same]
    exact whole l hl
  · intro clear l hl
    by_contra barred
    have edge : l.statement.isEdge = true := by
      cases spoken : l.statement <;> rw [spoken] at barred <;>
        first | rfl | exact absurd rfl barred
    have listed := List.mem_filter.mpr ⟨List.mem_map_of_mem (f := Line.statement) hl, edge⟩
    rw [edges] at listed
    obtain ⟨w, hw, same⟩ := List.mem_map.mp listed
    rw [← same, torn] at barred
    exact barred (clear w hw)

theorem legible_flowchart (hg : g.IsBuilt) {title : Text} (flat : newline ∉ title.points) :
    AreLegible (flowchart g title) where
  apart := splitOn_textOf (sound_flowchart hg flat)
  closed := closed_flowchart g title
  reads := fun l hl => readLine?_text (sound_flowchart hg flat l hl)
  quoted := by
    intro l hl label quoted
    have sound := (sound_flowchart hg flat l hl).statement
    have calm : IsCalm label := by
      cases spoken : l.statement <;> rw [spoken] at sound quoted <;> cases quoted
      · exact sound
      · exact sound
      · exact sound.2
    exact Bool.eq_false_iff.mpr fun holds => calm.unquoted (List.contains_iff_mem.mp holds)

end flowchart

end Mermaid

open Mermaid in
/-- Every line of a flowchart is one statement, whatever texts the components and ports of its graph
are called by and its ports are bound to. For a graph that additions make and a title on one line
the document is made of lines of which each is read back as the one statement that it is, with the
labels in quotes free of quotes and with an end for every subgraph. Only an edge whose label holds a
bar is not read back. The edges are the wires of the graph, and such a label holds a bar exactly if
what the wire is called does: then its line has more than two bars, and no bar is replaced. -/
theorem flowchart_lines_read_back (additions : List Addition)
    (labels : CanLabel (({} : Graph).grow additions)) {r : ComponentKey}
    (rooted : (({} : Graph).grow additions).root = .ok r) (title : Text)
    (flat : title.holds '\n' = false) {σ : Type} (s : σ) :
    let g := ({} : Graph).grow additions
    (render .mermaid (.text title) g).Needs s (Format.mermaid.CanShow g)
        (fun text _ => text = textOf (flowchart g title)) ∧
      AreLegible (flowchart g title) ∧
      ((flowchart g title).map Line.statement).filter Statement.isEdge =
        g.allWires.map (edgeOf g) ∧
      (∀ w ∈ g.allWires, (edgeOf g w).isTorn = (wireWord g w).holds '|') ∧
      (readText? (textOf (flowchart g title)) = some (flowchart g title) ↔
        ∀ w ∈ g.allWires, (wireWord g w).holds '|' = false) := by
  intro g
  have hg : g.IsBuilt := Graph.IsBuilt.empty.grow additions
  have line := ElkText.not_mem_of_holds flat
  obtain ⟨o, outlined⟩ := Graph.exists_outline rooted
  have drawn := needs_draw labels hg.coherent outlined title s
  refine ⟨needs_render_of rooted ?_, legible_flowchart hg line, edges_flowchart hg title,
    fun w _ => holds_sanitise _, readText?_flowchart hg line⟩
  exact (drawn.bind fun x s' shown => Action.needs_pure shown).congr (and_true _).to_iff

/-- Siblings that are called by what would end a label or a line, and a wire by one with a bar. -/
def oddSiblings : List Addition :=
  [.component (.text "top") (.text "to\"]p") (.text "Top") none,
    .component (.text "top.a") (.text "a\nend") (.text "A") (some ⟨0⟩),
    .component (.text "top.b") (.text "| b |") (.text "B") (some ⟨0⟩),
    .port ⟨1⟩
      { name := .text "top.a.o", basename := .text "\"o\"", direction := .output
        typeName := .text "sc_out", identity := .int 1, signal := .text "req|ack" },
    .port ⟨2⟩
      { name := .text "top.b.i", basename := .text "i|", direction := .input
        typeName := .text "sc_in", identity := .int 1, synthesized := true }]

theorem oddSiblings_titled :
    ∀ a ∈ oddSiblings, a.Meets Label.IsWorded Graph.PortFacts.IsTitled := by
  simp only [oddSiblings, List.forall_mem_cons, List.not_mem_nil, false_implies, implies_true,
    and_true, Addition.Meets]
  and_intros <;>
    first
      | exact ⟨⟨_, rfl⟩, ⟨_, rfl⟩⟩
      | exact ⟨⟨⟨_, rfl⟩, ⟨_, rfl⟩, .inr rfl⟩, ⟨_, rfl⟩⟩
      | exact ⟨⟨⟨_, rfl⟩, ⟨_, rfl⟩, .inl ⟨_, rfl⟩⟩, ⟨_, rfl⟩⟩

open Mermaid in
theorem flowchart_lines_read_back_but_for_bars :
    let g := ({} : Graph).grow oddSiblings
    CanLabel g ∧ g.root = .ok ⟨0⟩ ∧ ("a | \"title\"" : Text).holds '\n' = false ∧
      (render .mermaid (.text "a | \"title\"") g ()).answer =
        .ok (textOf (flowchart g "a | \"title\"")) ∧
      AreLegible (flowchart g "a | \"title\"") ∧
      g.allWires.map (fun w => (edgeOf g w).text) = ["p4 -->|req|ack| p5"] ∧
      readText? (textOf (flowchart g "a | \"title\"")) ≠ some (flowchart g "a | \"title\"") := by
  intro g
  have hg : g.Coherent := (Graph.IsBuilt.empty.grow oddSiblings).coherent
  have shows : g.IsTitled := Graph.hasOnly_empty.grow .empty oddSiblings_titled
  have labels : CanLabel g := canLabel shows.isLettered.isDrawable hg
  have rooted : g.root = .ok ⟨0⟩ := by rfl
  have flat : ("a | \"title\"" : Text).holds '\n' = false := by decide
  have written : Format.mermaid.CanShow g := by
    have all : g.ports.all (fun q => (g.port q).id.isWritable) = true := by decide +kernel
    exact List.all_eq_true.mp all
  have joined : g.allWires.map (fun w => (edgeOf g w).text) = ["p4 -->|req|ack| p5"] := by
    decide +kernel
  have barred : g.allWires.all (fun w => !(wireWord g w).holds '|') = false := by decide +kernel
  obtain ⟨drawn, legible, -, -, whole⟩ :=
    flowchart_lines_read_back oddSiblings labels rooted "a | \"title\"" flat ()
  obtain ⟨text, rendered, rfl⟩ := drawn.answers written
  refine ⟨labels, rooted, flat, rendered, legible, joined, fun read => ?_⟩
  have clear : g.allWires.all (fun w => !(wireWord g w).holds '|') = true := by
    simpa using whole.mp read
  exact Bool.false_ne_true (barred.symm.trans clear)

end Schematic
