import Schematic.Proofs.Drawing.Formats

/-! The text format that knows no identifiers can be read back line by line, if no name spreads over
lines and no name of a port holds the arrow of an edge. So its texts tell drawings apart. -/

namespace Schematic

open Sheet

variable {σ : Type}

namespace ElkText

variable {g : Graph} {ls : List Line} {name : Text}

def newline : CodePoint := .ofChar '\n'

def isBlank (p : CodePoint) : Bool := p == .ofChar ' '

def arrow : Text := "->"

def cutAtArrow : List CodePoint → List CodePoint × List CodePoint
  | [] => ([], [])
  | p :: ps =>
    if arrow.points.isPrefixOf (p :: ps) then ([], ps.drop 1)
    else (p :: (cutAtArrow ps).1, (cutAtArrow ps).2)

/-- A port from what follows its first word. That is its name twice and thirty points more, of which
the sixteenth behind the name begins the side. -/
def readPort (rest : List CodePoint) : Text × Bool :=
  let n := (rest.length - 30) / 2
  (⟨rest.take n⟩, (rest.drop (n + 15)).head? == some 'W')

/-- An edge from what follows its first word. Blanks are around the arrow. -/
def readEdge (rest : List CodePoint) : Text × Text :=
  (⟨(cutAtArrow rest).1.dropLast⟩, ⟨(cutAtArrow rest).2.drop 1⟩)

def readStatement (points : List CodePoint) : Option (Mark Text (Text × Bool) (Text × Text)) :=
  let word : Text := ⟨points.take 5⟩
  let rest := points.drop 5
  if word = "node " then some (.opened ⟨rest.take (rest.length - 2)⟩)
  else if word = "port " then some (.port (readPort rest))
  else if word = "edge " then some (.edge (readEdge rest))
  else if word = "\x7d" then some .closed
  else none

def readLine (points : List CodePoint) : Option (Mark Text (Text × Bool) (Text × Text)) :=
  readStatement (points.dropWhile isBlank)

def readText (text : Text) : Option (List Figure) :=
  Sheet.read ((text.points.splitOn newline).filterMap readLine)

theorem readStatement_node (name : Text) :
    readStatement (Statement.node name).text.points = some (.opened name) := by
  have rest : (Statement.node name).text.points.drop 5 =
      name.points ++ (" \x7b" : Text).points := rfl
  have read : readStatement (Statement.node name).text.points =
      some (.opened ⟨((Statement.node name).text.points.drop 5).take
        (((Statement.node name).text.points.drop 5).length - 2)⟩) := rfl
  rw [read, rest]
  simp

theorem readPort_eq (p : Text × Bool) :
    readPort ((portStatementOf p).text.points.drop 5) = p := by
  obtain ⟨name, input⟩ := p
  have rest : (portStatementOf (name, input)).text.points.drop 5 = name.points ++
      ((" \x7b ^port.side: " : Text).points ++ ((if input then "WEST" else "EAST" : Text).points ++
        ((" label '" : Text).points ++ (name.points ++ ("' \x7d" : Text).points)))) := by
    cases input <;> simp [portStatementOf, Statement.text]
  have length : ((portStatementOf (name, input)).text.points.drop 5).length =
      2 * name.points.length + 30 := by
    rw [rest]
    cases input <;> simp <;> omega
  have half : (2 * name.points.length + 30 - 30) / 2 = name.points.length := by omega
  rw [readPort, length, half, rest, List.take_left, List.drop_append,
    List.drop_of_length_le (by omega), Nat.add_sub_cancel_left]
  cases input <;> rfl

/-- The first arrow is the one behind a source that holds none, with which the blank before it makes
none either. -/
theorem cutAtArrow_eq {ps : List CodePoint} (rest : List CodePoint)
    (plain : Text.isRunOf arrow.points ps = false) :
    cutAtArrow (ps ++ ((" -> " : Text).points ++ rest)) =
      (ps ++ (" " : Text).points, (" " : Text).points ++ rest) := by
  induction ps with
  | nil => rfl
  | cons p ps ih =>
    rw [Text.isRunOf, Bool.or_eq_false_iff] at plain
    have other : arrow.points.isPrefixOf (p :: (ps ++ ((" -> " : Text).points ++ rest))) =
        false := by
      cases ps with
      | nil =>
        have blank : (CodePoint.ofChar '>' == CodePoint.ofChar ' ') = false := rfl
        simp [arrow, List.isPrefixOf, blank]
      | cons q ps => exact plain.1
    rw [List.cons_append, cutAtArrow, other, ih plain.2]
    rfl

theorem readEdge_eq {e : Text × Text} (plain : e.1.mentions arrow = false) :
    readEdge ((edgeStatementOf e).text.points.drop 5) = e := by
  have rest : (edgeStatementOf e).text.points.drop 5 =
      e.1.points ++ ((" -> " : Text).points ++ e.2.points) := by
    simp [edgeStatementOf, Statement.text]
  rw [rest, readEdge, cutAtArrow_eq _ plain]
  simp

structure Line.IsLegible (l : Line) : Prop where
  flat : newline ∉ l.text.points
  reads : readLine l.text.points = l.statement.mark?

/-- The blanks before a statement are read away, as it begins with none. -/
theorem isLegible {s : Statement} (flat : newline ∉ s.text.points)
    (front : s.text.points.dropWhile isBlank = s.text.points)
    (reads : readStatement s.text.points = s.mark?) (depth : Nat) :
    Line.IsLegible ⟨depth, s⟩ where
  flat := by
    have other : newline ≠ CodePoint.ofChar ' ' := by decide
    simp [Line.text, Text.blanks, other, flat]
  reads := by
    have indented : (Line.mk depth s).text.points.dropWhile isBlank =
        s.text.points.dropWhile isBlank := by
      simp [Line.text, Text.blanks, List.dropWhile_append, isBlank]
    rw [readLine, indented, front, reads]

theorem not_mem_of_holds (flat : name.holds '\n' = false) : newline ∉ name.points := by
  simpa [Text.holds, newline] using flat

/-- A number is written by digits. -/
theorem not_mem_repr {c : Char} (other : c.isDigit = false) (n : Nat) :
    CodePoint.ofChar c ∉ (toString n : Text).points := by
  intro listed
  obtain ⟨d, hd, same⟩ := List.mem_map.mp listed
  cases CodePoint.ofChar_inj.mp same
  rw [toList_natText] at hd
  exact (areDigits_toDigits n).not_mem other hd

/-- A line stays one line if its parts do. -/
theorem flat_append {t u : Text} (ht : newline ∉ t.points) (hu : newline ∉ u.points) :
    newline ∉ (t ++ u).points := by
  rw [Text.points_append, List.mem_append, not_or]
  exact ⟨ht, hu⟩

theorem legible_size (height depth : Nat) : Line.IsLegible ⟨depth, .size height⟩ := by
  have digits : newline ∉ (toString height : Text).points := not_mem_repr rfl height
  exact isLegible (flat_append (flat_append (by decide) digits) (by decide)) rfl rfl depth

theorem legible_node (flat : name.holds '\n' = false) (depth : Nat) :
    Line.IsLegible ⟨depth, .node name⟩ := by
  have clear := not_mem_of_holds flat
  exact isLegible (flat_append (flat_append (by decide) clear) (by decide)) rfl
    (readStatement_node name) depth

theorem legible_label (flat : name.holds '\n' = false) (depth : Nat) :
    Line.IsLegible ⟨depth, .label name⟩ := by
  have clear := not_mem_of_holds flat
  exact isLegible (flat_append (flat_append (by decide) clear) (by decide)) rfl rfl depth

theorem legible_port {p : Text × Bool} (flat : p.1.holds '\n' = false) (depth : Nat) :
    Line.IsLegible ⟨depth, portStatementOf p⟩ := by
  have clear := not_mem_of_holds flat
  have side : newline ∉ ((if p.2 then "WEST" else "EAST" : String) : Text).points := by
    cases p.2 <;> decide
  have reads : readStatement (portStatementOf p).text.points =
      some (.port (readPort ((portStatementOf p).text.points.drop 5))) := rfl
  have shows : (portStatementOf p).mark? = some (.port p) := by
    obtain ⟨name, input⟩ := p
    cases input <;> rfl
  refine isLegible ?_ rfl (by rw [reads, readPort_eq, shows]) depth
  have named := flat_append (t := "port ") (by decide) clear
  have sided := flat_append (flat_append (u := " \x7b ^port.side: ") named (by decide)) side
  exact flat_append (flat_append (flat_append sided (by decide)) clear) (by decide)

theorem legible_edge {e : Text × Text} (flat : e.1.holds '\n' = false)
    (flat' : e.2.holds '\n' = false) (plain : e.1.mentions arrow = false) (depth : Nat) :
    Line.IsLegible ⟨depth, edgeStatementOf e⟩ := by
  have reads : readStatement (edgeStatementOf e).text.points =
      some (.edge (readEdge ((edgeStatementOf e).text.points.drop 5))) := rfl
  refine isLegible ?_ rfl (by rw [reads, readEdge_eq plain]; rfl) depth
  have named := flat_append (t := "edge ") (by decide) (not_mem_of_holds flat)
  exact flat_append (flat_append named (by decide)) (not_mem_of_holds flat')

/-- A block whose names stay on one line, and the first of its edges' names without arrows. -/
structure IsPlain (b : Figure) : Prop where
  name : b.name.holds '\n' = false
  ports : ∀ p ∈ b.ports, p.1.holds '\n' = false
  edges : ∀ e ∈ b.edges, e.1.holds '\n' = false ∧ e.2.holds '\n' = false ∧
    e.1.mentions arrow = false

mutual

theorem legible_figureLines : ∀ (b : Figure) (depth : Nat), (∀ c ∈ b.blocks, IsPlain c) →
    ∀ l ∈ figureLines depth b, l.IsLegible
  | .block name ports edges below, depth, plain, l, hl => by
    rw [blocks, List.forall_mem_cons] at plain
    obtain ⟨own, others⟩ := plain
    simp only [figureLines, List.map_map, List.mem_append, List.mem_map, List.mem_cons,
      List.not_mem_nil, or_false] at hl
    rcases hl with ((((rfl | rfl | rfl | rfl) | ⟨p, hp, rfl⟩) | hl) | ⟨e, he, rfl⟩) | rfl | rfl
    · exact legible_node own.name depth
    · exact legible_size _ _
    · exact isLegible (by decide) rfl rfl _
    · exact legible_label own.name _
    · exact legible_port (own.ports p hp) _
    · exact legible_figuresLines below (depth + 1) others l hl
    · obtain ⟨flat, flat', arrowless⟩ := own.edges e he
      exact legible_edge flat flat' arrowless _
    · exact isLegible (by decide) rfl rfl _
    · exact isLegible (by decide) rfl rfl _

theorem legible_figuresLines : ∀ (bs : List Figure) (depth : Nat),
    (∀ c ∈ blocksAll bs, IsPlain c) → ∀ l ∈ figuresLines depth bs, l.IsLegible
  | [], _, _, _, hl => by cases hl
  | b :: bs, depth, plain, l, hl => by
    rw [blocksAll, List.forall_mem_append] at plain
    rw [figuresLines, List.mem_append] at hl
    rcases hl with hl | hl
    · exact legible_figureLines b depth plain.1 l hl
    · exact legible_figuresLines bs depth plain.2 l hl

end

/-- Lines are read one by one. -/
theorem readText_textOf (legible : ∀ l ∈ ls, l.IsLegible) :
    readText (textOf ls) = Sheet.read (marks ls) := by
  suffices lines : ((textOf ls).points.splitOn newline).filterMap readLine = marks ls by
    rw [readText, lines]
  induction ls with
  | nil => rfl
  | cons l ls ih =>
    rw [List.forall_mem_cons] at legible
    have first : (textOf (l :: ls)).points = l.text.points ++ newline :: (textOf ls).points := by
      simp [textOf, Text.join, newline]
    rw [first, List.splitOn_append_cons_self_of_not_mem legible.1.flat, List.filterMap_cons,
      legible.1.reads, ih legible.2]
    rfl

/-- A drawing can be read back from its text. -/
theorem readText_documentOf {bs : List Figure} (plain : ∀ b ∈ blocksAll bs, IsPlain b) :
    readText (textOf (documentOf bs)) = some bs := by
  have legible : ∀ l ∈ documentOf bs, l.IsLegible := by
    intro l hl
    simp only [documentOf, List.mem_append, List.mem_cons, List.not_mem_nil, or_false] at hl
    rcases hl with (rfl | rfl) | hl
    · exact isLegible (by decide) rfl rfl _
    · exact isLegible (by decide) rfl rfl _
    · exact legible_figuresLines bs 0 plain l hl
  rw [readText_textOf legible, marks_documentOf, read_marksAll]

structure IsLine (v : Value) : Prop where
  writable : v.isWritable = true
  flat : v.plain.holds '\n' = false

instance (v : Value) : Decidable (IsLine v) :=
  decidable_of_iff (v.isWritable = true ∧ v.plain.holds '\n' = false)
    ⟨fun h => ⟨h.1, h.2⟩, fun h => ⟨h.writable, h.flat⟩⟩

/-- A graph whose names stay on one line, those of its ports without the arrow of an edge. -/
structure HasPlainNames (g : Graph) : Prop where
  component : ∀ k ∈ g.roster, IsLine (g.component k).basename
  port : ∀ q ∈ g.ports, IsLine (g.port q).basename
  name : ∀ q ∈ g.ports, IsLine (g.port q).name ∧ (g.port q).name.plain.mentions arrow = false

instance (g : Graph) : Decidable (HasPlainNames g) :=
  decidable_of_iff ((∀ k ∈ g.roster, IsLine (g.component k).basename) ∧
      (∀ q ∈ g.ports, IsLine (g.port q).basename) ∧
      ∀ q ∈ g.ports, IsLine (g.port q).name ∧ (g.port q).name.plain.mentions arrow = false)
    ⟨fun h => ⟨h.1, h.2.1, h.2.2⟩, fun h => ⟨h.component, h.port, h.name⟩⟩

namespace HasPlainNames

theorem canSpell (names : HasPlainNames g) : CanSpell g where
  component := fun k hk => (names.component k hk).writable
  port := fun q hq => (names.port q hq).writable
  name := fun q hq => (names.name q hq).1.writable

theorem isPlain (names : HasPlainNames g) (hg : g.Coherent) :
    ∀ b ∈ blocksAll (drawing g), IsPlain b := by
  rw [drawing, figures, blocksAll_mapAll, List.forall_mem_map]
  intro b hb
  obtain ⟨known, ports, edges, -⟩ := hg.depicts_sheets b hb
  constructor
  · rw [name_map]
    exact (names.component b.name known).flat
  · rw [ports_map, ports, List.forall_mem_map]
    intro q hq
    exact (names.port q (hg.mem_ports.mpr ⟨b.name, known, hq⟩)).flat
  · rw [edges_map, edges, List.forall_mem_map]
    intro w hw
    obtain ⟨leaves, enters⟩ := (hg.lies known hw).ends hg
    obtain ⟨source, arrowless⟩ := names.name w.sourcePort leaves
    exact ⟨source.flat, (names.name w.targetPort enters).1.flat, arrowless⟩

/-- The drawing of a graph can be read back from the text that is rendered of it. -/
theorem exists_render (names : HasPlainNames g) (hg : g.Coherent) {r : ComponentKey}
    (rooted : g.root = .ok r) (title : Value) (s : σ) :
    (Schematic.render .elkText title g s).answer = .ok (textOf (documentOf (drawing g))) ∧
      readText (textOf (documentOf (drawing g))) = some (drawing g) := by
  refine ⟨?_, readText_documentOf (names.isPlain hg)⟩
  rw [answer_render rfl, rooted, render_eq names.canSpell hg]
  rfl

end HasPlainNames

end ElkText

/-- Texts of this format tell drawings apart. Of two graphs that additions make, with roots and with
names that stay on one line, none of a port with an arrow in it, the texts are equal exactly if the
graphs look the same without the components that have nothing inside: the same basenames, nested in
the same way and order, with the same ports on the same sides and with edges between ports of the
same names. -/
theorem texts_tell_drawings_apart (additions additions' : List Addition) {r r' : ComponentKey}
    (rooted : (({} : Graph).grow additions).root = .ok r)
    (rooted' : (({} : Graph).grow additions').root = .ok r')
    (names : ElkText.HasPlainNames (({} : Graph).grow additions))
    (names' : ElkText.HasPlainNames (({} : Graph).grow additions')) (title title' : Value) (s : σ) :
    let g := ({} : Graph).grow additions
    let h := ({} : Graph).grow additions'
    ∃ text text', (render .elkText title g s).answer = .ok text ∧
      (render .elkText title' h s).answer = .ok text' ∧
        (text = text' ↔ ElkText.drawing g = ElkText.drawing h) := by
  intro g h
  have hg : g.IsBuilt := Graph.IsBuilt.empty.grow additions
  have hh : h.IsBuilt := Graph.IsBuilt.empty.grow additions'
  obtain ⟨rendered, back⟩ := names.exists_render hg.coherent rooted title s
  obtain ⟨rendered', back'⟩ := names'.exists_render hh.coherent rooted' title' s
  refine ⟨_, _, rendered, rendered', ?_, fun same => by rw [same]⟩
  intro same
  apply Option.some.inj
  rw [← back, ← back', same]

/-- A driver and a receiver beside it once more, of other types and behind an idle component. -/
def threeOthers : List Addition :=
  [.component (.text "t") (.text "top") (.text "T") none,
    .component (.text "t.idle") (.text "idle") (.text "C") (some ⟨0⟩),
    .component (.text "t.a") (.text "a") (.text "A") (some ⟨0⟩),
    .component (.text "t.b") (.text "b") (.text "B") (some ⟨0⟩),
    .port ⟨3⟩
      { name := .text "top.b.i", basename := .text "i", direction := .input
        typeName := .text "sc_in", identity := .text "w" },
    .port ⟨2⟩
      { name := .text "top.a.o", basename := .text "o", direction := .output
        typeName := .text "sc_inout", identity := .text "w" }]

def siblingsDrawing : List ElkText.Figure :=
  [.block "top" [] [("top.a.o", "top.b.i")]
    [.block "a" [("o", false)] [] [], .block "b" [("i", true)] [] []]]

theorem texts_tell_drawings_apart_of_siblings :
    (({} : Graph).grow threeSiblings).root = .ok ⟨0⟩ ∧
      (({} : Graph).grow threeOthers).root = .ok ⟨0⟩ ∧
      ElkText.HasPlainNames (({} : Graph).grow threeSiblings) ∧
      ElkText.HasPlainNames (({} : Graph).grow threeOthers) ∧
      ∃ text, (render .elkText (.text "top") (({} : Graph).grow threeSiblings) ()).answer =
          .ok text ∧
        (render .elkText .null (({} : Graph).grow threeOthers) ()).answer = .ok text := by
  have rooted : (({} : Graph).grow threeSiblings).root = .ok ⟨0⟩ := by rfl
  have rooted' : (({} : Graph).grow threeOthers).root = .ok ⟨0⟩ := by rfl
  have names : ElkText.HasPlainNames (({} : Graph).grow threeSiblings) := by decide +kernel
  have names' : ElkText.HasPlainNames (({} : Graph).grow threeOthers) := by decide +kernel
  have drawn : ElkText.drawing (({} : Graph).grow threeSiblings) = siblingsDrawing :=
    marksAll_injective (by decide +kernel)
  have drawn' : ElkText.drawing (({} : Graph).grow threeOthers) = siblingsDrawing :=
    marksAll_injective (by decide +kernel)
  refine ⟨rooted, rooted', names, names', ?_⟩
  obtain ⟨text, text', rendered, rendered', same⟩ := texts_tell_drawings_apart threeSiblings
    threeOthers rooted rooted' names names' (.text "top") .null ()
  cases same.mpr (drawn.trans drawn'.symm)
  exact ⟨text, rendered, rendered'⟩

end Schematic
