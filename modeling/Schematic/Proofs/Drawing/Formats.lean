import Schematic.Proofs.Drawing.Document
import Schematic.Proofs.Drawing.Nesting
import Schematic.Proofs.Drawing.Statements

/-! All formats describe the same graph. Their edges are its wires in one order, the JSON documents
nest the same blocks, and the text formats declare its components and ports. What they need is that
the numbers that they show can be written. -/

namespace Schematic

open Json

variable {σ : Type} {s : σ} {g : Graph} {o : Outline} {title : Text}

structure Graph.PortFacts.IsTitled (facts : Graph.PortFacts) : Prop extends facts.IsLettered where
  name : facts.name.IsText

def Graph.IsTitled (g : Graph) : Prop := g.HasOnly Label.IsWorded Graph.PortFacts.IsTitled

theorem Graph.IsTitled.isLettered (titled : g.IsTitled) : g.IsLettered :=
  ⟨titled.label, fun k hk f hf => (titled.ports k hk f hf).toIsLettered⟩

theorem Graph.IsTitled.hasNames (titled : g.IsTitled) (hg : g.Coherent) : ElkText.HasNames g :=
  fun _ hq => (titled.ofPort hg hq).name.isWritable

/-- Whether all numbers that a format shows of a graph can be written. -/
def Format.CanShow (g : Graph) : Format → Prop
  | .elkText => True
  | .debugJson => ∀ q ∈ g.ports,
      (g.port q).id.isWritable = true ∧ (g.port q).identity.isWritable = true
  | _ => ∀ q ∈ g.ports, (g.port q).id.isWritable = true

/-- A document that numbers all it draws of a graph and nests its blocks. -/
structure Json.Describes (doc : Json) (g : Graph) : Prop extends doc.Numbers g where
  nests : doc.nests = g.nests

/-- What a flow of lines says of a graph: its wires, and the components that have something inside
with their ports. -/
def ElkText.Tells (g : Graph) (text : Text) : Prop :=
  ∃ ls : List Line, text = Text.join (ls.map fun l => l.text ++ "\n") ∧
    edges ls = g.allWires.map (endNames g) ∧
    declared ls = (g.components.filter (isShown g)).flatMap (declarations g)

/-- What a flowchart says of a graph: its wires, and all of its components with their ports. -/
def Mermaid.Tells (g : Graph) (text : Text) : Prop :=
  ∃ ls : List Line, text = textOf ls ∧ edges ls = g.allWires.map (endIds g) ∧
    declared ls = g.components.flatMap (declarations g)

/-- What the texts of a format say of a graph. All of them have its wires in one order. -/
def Format.Tells (g : Graph) (text : Text) : Format → Prop
  | .elkText => ElkText.Tells g text
  | .mermaid => Mermaid.Tells g text
  | _ => ∃ doc : Json, text = doc.print 4 0 ++ "\n" ∧ doc.IsSound ∧ doc.Describes g

/-- Whether a text is the printing of a document around the tree of a graph, drawn in a style. -/
def JsonStyle.Prints (style : JsonStyle) (g : Graph) (title text : Text) : Prop :=
  ∃ o root, g.outline = some o ∧ style.draw g (Block.ofOutline g ⟨g.lastId⟩ o).1 = .ok root ∧
    (style.document (.ofValue (.text title)) (some root)).IsSound ∧
    text = (style.document (.ofValue (.text title)) (some root)).print 4 0 ++ "\n"

/-- What a text is that a format shows a graph by, whatever may stand in its documents for types. -/
def Format.Shows (g : Graph) (title text : Text) : Format → Prop
  | .debugJson => DebugJson.style.Prints g title text
  | .elkJson => ElkJson.style.Prints g title text
  | .d3Json => D3Json.style.Prints g title text
  | .elkText => ElkText.Tells g text
  | .mermaid => Mermaid.Tells g text

/-- A JSON document of a graph is written if its ports can be referred to, shown and printed. -/
theorem JsonStyle.Draws.writes_render {style : JsonStyle} {shows prints : PortKey → Prop}
    (law : style.Draws g shows prints) (hg : g.Coherent) (outlined : g.outline = some o)
    (printed : ∀ q, prints q → shows q) (title : Text) :
    Writes (style.render (.text title) g g.block?)
      (∀ q ∈ g.ports, (g.port q).id.isWritable = true ∧ prints q) (style.Prints g title) := by
  have drawing := law.writes_draw hg o ⟨g.lastId⟩ (hg.unfolds outlined)
  rw [Graph.ports_of_outline outlined] at drawing
  rw [Graph.block?, outlined, Option.map_some]
  have fault (root : Json) : (style.document (.ofValue (.text title)) (some root)).firstFault? =
      root.firstFault? := by
    have whole := law.document title (some root)
    rw [Option.toList_some, firstFaultIn?, firstFaultIn?, Option.or_none] at whole
    exact whole
  constructor
  · intro holds
    obtain ⟨root, drawn, faults⟩ :=
      drawing.answers fun q hq => ⟨(holds q hq).1, printed q (holds q hq).2⟩
    have sound : (style.document (.ofValue (.text title)) (some root)).IsSound :=
      (fault root).trans (faults.1 fun q hq => (holds q hq).2)
    exact ⟨_, JsonStyle.render_of_isSound drawn sound, o, root, outlined, drawn, sound, rfl⟩
  · intro misses
    by_cases shown : ∀ q ∈ g.ports, (g.port q).id.isWritable = true ∧ shows q
    · obtain ⟨root, drawn, faults⟩ := drawing.answers shown
      have long : root.firstFault? = some .tooLong :=
        faults.2 fun all => misses fun q hq => ⟨(shown q hq).1, all q hq⟩
      exact JsonStyle.render_of_fault drawn ((fault root).trans long)
    · have failed : style.draw g (Block.ofOutline g ⟨g.lastId⟩ o).1 = .error .tooLongToWrite :=
        drawing.fails shown
      have mapped : (some (Block.ofOutline g ⟨g.lastId⟩ o).1).mapM (style.draw g) =
        .error .tooLongToWrite := congrArg (some <$> ·) failed
      change style.render (.text title) g (some (Block.ofOutline g ⟨g.lastId⟩ o).1) = _
      rw [JsonStyle.render, mapped]
      rfl

theorem JsonStyle.Lays.describes {style : JsonStyle} {joint : Wire → Joint Json Json} {root : Json}
    (law : style.Lays g joint) (hg : g.IsBuilt) (outlined : g.outline = some o)
    (drawing : style.draw g (Block.ofOutline g ⟨g.lastId⟩ o).1 = .ok root) (title : Text) :
    (style.document (.ofValue (.text title)) (some root)).Describes g where
  toNumbers := law.numbers_document hg outlined drawing title
  nests := Json.nests_of_sheets (law.sheets_document hg.coherent outlined drawing title)

theorem ElkText.writes_tells (words : g.IsDrawable) (hg : g.Coherent) (names : HasNames g) :
    Writes (ElkText.render g g.block?) True (Tells g) where
  answers := fun _ => ⟨_, render_eq (canSpell words hg names) hg, _, rfl,
    edges_documentOf hg, declared_documentOf hg⟩
  fails := fun h => absurd trivial h

theorem Mermaid.tells_of_marks {ls : List Line} (hg : g.Coherent)
    (shows : marks ls = marksApart (chart g)) : Tells g (textOf ls) :=
  ⟨ls, rfl, edges_of_marks hg shows, declared_of_marks hg shows⟩

/-- What is rendered of a graph with a root is its document. -/
theorem needs_render_of {format : Format} {title : Value} {r : ComponentKey} {need : Prop}
    {post : Text → Prop} (rooted : g.root = .ok r)
    (drawn : (document format title g g.block?).Needs s need fun text s' => post text ∧ s' = s) :
    (render format title g).Needs s need fun text _ => post text := by
  refine .of_ok rooted ?_
  refine (drawn.bind fun text s' shown => (?_ : Action.Needs _ s' True _)).congr (and_true _).to_iff
  exact Action.needs_note.andThen fun _ _ _ => Action.needs_pure shown.1

namespace Graph.IsBuilt

variable {r : ComponentKey}

theorem needs_document (hg : g.IsBuilt) (words : g.IsDrawable) (names : ElkText.HasNames g)
    (outlined : g.outline = some o) (title : Text) (s : σ) : ∀ format : Format,
      (document format (.text title) g g.block?).Needs s (format.CanShow g)
        fun text s' => format.Shows g title text ∧ s' = s
  | .debugJson => by
    have law := DebugJson.draws words hg.coherent
    exact (law.writes_render hg.coherent outlined (fun _ => .inr) title).run s
  | .elkJson => by
    have law := ElkJson.draws words hg.coherent
    refine ((law.writes_render hg.coherent outlined (fun _ => id) title).run s).congr ?_
    simp only [and_true, Format.CanShow]
  | .d3Json => by
    have law := D3Json.draws words hg.coherent
    refine ((law.writes_render hg.coherent outlined (fun _ => id) title).run s).congr ?_
    simp only [and_true, Format.CanShow]
  | .elkText => (ElkText.writes_tells words hg.coherent names).run s
  | .mermaid => by
    have labels := Mermaid.canLabel words hg.coherent
    have drawn := Mermaid.needs_draw labels hg.coherent outlined title s
    refine (drawn.bind fun x s' told => Action.needs_pure ?_).congr (and_true _).to_iff
    exact ⟨told.1 ▸ Mermaid.tells_of_marks hg.coherent (Mermaid.marks_flowchart hg.coherent title),
      told.2⟩

/-- A format renders a graph that can be drawn, unless a number that it shows is too long. -/
theorem needs_render (hg : g.IsBuilt) (words : g.IsDrawable) (names : ElkText.HasNames g)
    (rooted : g.root = .ok r) (format : Format) (title : Text) (s : σ) :
    (render format (.text title) g).Needs s (format.CanShow g)
      fun text _ => format.Shows g title text := by
  obtain ⟨o, outlined⟩ := exists_outline rooted
  exact needs_render_of rooted (hg.needs_document words names outlined title s format)

/-- What shows a graph that shows texts tells of it. -/
theorem tells (hg : g.IsBuilt) (words : g.IsLettered) {text : Text} :
    ∀ format : Format, format.Shows g title text → format.Tells g text
  | .debugJson, ⟨_, _, outlined, drawn, sound, same⟩ =>
    ⟨_, same, sound, (DebugJson.lays hg.coherent words).describes hg outlined drawn title⟩
  | .elkJson, ⟨_, _, outlined, drawn, sound, same⟩ =>
    ⟨_, same, sound, (ElkJson.lays hg.coherent words).describes hg outlined drawn title⟩
  | .d3Json, ⟨_, _, outlined, drawn, sound, same⟩ =>
    ⟨_, same, sound, (D3Json.lays hg.coherent words).describes hg outlined drawn title⟩
  | .elkText, told => told
  | .mermaid, told => told

/-- Without its extras, a document of the one style is that of the other one. -/
theorem trimmed_render (hg : g.IsBuilt) (words : g.IsLettered) {text : Text}
    (rendered : ((render .debugJson (.text title) g).on s).answer = .ok text) :
    ∃ doc : Json, text = doc.print 4 0 ++ "\n" ∧ doc.Describes g ∧
      ((render .elkJson (.text title) g).on s).answer = .ok (doc.trimmed.print 4 0 ++ "\n") := by
  have whole := hg.coherent
  simp only [Action.on] at rendered ⊢
  obtain ⟨o, root, outlined, drawn, sound, rfl⟩ := exists_drawing rfl rendered
  obtain ⟨k, rooted⟩ := exists_root outlined
  have unfolds := whole.unfolds outlined
  rw [answer_render rfl, block?, outlined, Option.map_some]
  refine ⟨_, rfl, (DebugJson.lays whole words).describes hg outlined drawn title, ?_⟩
  have plain := isPlain_ofValue (v := .text title) (.inl ⟨title, rfl⟩)
  have drawn' := DebugJson.trimmed_draw whole words o ⟨g.lastId⟩ root unfolds drawn
  have sound' : root.trimmed.firstFault? = none := by
    have drawing := (ElkJson.draws words.isDrawable whole).writes_draw whole o ⟨g.lastId⟩ unfolds
    exact (drawing.of_answer drawn').1 fun _ _ => trivial
  have law := (ElkJson.draws words.isDrawable whole).document title (some root.trimmed)
  rw [Option.toList_some, firstFaultIn?, firstFaultIn?, Option.or_none, sound'] at law
  rw [DebugJson.trimmed_document plain, rooted]
  exact JsonStyle.render_of_isSound drawn' law

/-- A flowchart declares nothing twice. -/
theorem nodup_declarations (hg : g.IsBuilt) :
    (g.components.flatMap (Mermaid.declarations g)).Nodup := by
  -- declared identifiers are told apart by the numbers of documents
  refine List.Nodup.of_map (Sum.elim numeral Json.text) ?_
  have shown : (g.components.flatMap (Mermaid.declarations g)).map (Sum.elim numeral Json.text) =
      g.components.flatMap fun k =>
        [numeral (g.component k).id] ++ (g.portsOf k).map g.portNumber := by
    simp only [List.map_flatMap, Mermaid.declarations, List.map_cons, List.map_map]
    rfl
  have parted := List.flatMap_append_perm g.components (fun k => [numeral (g.component k).id])
    fun k => (g.portsOf k).map g.portNumber
  rw [← List.map_eq_flatMap, ← List.map_flatMap] at parted
  rw [shown]
  exact parted.nodup_iff.mp hg.nodup_numbers

end Graph.IsBuilt

/-- All formats describe the same graph. Each of them shows every graph that additions of texts
make, unless a number is too long: that of a port, or in one format an identity. The edges of the
documents are the wires of the graph in one and the same order. The JSON documents nest the same
blocks with the same ports, and one of them is another one but for extra members. The text formats
declare the components with their ports, one all of them and each once, and the other one those that
have something inside. -/
theorem formats_agree (additions : List Addition)
    (titled : ∀ a ∈ additions, a.Meets Label.IsWorded Graph.PortFacts.IsTitled) {r : ComponentKey}
    (rooted : (({} : Graph).grow additions).root = .ok r) (title : Text) (s : σ) :
    let g := ({} : Graph).grow additions
    (∀ format : Format, (render format (.text title) g).Needs s (format.CanShow g)
      fun text _ => format.Tells g text) ∧
    (∀ text, ((render .debugJson (.text title) g).on s).answer = .ok text →
      ∃ doc : Json, text = doc.print 4 0 ++ "\n" ∧ doc.Describes g ∧
        ((render .elkJson (.text title) g).on s).answer = .ok (doc.trimmed.print 4 0 ++ "\n")) ∧
    (g.components.flatMap (Mermaid.declarations g)).Nodup ∧ g.components.Perm g.roster := by
  intro g
  have hg : g.IsBuilt := Graph.IsBuilt.empty.grow additions
  have shows : g.IsTitled := Graph.hasOnly_empty.grow .empty titled
  have rendered (format : Format) := hg.needs_render shows.isLettered.isDrawable
    (shows.hasNames hg.coherent) rooted format title s
  exact ⟨fun format => (rendered format).weaken fun _ _ => hg.tells shows.isLettered format,
    fun _ => hg.trimmed_render shows.isLettered, hg.nodup_declarations, hg.coherent.components_perm⟩

/-- A driver, a receiver beside it, and a third component with nothing inside. -/
def threeSiblings : List Addition :=
  [.component (.text "top") (.text "top") (.text "Top") none,
    .component (.text "top.a") (.text "a") (.text "A") (some ⟨0⟩),
    .component (.text "top.b") (.text "b") (.text "B") (some ⟨0⟩),
    .component (.text "top.c") (.text "c") (.text "C") (some ⟨0⟩),
    .port ⟨1⟩
      { name := .text "top.a.o", basename := .text "o", direction := .output
        typeName := .text "sc_out", identity := .int 1 },
    .port ⟨2⟩
      { name := .text "top.b.i", basename := .text "i", direction := .input
        typeName := .text "sc_in", identity := .bool true }]

theorem threeSiblings_titled :
    ∀ a ∈ threeSiblings, a.Meets Label.IsWorded Graph.PortFacts.IsTitled := by
  simp only [threeSiblings, List.forall_mem_cons, List.not_mem_nil, false_implies, implies_true,
    and_true, Addition.Meets]
  and_intros <;>
    first | exact ⟨⟨_, rfl⟩, ⟨_, rfl⟩⟩ | exact ⟨⟨⟨_, rfl⟩, ⟨_, rfl⟩, .inr rfl⟩, ⟨_, rfl⟩⟩

theorem threeSiblings_canShow (format : Format) :
    format.CanShow (({} : Graph).grow threeSiblings) := by
  have written : (({} : Graph).grow threeSiblings).ports.all (fun q =>
      let p := (({} : Graph).grow threeSiblings).port q
      p.id.isWritable && p.identity.isWritable) = true := by decide +kernel
  simp only [List.all_eq_true, Bool.and_eq_true] at written
  cases format with
  | elkText => trivial
  | debugJson => exact written
  | _ => exact fun q hq => (written q hq).1

theorem formats_agree_on_siblings :
    (∀ a ∈ threeSiblings, a.Meets Label.IsWorded Graph.PortFacts.IsTitled) ∧
      (({} : Graph).grow threeSiblings).root = .ok ⟨0⟩ ∧
      (({} : Graph).grow threeSiblings).allWires.length = 1 ∧
      ∀ format : Format, ∃ text,
        ((render format (.text "top") (({} : Graph).grow threeSiblings)).on ()).answer = .ok text ∧
          format.Tells (({} : Graph).grow threeSiblings) text := by
  have rooted : (({} : Graph).grow threeSiblings).root = .ok ⟨0⟩ := by rfl
  refine ⟨threeSiblings_titled, rooted, by decide +kernel, fun format => ?_⟩
  obtain ⟨rendered, -⟩ := formats_agree threeSiblings threeSiblings_titled rooted "top" ()
  exact (rendered format).answers (threeSiblings_canShow format)

end Schematic
