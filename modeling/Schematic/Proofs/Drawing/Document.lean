import Schematic.Graph.Summary
import Schematic.Proofs.Drawing.Styles
import Schematic.Proofs.Survey.Extraction
import Schematic.Proofs.Survey.Keys

/-! Documents of what was extracted. Survey, inference and drawing number one after the other, and
no number is left out or used twice. -/

namespace Schematic

open Json

variable {σ τ : Type} {g : Graph}

def jsonFormats : List Format := [.elkJson, .debugJson, .d3Json]

/-- A document that numbers all it draws of a graph. The document itself is zero, components and
ports have the identifiers of the graph, and its wires follow. -/
structure Json.Numbers (doc : Json) (g : Graph) : Prop where
  top : doc.idOf = numeral 0
  ids : (doc.drawn.map Drawn.id).Perm
    ((List.range (g.lastId + g.allWires.length + 1)).map numeral)
  blocks : doc.drawn.filterMap Drawn.block? =
    g.components.map fun k => (numeral (g.component k).id, (g.portsOf k).map g.portNumber)
  parts : (g.components.map (fun k => numeral (g.component k).id) ++
    g.ports.map g.portNumber).Perm ((List.range' 1 g.lastId).map numeral)
  wires : doc.drawn.filterMap Drawn.wire? = (g.allWires.zipIdx (g.lastId + 1)).map
    fun (w, i) => (numeral i, g.portNumber w.sourcePort, g.portNumber w.targetPort)

theorem text_plain (n : Nat) : Json.text (Value.int n).plain = numeral n := by
  unfold Value.plain Value.quoted Value.quotedIn
  rfl

theorem Graph.IsBuilt.parts (hg : g.IsBuilt) :
    (g.components.map (fun k => numeral (g.component k).id) ++ g.ports.map g.portNumber).Perm
      ((List.range' 1 g.lastId).map numeral) := by
  have written := hg.ids_perm.map fun v => Json.text v.plain
  simp only [List.map_append, List.map_map, Function.comp_def, text_plain] at written
  exact written

/-- No two components or ports have one number. -/
theorem Graph.IsBuilt.nodup_numbers (hg : g.IsBuilt) :
    (g.components.map (fun k => numeral (g.component k).id) ++ g.ports.map g.portNumber).Nodup :=
  hg.parts.nodup_iff.mpr (List.Nodup.map numeral_injective (List.nodup_range' 1))

theorem Graph.IsBuilt.nodup_portNumbers (hg : g.IsBuilt) : (g.ports.map g.portNumber).Nodup :=
  (List.nodup_append.mp hg.nodup_numbers).2.1

theorem Graph.IsBuilt.exists_summary (hg : g.IsBuilt) (words : g.IsWorded) :
    ∃ summary, g.summary = .ok summary ∧ summary.components + summary.ports = g.lastId := by
  have hashable : (((g.ports.map g.port).filter Port.isBound).map Port.identity).all
      Value.isHashable = true := by
    rw [List.all_eq_true]
    intro v hv
    obtain ⟨p, hp, rfl⟩ := List.mem_map.mp hv
    obtain ⟨q, hq, rfl⟩ := List.mem_map.mp (List.mem_filter.mp hp).1
    obtain ⟨k, hk, listed⟩ := hg.coherent.mem_ports.mp hq
    exact (words.ports k hk _ (List.mem_map_of_mem listed)).identity
  refine ⟨_, if_pos hashable, ?_⟩
  have size : g.size = g.components.length := by
    rw [hg.coherent.components_perm.length_eq, Graph.roster, List.length_map, Graph.size]
  change g.size + (g.ports.map g.port).length = g.lastId
  rw [size, List.length_map, hg.count_ids]

/-- What a document draws is numbered right if it is the document's own entry and then what the
graph shows. -/
theorem numbers_of_shows (hg : g.IsBuilt) {doc : Json} {o : Outline} {ds : List Drawn}
    (outlined : g.outline = some o) (top : doc.idOf = numeral 0)
    (drawn : doc.drawn = .other (numeral 0) :: ds)
    (shows : g.Shows ds o.preorder
      (Numbering.wires ⟨g.lastId⟩ (o.postorder.flatMap g.wires)).1) : doc.Numbers g := by
  have components : g.components = o.preorder := by rw [Graph.components, outlined]
  have all : g.allWires = o.postorder.flatMap g.wires := by rw [Graph.allWires, outlined]
  rw [← components, ← all, Numbering.wires_eq] at shows
  have wires : doc.drawn.filterMap Drawn.wire? = (g.allWires.zipIdx (g.lastId + 1)).map
      fun (w, i) => (numeral i, g.portNumber w.sourcePort, g.portNumber w.targetPort) := by
    rw [drawn, List.filterMap_cons_none rfl, shows.wires, List.map_map]
    rfl
  have blocks : doc.drawn.filterMap Drawn.block? = g.components.map fun k =>
      (numeral (g.component k).id, (g.portsOf k).map g.portNumber) := by
    rw [drawn, List.filterMap_cons_none rfl, shows.blocks]
    rfl
  have others : doc.drawn.filterMap Drawn.other? = numeral 0 :: g.ports.map g.portNumber := by
    rw [drawn]
    exact congrArg (numeral 0 :: ·) shows.others
  refine ⟨top, ?_, blocks, hg.parts, wires⟩
  have counted : (g.allWires.zipIdx (g.lastId + 1)).map (fun x => numeral x.2) =
      (List.range' (g.lastId + 1) g.allWires.length).map numeral := by
    rw [← List.zipIdx_map_snd, List.map_map]
    rfl
  have numbered : List.range (g.lastId + g.allWires.length + 1) =
      0 :: (List.range' 1 g.lastId ++ List.range' (g.lastId + 1) g.allWires.length) := by
    rw [List.range_eq_range', List.range'_succ, Nat.add_comm g.lastId 1, List.range'_append_1]
  -- the identifiers by what they stand for: components, then the document and ports, then edges
  have own := Drawn.ids_perm doc.drawn
  rw [blocks, others, wires, List.map_map, List.map_map, List.cons_append] at own
  rw [numbered, List.map_cons, List.map_append]
  refine own.trans ((List.perm_middle).trans (.cons _ ?_))
  rw [← List.append_assoc]
  exact hg.parts.append (.of_eq counted)

theorem Graph.exists_outline {r : ComponentKey} (rooted : g.root = .ok r) :
    ∃ o, g.outline = some o := by
  cases known : g.register.root with
  | none =>
    have missing : g.root = .error .emptyGraph := by rw [Graph.root, known]
    cases missing.symm.trans rooted
  | some k => exact ⟨g.outlineOf k, by rw [Graph.outline, known, Option.map_some]⟩

theorem Graph.exists_root {o : Outline} (outlined : g.outline = some o) : ∃ r, g.root = .ok r := by
  obtain ⟨r, known, -⟩ := Option.map_eq_some_iff.mp outlined
  exact ⟨r, by rw [Graph.root, known]⟩

theorem Json.eq_of_render {doc : Json} {indent : Nat} {made : String}
    (rendered : doc.render indent = .ok made) :
    doc.firstFault? = none ∧ made = doc.print indent 0 := by
  unfold Json.render at rendered
  cases fault : doc.firstFault? with
  | some e =>
    rw [fault] at rendered
    cases rendered
  | none =>
    rw [fault] at rendered
    cases rendered
    exact ⟨rfl, rfl⟩

namespace JsonStyle

variable {style : JsonStyle} {title : Value} {b : Block} {root : Json}

theorem render_of_isSound (drawn : style.draw g b = .ok root)
    (sound : (style.document (.ofValue title) (some root)).IsSound) :
    style.render title g (some b) =
      .ok ((style.document (.ofValue title) (some root)).print 4 0 ++ "\n") := by
  have made : (some b).mapM (style.draw g) = .ok (some root) := congrArg (some <$> ·) drawn
  have printed : (style.document (.ofValue title) (some root)).render 4 =
      .ok ((style.document (.ofValue title) (some root)).print 4 0) := by
    rw [IsSound] at sound
    rw [Json.render, sound]
  simp only [render, made, bind, Except.bind, printed]

theorem render_of_fault {fault : JsonFault} (drawn : style.draw g b = .ok root)
    (found : (style.document (.ofValue title) (some root)).firstFault? = some fault) :
    style.render title g (some b) = .error (.ofJson fault) := by
  have made : (some b).mapM (style.draw g) = .ok (some root) := congrArg (some <$> ·) drawn
  have printed : (style.document (.ofValue title) (some root)).render 4 = .error fault := by
    rw [Json.render, found]
  simp only [render, made, bind, Except.bind, printed]

theorem exists_of_render {text : Text} (made : style.render title g (some b) = .ok text) :
    ∃ root, style.draw g b = .ok root ∧
        (style.document (.ofValue title) (some root)).firstFault? = none ∧
        text = (style.document (.ofValue title) (some root)).print 4 0 ++ "\n" := by
  obtain ⟨root, drawing, made⟩ := exists_of_bind_ok made
  have mapped : (some b).mapM (style.draw g) = some <$> style.draw g b := rfl
  rw [mapped] at drawing
  cases drawn : style.draw g b with
  | error e =>
    rw [drawn] at drawing
    cases drawing
  | ok root =>
    rw [drawn] at drawing
    cases drawing
    cases printed : (style.document (.ofValue title) (some root)).render 4 with
    | error fault =>
      rw [printed] at made
      cases made
    | ok lines =>
      rw [printed] at made
      cases made
      obtain ⟨sound, rfl⟩ := Json.eq_of_render printed
      exact ⟨root, rfl, sound, rfl⟩

end JsonStyle

/-- What is rendered of a graph with a root is what its format draws. -/
theorem answer_render {format : Format} {title : Value} {r : Except Error Text}
    (drawn : (document format title g g.block? : Action τ Text) = .of r) (t : τ) :
    (render format title g t).answer = g.root.bind fun _ => r := by
  rw [render, drawn]
  cases g.root with
  | error e => rfl
  | ok k => cases r <;> rfl

/-- A document around the tree of a graph numbers all that it draws. -/
theorem JsonStyle.Numbers.numbers_document {style : JsonStyle} {o : Outline} {root : Json}
    (law : style.Numbers g) (hg : g.IsBuilt) (outlined : g.outline = some o)
    (drawing : style.draw g (Block.ofOutline g ⟨g.lastId⟩ o).1 = .ok root) (title : Text) :
    (style.document (.ofValue (.text title)) (some root)).Numbers g := by
  have known : ∀ k ∈ o.preorder, k ∈ g.roster := by
    intro k hk
    have met : k ∈ g.components := by rwa [Graph.components, outlined]
    exact hg.coherent.mem_components.mp met
  obtain ⟨top, drawn⟩ := law.document (.ofValue (.text title)) (some root)
    (isPlain_ofValue (.inl ⟨title, rfl⟩))
  have inner := law.shows_draw hg.coherent o ⟨g.lastId⟩ root known drawing
  rw [Option.toList_some, drawnAmong, drawnAmong, List.append_nil] at drawn
  exact numbers_of_shows hg outlined top drawn inner

theorem exists_style (hg : g.Coherent) (words : g.IsLettered) {format : Format}
    (json : format ∈ jsonFormats) (title : Value) (block : Option Block) : ∃ style,
      JsonStyle.Numbers style g ∧
        (document format title g block : Action τ Text) = .of (style.render title g block) := by
  simp only [jsonFormats, List.mem_cons, List.not_mem_nil, or_false] at json
  rcases json with rfl | rfl | rfl
  · exact ⟨_, ElkJson.numbers hg words, rfl⟩
  · exact ⟨_, DebugJson.numbers hg words, rfl⟩
  · exact ⟨_, D3Json.numbers hg words, rfl⟩

/-- How a rendered document came about: the tree of the graph was drawn in the style of the
format. -/
theorem exists_drawing {style : JsonStyle} {format : Format} {title : Value} {text : Text}
    {t : τ} (drawn : (document format title g g.block? : Action τ Text) =
      .of (style.render title g g.block?))
    (rendered : (render format title g t).answer = .ok text) : ∃ o root,
      g.outline = some o ∧ style.draw g (Block.ofOutline g ⟨g.lastId⟩ o).1 = .ok root ∧
        (style.document (.ofValue title) (some root)).firstFault? = none ∧
        text = (style.document (.ofValue title) (some root)).print 4 0 ++ "\n" := by
  rw [answer_render drawn] at rendered
  obtain ⟨r, rooted, made⟩ := exists_of_bind_ok rendered
  obtain ⟨o, outlined⟩ := Graph.exists_outline rooted
  rw [Graph.block?, outlined, Option.map_some] at made
  obtain ⟨root, drawing, sound, same⟩ := JsonStyle.exists_of_render made
  exact ⟨o, root, outlined, drawing, sound, same⟩

theorem exists_of_rendered (hg : g.Coherent) (words : g.IsLettered) {format : Format}
    {title : Value} {text : Text} {t : τ} (json : format ∈ jsonFormats)
    (rendered : (render format title g t).answer = .ok text) : ∃ style o root,
      JsonStyle.Numbers style g ∧ g.outline = some o ∧
        style.draw g (Block.ofOutline g ⟨g.lastId⟩ o).1 = .ok root ∧
        (style.document (.ofValue title) (some root)).firstFault? = none ∧
        text = (style.document (.ofValue title) (some root)).print 4 0 ++ "\n" := by
  obtain ⟨style, law, same⟩ := exists_style hg words json title g.block?
  obtain ⟨o, root, drawing⟩ := exists_drawing same rendered
  exact ⟨style, o, root, law, drawing⟩

/-- What is extracted from objects that report texts is a graph that additions made and that shows
texts, and the walk over it meets the components in the order in which they were added. -/
theorem exists_of_extracted {objects : List SimObject} {marker : Text} {ignored : List Text}
    (words : ∀ f ∈ SimObject.reportsAmong objects, f.IsWorded) {s : σ}
    (extracted : (extract ⟨.text marker, .list (ignored.map .text)⟩ objects s).answer = .ok g) :
    g.IsBuilt ∧ g.IsWorded ∧ g.components = g.roster := by
  have sorted : ∀ f ∈ SimObject.reportsAmong objects, f.IsSortable ignored := fun f hf =>
    (words f hf).isNamed.isSortable ignored
  obtain ⟨survey, surveyed, -, run⟩ := exists_survey extracted
  have follows := (follows_surveyOf objects marker ignored sorted s).of_answer surveyed
  have shows := follows.isWorded words
  obtain ⟨grown, built⟩ := run.grown follows.built
  refine ⟨built, run.isWorded follows.built shows, ?_⟩
  rw [grown.components, grown.roster, follows.order]

/-- In every JSON document of what was extracted from objects that report texts, the identifiers are
the numbers from zero on, each used once: zero is the document, then come the components and ports
with the identifiers that the graph gave them, and then the wires in the order in which a walk over
the tree leaves their components. The components that a walk enters later have greater ones. -/
theorem documents_number_all (objects : List SimObject) (marker title : Text) (ignored : List Text)
    (words : ∀ f ∈ SimObject.reportsAmong objects, f.IsWorded) (s : σ) (t : τ)
    (extracted : (extract ⟨.text marker, .list (ignored.map .text)⟩ objects s).answer = .ok g) :
    (∀ format ∈ jsonFormats, ∀ text, (render format (.text title) g t).answer = .ok text →
      ∃ doc : Json, text = doc.print 4 0 ++ "\n" ∧ doc.firstFault? = none ∧ doc.Numbers g) ∧
    (∃ summary, g.summary = .ok summary ∧ summary.components + summary.ports = g.lastId) ∧
    (g.components.map fun k => (g.component k).id).Pairwise (· < ·) := by
  obtain ⟨built, shows, order⟩ := exists_of_extracted words extracted
  have cohered := built.coherent
  refine ⟨?_, built.exists_summary shows, built.ids_increasing order⟩
  intro format json text rendered
  obtain ⟨style, o, root, law, outlined, drawing, sound, rfl⟩ :=
    exists_of_rendered cohered shows.isLettered json rendered
  exact ⟨_, rfl, sound, law.numbers_document built outlined drawing title⟩

theorem documents_number_all_for_branches :
    (∀ f ∈ SimObject.reportsAmong capturedBranches, f.IsWorded) ∧
      ∃ g, (extract ⟨.text "$$$", .list []⟩ capturedBranches ()).answer = .ok g ∧
        ∀ format ∈ jsonFormats, ∃ text, (render format (.text "top") g ()).answer = .ok text ∧
          ∃ doc : Json, text = doc.print 4 0 ++ "\n" ∧ doc.firstFault? = none ∧ doc.Numbers g := by
  have words : ∀ f ∈ SimObject.reportsAmong capturedBranches, f.IsWorded := by
    simp only [capturedBranches, SimObject.reportsAmong, SimObject.module, SimObject.port,
      SimObject.clock, SimObject.ofFacts, SimObject.reports, List.map_nil, List.nil_append,
      List.append_nil, List.cons_append, List.forall_mem_cons, List.not_mem_nil, false_implies,
      implies_true, and_true]
    and_intros <;> exact ⟨⟨_, rfl⟩, ⟨_, rfl⟩, ⟨_, rfl⟩, .inr rfl⟩
  have drawn : jsonFormats.all (fun format =>
      ((extract ⟨.text "$$$", .list []⟩ capturedBranches ()).answer.toOption.bind fun g =>
        (render format (.text "top") g ()).answer.toOption).isSome) = true := by
    decide +kernel
  rw [List.all_eq_true] at drawn
  refine ⟨words, ?_⟩
  cases extracted : (extract ⟨.text "$$$", .list []⟩ capturedBranches ()).answer with
  | error e =>
    have absent := drawn .elkJson List.mem_cons_self
    rw [extracted] at absent
    cases absent
  | ok g =>
    obtain ⟨documents, -, -⟩ :=
      documents_number_all capturedBranches "$$$" "top" [] words () () extracted
    refine ⟨g, rfl, fun format json => ?_⟩
    have made := drawn format json
    rw [extracted] at made
    cases rendered : (render format (.text "top") g ()).answer with
    | error e =>
      have none : (render format (.text "top") g ()).answer.toOption.isSome = true := made
      rw [rendered] at none
      cases none
    | ok text => exact ⟨text, rfl, documents format json text rendered⟩

end Schematic
