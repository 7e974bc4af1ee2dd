import Schematic.Proofs.Drawing.Formats
import Schematic.Proofs.Drawing.JsonSheets

/-! The edges of every document join neighbours. An edge drawn for a component leads between two
ports that are declared once each, in the blocks of their owners, and these are the component and
a child of it or two of its children. -/

namespace Schematic

open Json Sheet

variable {σ : Type} {s : σ} {g : Graph} {o : Outline} {title text : Text}

/-- A JSON document that shows the blocks of a graph, whose edges all stand in blocks and join
neighbours. -/
structure Json.RefersLocally (doc : Json) (g : Graph) (joint : Wire → Joint Json Json) : Prop where
  sheets : doc.sheets = mapAll (componentRef g) g.portNumber joint (g.sheets fun _ => true)
  here : AreLocal id doc.sheets
  edges : (doc.drawn.filterMap Drawn.wire?).map Prod.snd =
    (stated doc.sheets).map fun j => (j.source, j.target)

/-- Lines that show the blocks of a graph that have something inside, edges and all, and these join
neighbours. -/
structure ElkText.RefersLocally (ls : List Line) (g : Graph) : Prop where
  shows : marks ls = marksAll (drawing g)
  here : AreLocal Wire.joint (g.sheets (isShown g))

/-- Lines that show the blocks of a graph and behind them their edges, which join neighbours. -/
structure Mermaid.RefersLocally (ls : List Line) (g : Graph) : Prop where
  shows : marks ls = marksApart (chart g)
  here : AreLocal (fun e => { source := e.1, target := e.2 }) (chart g)

/-- Whether a text of a format shows a graph by edges between neighbours. -/
def Format.RefersLocally (g : Graph) (text : Text) : Format → Prop
  | .elkText => ∃ ls, text = ElkText.textOf ls ∧ ElkText.RefersLocally ls g
  | .mermaid => ∃ ls, text = Mermaid.textOf ls ∧ Mermaid.RefersLocally ls g
  | .d3Json => ∃ doc : Json, text = doc.print 4 0 ++ "\n" ∧ doc.RefersLocally g (fullJoint g)
  | _ => ∃ doc : Json, text = doc.print 4 0 ++ "\n" ∧ doc.RefersLocally g (shortJoint g)

namespace Graph.IsBuilt

theorem components_told (hg : g.IsBuilt) :
    Set.InjOn (componentRef g) {k | k ∈ (blocksAll (g.sheets fun _ => true)).map name} := by
  have apart := (List.nodup_append.mp hg.nodup_numbers).1
  rw [hg.coherent.names_sheets g.spares_all]
  intro k hk m hm same
  exact List.inj_on_of_nodup_map apart (List.mem_of_mem_filter hk) (List.mem_of_mem_filter hm) same

theorem ports_told (hg : g.IsBuilt) :
    Set.InjOn g.portNumber {q | q ∈ (declarations (g.sheets fun _ => true)).map Prod.snd} := by
  have listed := (hg.coherent.declared_sublist g.spares_all).subset
  intro q hq r hr same
  exact List.inj_on_of_nodup_map hg.nodup_portNumbers (listed hq) (listed hr) same

theorem local_sheets (hg : g.IsBuilt) :
    AreLocal id (mapAll (componentRef g) g.portNumber (fullJoint g) (g.sheets fun _ => true)) :=
  (hg.coherent.sheets_local g.spares_all).mapAll hg.components_told hg.ports_told fun _ => rfl

theorem local_sheets_nameless (hg : g.IsBuilt) :
    AreLocal id (mapAll (componentRef g) g.portNumber (shortJoint g) (g.sheets fun _ => true)) :=
  (hg.coherent.sheets_local g.spares_all).nameless.mapAll hg.components_told hg.ports_told
    fun _ => rfl

theorem local_chart (hg : g.IsBuilt) :
    AreLocal (fun e => { source := e.1, target := e.2 }) (Mermaid.chart g) := by
  refine (hg.coherent.sheets_local g.spares_all).nameless.mapAll ?_ ?_ fun _ => rfl
  · exact Set.InjOn.of_comp (g := numeral) hg.components_told
  · exact Set.InjOn.of_comp (g := Json.text) hg.ports_told

end Graph.IsBuilt

theorem JsonStyle.Lays.refersLocally {style : JsonStyle} {joint : Wire → Joint Json Json}
    (law : style.Lays g joint) (hg : g.IsBuilt)
    (here : AreLocal id (mapAll (componentRef g) g.portNumber joint (g.sheets fun _ => true)))
    (ends : ∀ w, ((joint w).source, (joint w).target) =
      (g.portNumber w.sourcePort, g.portNumber w.targetPort))
    (prints : style.Prints g title text) :
    ∃ doc : Json, text = doc.print 4 0 ++ "\n" ∧ doc.RefersLocally g joint := by
  obtain ⟨o, root, outlined, drawing, -, same⟩ := prints
  have shown := law.sheets_document hg.coherent outlined drawing title
  have wires := (law.numbers_document hg outlined drawing title).wires
  refine ⟨_, same, shown, shown ▸ here, ?_⟩
  have listed := List.zipIdx_map_fst (g.lastId + 1) g.allWires
  rw [shown, stated_mapAll, hg.coherent.stated_sheets g.spares_all, wires, List.map_map,
    List.map_map, ← listed, List.map_map, listed]
  exact List.map_congr_left fun x _ => (ends x.1).symm

namespace Graph.IsBuilt

variable {r : ComponentKey}

theorem needs_local_document (hg : g.IsBuilt) (shows : g.IsTitled) (outlined : g.outline = some o)
    (title : Text) (s : σ) : ∀ format : Format,
      (document format (.text title) g g.block?).Needs s (format.CanShow g)
        fun text s' => format.RefersLocally g text ∧ s' = s := by
  have whole := hg.coherent
  have words := shows.isLettered
  have names := shows.hasNames whole
  have drawn := hg.needs_document words.isDrawable names outlined title s
  intro format
  cases format with
  | debugJson =>
    refine (drawn .debugJson).weaken fun text s' shown => ⟨?_, shown.2⟩
    exact (DebugJson.lays whole words).refersLocally hg hg.local_sheets_nameless (fun _ => rfl)
      shown.1
  | elkJson =>
    refine (drawn .elkJson).weaken fun text s' shown => ⟨?_, shown.2⟩
    exact (ElkJson.lays whole words).refersLocally hg hg.local_sheets_nameless (fun _ => rfl)
      shown.1
  | d3Json =>
    refine (drawn .d3Json).weaken fun text s' shown => ⟨?_, shown.2⟩
    exact (D3Json.lays whole words).refersLocally hg hg.local_sheets (fun _ => rfl) shown.1
  | elkText =>
    have made := ElkText.render_eq (ElkText.canSpell words.isDrawable whole names) whole
    have local' := whole.sheets_local (ElkText.spares_isShown g)
    have shown : Format.elkText.RefersLocally g
        (ElkText.textOf (ElkText.documentOf (ElkText.drawing g))) :=
      ⟨_, rfl, ElkText.marks_documentOf _, local'⟩
    exact ⟨fun _ => ⟨_, made, shown, rfl⟩, fun h => absurd trivial h⟩
  | mermaid =>
    have labels := Mermaid.canLabel words.isDrawable whole
    have chart := Mermaid.needs_draw labels whole outlined title s
    refine (chart.bind fun x s' shown => Action.needs_pure ?_).congr (and_true _).to_iff
    exact ⟨⟨_, shown.1, Mermaid.marks_flowchart whole title, hg.local_chart⟩, shown.2⟩

end Graph.IsBuilt

/-- Every edge of every document joins neighbours: of a graph that additions of texts make, with its
root, each format shows the blocks, and an edge in one of them leads between ports that are declared
in one place each, the block itself and one directly inside it, or two directly inside it. The
blocks are the components, a port is declared in that of its owner, and the edges in it are the
wires of the component. So no edge refers to a port of a component that a document leaves out. -/
theorem edges_join_neighbours (additions : List Addition)
    (titled : ∀ a ∈ additions, a.Meets Label.IsWorded Graph.PortFacts.IsTitled) {r : ComponentKey}
    (rooted : (({} : Graph).grow additions).root = .ok r) (title : Text) (s : σ) :
    let g := ({} : Graph).grow additions
    (∀ format : Format, (render format (.text title) g).Needs s (format.CanShow g)
      fun text _ => format.RefersLocally g text) ∧
    ∀ keep, (∀ b ∈ blocksAll (g.sheets keep), b.Depicts g keep) ∧
      ∀ d ∈ declarations (g.sheets keep), g.owner d.2 = .ok d.1 := by
  intro g
  have hg : g.IsBuilt := Graph.IsBuilt.empty.grow additions
  have shows : g.IsTitled := Graph.hasOnly_empty.grow .empty titled
  obtain ⟨o, outlined⟩ := Graph.exists_outline rooted
  have drawn := hg.needs_local_document shows outlined title s
  refine ⟨fun format => needs_render_of rooted (drawn format), fun keep =>
    ⟨hg.coherent.depicts_sheets, ?_⟩⟩
  rintro ⟨k, q⟩ declared
  obtain ⟨b, hb, hq⟩ := List.mem_flatMap.mp declared
  obtain ⟨p, hp, ⟨⟩⟩ := List.mem_map.mp hq
  have depicts := hg.coherent.depicts_sheets b hb
  exact hg.coherent.owner_eq depicts.known (depicts.ports ▸ hp)

theorem edges_join_neighbours_among_siblings :
    (∀ a ∈ threeSiblings, a.Meets Label.IsWorded Graph.PortFacts.IsTitled) ∧
      (({} : Graph).grow threeSiblings).root = .ok ⟨0⟩ ∧
      ∀ format : Format, ∃ text,
        (render format (.text "top") (({} : Graph).grow threeSiblings) ()).answer = .ok text ∧
          format.RefersLocally (({} : Graph).grow threeSiblings) text := by
  have rooted : (({} : Graph).grow threeSiblings).root = .ok ⟨0⟩ := by rfl
  refine ⟨threeSiblings_titled, rooted, fun format => ?_⟩
  obtain ⟨rendered, -⟩ := edges_join_neighbours threeSiblings threeSiblings_titled rooted "top" ()
  exact (rendered format).answers (threeSiblings_canShow format)

end Schematic
