import Schematic.Proofs.Drawing.Formats

/-! The bounds that documents of one style state. A component says up to which number identifiers go
inside it, and that is where the numbering stood when its own edges had been numbered. The document
itself states a fixed number. -/

namespace Schematic

open Json

variable {σ : Type} {s : σ} {g : Graph} {k : ComponentKey} {w : NumberedWire} {j : Json}

namespace Json

def statedBound? (members : List (Text × Json)) : Option Int :=
  match member? members "hwMeta" with
  | some (.object said) =>
    match member? said "maxId" with
    | some (.int n) => some n
    | _ => none
  | _ => none

def maxId? : Json → Option Int
  | .object members => statedBound? members
  | _ => none

mutual

/-- The nodes of a document, which are the objects that state a bound, each before those inside. -/
def nodes : Json → List Json
  | .object members =>
    match statedBound? members with
    | some _ => .object members :: nodesIn members
    | none => nodesIn members
  | .array js => nodesAmong js
  | _ => []

def nodesAmong : List Json → List Json
  | [] => []
  | j :: js => nodes j ++ nodesAmong js

def nodesIn : List (Text × Json) → List Json
  | [] => []
  | (_, j) :: rest => nodes j ++ nodesIn rest

end

/-- Whether all identifiers that occur in a part of a document are numbers up to a bound. -/
def IsBoundedBy (j : Json) (bound : Int) : Prop :=
  ∀ d ∈ j.drawn, ∃ n : Nat, n ≤ bound ∧ d.id = numeral n

theorem nodesIn_append (ms ns : List (Text × Json)) :
    nodesIn (ms ++ ns) = nodesIn ms ++ nodesIn ns := by
  induction ms with
  | nil => rfl
  | cons m ms ih => simp only [List.cons_append, nodesIn, ih, List.append_assoc]

/-- What is drawn one by one has no nodes if each of it has none. -/
theorem nodesAmong_of_mapM {α : Type} {f : α → Except Error Json} {xs : List α} {js : List Json}
    (each : ∀ x ∈ xs, ∀ j, f x = .ok j → j.nodes = []) (done : xs.mapM f = .ok js) :
    nodesAmong js = [] := by
  have drawn := forall₂_of_mapM done
  clear done
  induction drawn with
  | nil => rfl
  | cons first _ ih =>
    simp only [List.forall_mem_cons] at each
    simp only [nodesAmong, each.1 _ first, ih each.2, List.append_nil]

theorem nodes_ofValue {v : Value} (words : v.IsTextIfAny) : (ofValue v).nodes = [] := by
  obtain ⟨t, text⟩ | rfl := words
  · cases v with
    | text s => simp only [ofValue, nodes]
    | direction d => simp only [ofValue, nodes]
    | _ => cases text
  · simp only [ofValue, nodes]

end Json

namespace D3Json

theorem nodes_port (words : g.IsLettered) (hg : g.Coherent) {q : PortKey} (hq : q ∈ g.ports)
    (done : port g q = .ok j) : j.nodes = [] := by
  obtain ⟨id, found, done⟩ := exists_of_bind_ok done
  cases done
  cases Graph.portRef_ok found
  have name := nodes_ofValue (.inl (words.ofPort hg hq).basename)
  have unbound (id side named more children : Json) : statedBound? [("id", id),
    ("direction", side), ("hwMeta", .object [("name", named), ("connectedAsParent", .bool false)]),
    ("properties", more), ("children", children)] = none := rfl
  have bare (named flag : Json) :
    statedBound? [("name", named), ("connectedAsParent", flag)] = none := rfl
  have sided (side : Json) : statedBound? [("side", side)] = none := rfl
  simp only [Port.facts] at name
  simp only [nodes, nodesIn, nodesAmong, unbound, bare, sided, name, Graph.portNumber,
    List.append_nil]

theorem nodes_wire (words : g.IsLettered) (hg : g.Coherent) (hs : w.wire.sourcePort ∈ g.ports)
    (ht : w.wire.targetPort ∈ g.ports) (done : wire g w = .ok j) : j.nodes = [] := by
  obtain ⟨source, found, done⟩ := exists_of_bind_ok done
  obtain ⟨target, found', done⟩ := exists_of_bind_ok done
  obtain ⟨label, labelled, done⟩ := exists_of_bind_ok done
  cases done
  cases Graph.portRef_ok found
  cases Graph.portRef_ok found'
  have written := (writes_wireLabel words.isDrawable hg hs ht).of_answer labelled
  have name := nodes_ofValue (.inl written)
  have unbound (a b c d e label : Json) : statedBound? [("id", a), ("source", b),
    ("sourcePort", c), ("target", d), ("targetPort", e), ("hwMeta", .object [("name", label)])] =
      none := rfl
  have bare (label : Json) : statedBound? [("name", label)] = none := rfl
  simp only [nodes, nodesIn, unbound, bare, name, Graph.portNumber, componentRef, List.append_nil]

theorem statedBound?_node (mark : Text) (marked : mark = "" ∨ mark = "_") (a b c d e : Json)
    (said : List (Text × Json)) (last : Int) (told : member? said "maxId" = some (.int last)) :
    statedBound? [("id", a), ("ports", b), (mark ++ "children", c), (mark ++ "edges", d),
      ("hwMeta", .object said), ("properties", e)] = some last := by
  have found : member? [("id", a), ("ports", b), (mark ++ "children", c), (mark ++ "edges", d),
      ("hwMeta", .object said), ("properties", e)] "hwMeta" = some (.object said) := by
    rcases marked with rfl | rfl <;> rfl
  simp only [statedBound?, found, told]

/-- A component states the last number of its edges. -/
theorem maxId?_node (g : Graph) (k : ComponentKey) (ports children wires : List Json)
    (last : Int) : (node g k ports children wires last).maxId? = some last := by
  refine statedBound?_node _ ?_ _ _ _ _ _ _ last rfl
  split
  · exact .inl rfl
  · exact .inr rfl

theorem nodes_node (words : g.IsLettered) (hk : k ∈ g.roster) (ports children wires : List Json)
    (last : Int) : (node g k ports children wires last).nodes =
      node g k ports children wires last ::
        (nodesAmong ports ++ (nodesAmong children ++ nodesAmong wires)) := by
  have basename := nodes_ofValue (.inl (words.label k hk).basename)
  have typeName := nodes_ofValue (.inl (words.label k hk).typeName)
  simp only [Graph.label] at basename typeName
  have bound := maxId?_node g k ports children wires last
  have shape (a b c d : Json) : statedBound? [("name", a), ("cls", b), ("maxId", c),
    ("isExternalPort", d)] = none := rfl
  have fixed (a b : Json) : statedBound? [("org.eclipse.elk.layered.mergeEdges", a),
    ("org.eclipse.elk.portConstraints", b)] = none := rfl
  rw [node, maxId?] at bound
  rw [node, nodes, bound]
  simp only [nodesIn, nodes, componentRef, properties, shape, fixed, basename, typeName,
    List.nil_append, List.append_nil]

theorem maxId?_document (title : Json) (root : Option Json) :
    (style.document title root).maxId? = some 65536 := rfl

theorem nodes_document (title : Text) (root : Option Json) :
    (style.document (.text title) root).nodes =
      style.document (.text title) root :: nodesAmong root.toList := by
  have bound : statedBound? (([("id", .text "0"), ("labels", JsonStyle.label (.text title)),
    ("layoutOptions", .object [("algorithm", .text "layered")]),
    ("children", .array root.toList), ("edges", .array [])] : List (Text × Json)) ++
      style.closing (.text title)) = some 65536 := rfl
  have label : (JsonStyle.label (.text title)).nodes = [] := rfl
  have layout : statedBound? [("algorithm", .text "layered")] = none := rfl
  have closing : nodesIn (style.closing (.text title)) = [] := rfl
  rw [JsonStyle.document, nodes, bound, nodesIn_append, closing]
  simp only [nodesIn, nodes, nodesAmong, label, layout, List.nil_append, List.append_nil]

end D3Json

theorem Numbering.reached (last : Nat) (ws : List Wire) :
    (Numbering.wires ⟨last⟩ ws).2 = ⟨(last + ws.length : Nat)⟩ :=
  congrArg Numbering.mk (Numbering.last_wires ⟨last⟩ ws)

/-- What is shown of a graph with some numbered wires has numbers up to the last of these. -/
theorem Graph.Shows.bounded {ds : List Drawn} {ks : List ComponentKey} {ws : List Wire}
    {last : Nat} (hg : g.IsBuilt) (known : ∀ k ∈ ks, k ∈ g.roster) (above : g.lastId ≤ last)
    (shows : g.Shows ds ks (Numbering.wires ⟨last⟩ ws).1) :
    ∀ d ∈ ds, ∃ n : Nat, n ≤ last + ws.length ∧ d.id = numeral n := by
  -- the identifiers of components and ports go up to the last one of the graph
  have parts : ∀ x, x ∈ g.components.map (fun k => numeral (g.component k).id) ++
      g.ports.map g.portNumber → ∃ n : Nat, n ≤ last + ws.length ∧ x = numeral n := by
    intro x hx
    obtain ⟨n, hn, rfl⟩ := List.mem_map.mp (hg.parts.mem_iff.mp hx)
    have small := List.mem_range'_1.mp hn
    exact ⟨n, by omega, rfl⟩
  have hc := hg.coherent
  intro d hd
  cases d with
  | block id ports =>
    have listed : (id, ports) ∈ ds.filterMap Drawn.block? := List.mem_filterMap.mpr ⟨_, hd, rfl⟩
    rw [shows.blocks] at listed
    obtain ⟨k, hk, same⟩ := List.mem_map.mp listed
    cases same
    have met := hc.mem_components.mpr (known k hk)
    exact parts _ (List.mem_append_left _ (List.mem_map.mpr ⟨k, met, rfl⟩))
  | other id =>
    have listed : id ∈ ds.filterMap Drawn.other? := List.mem_filterMap.mpr ⟨_, hd, rfl⟩
    rw [shows.others] at listed
    obtain ⟨q, hq, same⟩ := List.mem_map.mp listed
    cases same
    obtain ⟨k, hk, owned⟩ := List.mem_flatMap.mp hq
    have met : q ∈ g.ports := hc.mem_ports.mpr ⟨k, known k hk, owned⟩
    exact parts _ (List.mem_append_right _ (List.mem_map_of_mem met))
  | wire id source target =>
    have listed : (id, source, target) ∈ ds.filterMap Drawn.wire? :=
      List.mem_filterMap.mpr ⟨_, hd, rfl⟩
    rw [shows.wires, Numbering.wires_eq, List.map_map] at listed
    obtain ⟨⟨u, n⟩, hu, same⟩ := List.mem_map.mp listed
    cases same
    have small := List.snd_lt_of_mem_zipIdx hu
    exact ⟨n, by omega, rfl⟩

/-- Nodes that state bounds that hold, none of them above the given number. -/
def Json.AreBounded (nodes : List Json) (most : Nat) : Prop :=
  ∀ node ∈ nodes, ∃ m : Nat, m ≤ most ∧ node.maxId? = some (m : Int) ∧ node.IsBoundedBy m

theorem Json.AreBounded.mono {nodes : List Json} {most more : Nat} (bounded : AreBounded nodes most)
    (le : most ≤ more) : AreBounded nodes more := by
  intro node hn
  obtain ⟨m, small, rest⟩ := bounded node hn
  exact ⟨m, by omega, rest⟩

namespace D3Json

mutual

/-- A component states where the numbering stands behind its own edges. Its own identifier and those
of its ports are older, and the edges inside it were numbered before its own. -/
theorem nodes_draw (words : g.IsLettered) (hg : g.IsBuilt) : ∀ (o : Outline) (last : Nat)
    (j : Json), g.lastId ≤ last → (∀ k ∈ o.preorder, k ∈ g.roster) →
      style.draw g (Block.ofOutline g ⟨last⟩ o).1 = .ok j →
        j.nodes.map idOf = o.preorder.map (componentRef g) ∧
          AreBounded j.nodes (last + (o.postorder.flatMap g.wires).length)
  | .node k os, last, j, above, known, done => by
    have hc := hg.coherent
    have shows := (numbers hc words).shows_draw hc (.node k os) ⟨last⟩ j known done
    have bounded := shows.bounded hg known above
    rw [Outline.preorder, List.forall_mem_cons] at known
    rw [Graph.ofOutline_node] at done
    obtain ⟨ports, children, wires, portsDone, childrenDone, wiresDone, rfl⟩ :=
      JsonStyle.exists_of_draw done
    obtain ⟨ids, inner⟩ := nodes_drawAll words hg os last children above known.2 childrenDone
    -- neither a port nor an edge is the entry of a component
    have noPorts : nodesAmong ports = [] := nodesAmong_of_mapM
      (fun q hq _ => nodes_port words hc (hc.mem_ports.mpr ⟨k, known.1, hq⟩)) portsDone
    have noWires : nodesAmong wires = [] := nodesAmong_of_mapM (fun w hw _ =>
      have ends := (hc.lies known.1 (Numbering.wire_mem hw)).ends hc
      nodes_wire words hc ends.1 ends.2) wiresDone
    have total : (Outline.node k os).postorder.flatMap g.wires =
        (Outline.postorderAll os).flatMap g.wires ++ g.wires k := by
      rw [Outline.postorder, List.flatMap_append, List.flatMap_singleton]
    have made (last : Int) : (style.node g k ports children wires last).nodes =
        style.node g k ports children wires last :: nodesAmong children := by
      have shape := nodes_node words known.1 ports children wires last
      rwa [noPorts, noWires, List.nil_append, List.append_nil] at shape
    rw [made, List.map_cons, ids, Outline.preorder, List.map_cons]
    refine ⟨rfl, ?_⟩
    simp only [total, List.length_append] at bounded ⊢
    simp only [AreBounded, List.forall_mem_cons]
    refine ⟨⟨_, Nat.le_refl _, ?_, ?_⟩, inner.mono (by omega)⟩
    · refine (maxId?_node g k ports children wires _).trans ?_
      rw [Graph.last_ofOutlines, Numbering.reached, Numbering.reached, Nat.add_assoc]
    · intro d hd
      obtain ⟨n, small, same⟩ := bounded d hd
      exact ⟨n, by omega, same⟩

theorem nodes_drawAll (words : g.IsLettered) (hg : g.IsBuilt) : ∀ (os : List Outline)
    (last : Nat) (js : List Json), g.lastId ≤ last → (∀ k ∈ Outline.preorderAll os, k ∈ g.roster) →
      style.drawAll g (Block.ofOutlines g ⟨last⟩ os).1 = .ok js →
        (nodesAmong js).map idOf = (Outline.preorderAll os).map (componentRef g) ∧
          AreBounded (nodesAmong js) (last + ((Outline.postorderAll os).flatMap g.wires).length)
  | [], _, _, _, _, done => by
    cases done
    exact ⟨rfl, fun _ absent => absurd absent List.not_mem_nil⟩
  | o :: os, last, js, above, known, done => by
    rw [Outline.preorderAll, List.forall_mem_append] at known
    rw [Graph.ofOutlines_cons, Graph.last_ofOutline] at done
    obtain ⟨j, rest, first, later, rfl⟩ := JsonStyle.exists_of_drawAll done
    rw [Numbering.reached] at later
    obtain ⟨ids, bounded⟩ := nodes_draw words hg o last j above known.1 first
    obtain ⟨ids', bounded'⟩ := nodes_drawAll words hg os _ rest (by omega) known.2 later
    rw [nodesAmong, List.map_append, ids, ids', Outline.preorderAll, List.map_append,
      Outline.postorderAll, List.flatMap_append, List.length_append]
    refine ⟨rfl, fun node hn => ?_⟩
    rcases List.mem_append.mp hn with hn | hn
    · exact bounded.mono (by omega) node hn
    · exact bounded'.mono (by omega) node hn

end

end D3Json

/-- The numbers of a document are all up to a bound if the last of them is. -/
theorem Json.Numbers.isBoundedBy_iff {doc : Json} (numbers : doc.Numbers g) (bound : Int) :
    doc.IsBoundedBy bound ↔ (g.lastId + g.allWires.length : Nat) ≤ bound := by
  have used (n : Nat) : (∃ d ∈ doc.drawn, d.id = numeral n) ↔ n ≤ g.lastId + g.allWires.length := by
    rw [← List.mem_map, numbers.ids.mem_iff, List.mem_map_of_injective numeral_injective,
      List.mem_range, Nat.lt_succ_iff]
  constructor
  · intro bounded
    obtain ⟨d, hd, same⟩ := (used _).mpr (Nat.le_refl _)
    obtain ⟨n, small, same'⟩ := bounded d hd
    cases numeral_injective (same.symm.trans same')
    exact small
  · intro small d hd
    have listed := numbers.ids.mem_iff.mp (List.mem_map_of_mem hd)
    obtain ⟨n, -, same⟩ := List.mem_map.mp listed
    have least := (used n).mp ⟨d, hd, same.symm⟩
    exact ⟨n, by omega, same.symm⟩

/-- What a document of this style states of a graph. Its nodes are the document itself and one for
each component, in the order of the walk. The bounds of the components hold, and the document states
a fixed number. -/
structure Json.StatesBounds (doc : Json) (g : Graph) : Prop extends doc.Numbers g where
  nodes : ∃ inner, doc.nodes = doc :: inner ∧ inner.map idOf = g.components.map (componentRef g) ∧
    AreBounded inner (g.lastId + g.allWires.length)
  stated : doc.maxId? = some 65536

theorem D3Json.statesBounds (hg : g.IsBuilt) (words : g.IsLettered) {o : Outline} {root : Json}
    (outlined : g.outline = some o)
    (drawing : style.draw g (Block.ofOutline g ⟨g.lastId⟩ o).1 = .ok root) (title : Text) :
    (style.document (.ofValue (.text title)) (some root)).StatesBounds g := by
  have shown : g.components = o.preorder := by rw [Graph.components, outlined]
  have all : g.allWires = o.postorder.flatMap g.wires := by rw [Graph.allWires, outlined]
  have known : ∀ k ∈ o.preorder, k ∈ g.roster := fun k hk =>
    hg.coherent.mem_components.mp (shown ▸ hk)
  have numbers := (D3Json.numbers hg.coherent words).numbers_document hg outlined drawing title
  obtain ⟨ids, bounded⟩ := nodes_draw words hg o g.lastId root (Nat.le_refl _) known drawing
  have made := nodes_document title (some root)
  rw [Option.toList_some, nodesAmong, nodesAmong, List.append_nil] at made
  exact ⟨numbers, ⟨root.nodes, made, shown ▸ ids, all ▸ bounded⟩, maxId?_document _ _⟩

/-- The bounds of components hold. In every document of this style of a graph that additions of
texts make, each component states a number that no identifier of a component, a port or an edge
inside it is above, and that is itself not above the last number of the document. There is such a
document unless an identifier is too long to be written. What the document states of itself is the
same for all graphs, and holds of those that have no more identifiers. -/
theorem components_state_bounds (additions : List Addition)
    (lettered : ∀ a ∈ additions, a.Meets Label.IsWorded Graph.PortFacts.IsLettered)
    {r : ComponentKey} (rooted : (({} : Graph).grow additions).root = .ok r) (title : Text)
    (s : σ) :
    let g := ({} : Graph).grow additions
    (render .d3Json (.text title) g).Needs s (∀ q ∈ g.ports, (g.port q).id.isWritable = true)
      fun text _ => ∃ doc inner, text = doc.print 4 0 ++ "\n" ∧ doc.IsSound ∧
        doc.Numbers g ∧ doc.nodes = doc :: inner ∧
        inner.map idOf = g.components.map (componentRef g) ∧
        AreBounded inner (g.lastId + g.allWires.length) ∧
        doc.maxId? = some 65536 ∧
        (doc.IsBoundedBy 65536 ↔ g.lastId + g.allWires.length ≤ 65536) := by
  intro g
  have hg : g.IsBuilt := Graph.IsBuilt.empty.grow additions
  have words : g.IsLettered := Graph.hasOnly_empty.grow .empty lettered
  obtain ⟨o, outlined⟩ := Graph.exists_outline rooted
  have law := D3Json.draws words.isDrawable hg.coherent
  have drawn : (document .d3Json (.text title) g g.block?).Needs s
      (∀ q ∈ g.ports, (g.port q).id.isWritable = true)
      fun text s' => D3Json.style.Prints g title text ∧ s' = s := by
    refine ((law.writes_render hg.coherent outlined (fun _ => id) title).run s).congr ?_
    simp only [and_true]
  apply (needs_render_of rooted drawn).weaken
  rintro text - ⟨o', root, outlined', drawing, sound, same⟩
  obtain ⟨numbers, ⟨inner, nodes, ids, bounded⟩, stated⟩ :=
    D3Json.statesBounds hg words outlined' drawing title
  refine ⟨_, inner, same, sound, numbers, nodes, ids, bounded, stated, ?_⟩
  rw [numbers.isBoundedBy_iff]
  omega

theorem components_state_bounds_for_siblings :
    (∀ a ∈ threeSiblings, a.Meets Label.IsWorded Graph.PortFacts.IsLettered) ∧
      (({} : Graph).grow threeSiblings).root = .ok ⟨0⟩ ∧
      ∃ text doc inner, ((render .d3Json (.text "top") (({} : Graph).grow threeSiblings)).on
        ()).answer = .ok text ∧ text = doc.print 4 0 ++ "\n" ∧ doc.nodes = doc :: inner ∧
          inner.length = 4 ∧ AreBounded inner 7 ∧ doc.IsBoundedBy 65536 := by
  have lettered : ∀ a ∈ threeSiblings, a.Meets Label.IsWorded Graph.PortFacts.IsLettered := by
    intro a ha
    have titled := threeSiblings_titled a ha
    cases a with
    | component => exact titled
    | port => exact titled.toIsLettered
  have rooted : (({} : Graph).grow threeSiblings).root = .ok ⟨0⟩ := by rfl
  have count : (({} : Graph).grow threeSiblings).components.length = 4 := by decide +kernel
  have last : (({} : Graph).grow threeSiblings).lastId +
    (({} : Graph).grow threeSiblings).allWires.length = 7 := by decide +kernel
  obtain ⟨text, rendered, doc, inner, same, -, -, nodes, told, bounded, -, fits⟩ :=
    (components_state_bounds threeSiblings lettered rooted "top" ()).answers
      (threeSiblings_canShow .d3Json)
  have told := congrArg List.length told
  rw [List.length_map, List.length_map, count] at told
  rw [last] at bounded fits
  exact ⟨lettered, rooted, text, doc, inner, rendered, same, nodes, told, bounded,
    fits.mpr (by decide)⟩

end Schematic
