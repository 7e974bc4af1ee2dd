import Schematic.Proofs.Drawing.Formats
import Schematic.Proofs.Drawing.JsonSheets
import Schematic.Proofs.Drawing.Sameness
import Schematic.Proofs.Recoding.Opacity

/-! What a document tells of bindings. The document that shows identities has each port once, with
one value for its interface, which follows from the identity of the port alone. So identities
decide whether two ports are shown by one value, and not always as they decide whether the ports
connect. -/

namespace Schematic

namespace Json

/-- A port of a block, as what it is numbered by and what is shown for its interface. -/
def interface? : Json → Option (Json × Json)
  | .object members =>
    match member? members "id", member? members "interface" with
    | some id, some shown => some (id, shown)
    | _, _ => none
  | _ => none

mutual

/-- The interfaces that a document shows: those of the ports of all blocks, in its order. -/
def interfaces : Json → List (Json × Json)
  | .object members => interfacesIn members
  | .array js => interfacesAmong js
  | _ => []

def interfacesAmong : List Json → List (Json × Json)
  | [] => []
  | j :: js => interfaces j ++ interfacesAmong js

def interfacesIn : List (Text × Json) → List (Json × Json)
  | [] => []
  | (name, j) :: rest =>
    (if name = "ports" then j.entries.filterMap interface?
      else if name = "children" then interfaces j else []) ++ interfacesIn rest

end

end Json

open Json

namespace DebugJson

variable {g : Graph} {j root : Json} {js : List Json} {ps : List PortKey} {q : PortKey}

theorem identityValue_ok {v shown : Value} (found : identityValue v = .ok shown) :
    Json.ofValue shown = v.shown := by
  rw [identityValue] at found
  rw [Value.shown]
  split at found
  · next asIs =>
    cases found
    rw [if_pos asIs]
  · next other =>
    split at found
    · cases found
      rw [if_neg other, Json.ofValue]
    · cases found

theorem interface?_port (drawn : port g q = .ok j) :
    j.interface? = some (g.portNumber q, (g.port q).identity.shown) := by
  obtain ⟨members, found, drawn⟩ := exists_of_bind_ok drawn
  obtain ⟨extras, added, drawn⟩ := exists_of_bind_ok drawn
  cases drawn
  obtain ⟨id, referred, found⟩ := exists_of_bind_ok found
  cases found
  obtain ⟨shown, identity, added⟩ := exists_of_bind_ok added
  cases added
  cases Graph.portRef_ok referred
  rw [← identityValue_ok identity]
  rfl

theorem interfaces_ports (drawn : List.Forall₂ (fun q j => port g q = .ok j) ps js) :
    js.filterMap interface? = ps.map fun q => (g.portNumber q, (g.port q).identity.shown) := by
  induction drawn with
  | nil => rfl
  | cons first _ ih => rw [List.filterMap_cons_some (interface?_port first), ih, List.map_cons]

mutual

theorem interfaces_draw : ∀ (b : Block) {j : Json}, style.draw g b = .ok j →
    j.interfaces = b.allPorts.map fun q => (g.portNumber q, (g.port q).identity.shown)
  | .mk k ports children wires last, j, drawn => by
    obtain ⟨ps, js, ws, found, inner, -, rfl⟩ := JsonStyle.exists_of_draw drawn
    rw [Block.allPorts, List.map_append, ← interfaces_ports (forall₂_of_mapM found),
      ← interfaces_drawAll children inner]
    -- of all members of a block, its ports and its children alone are looked into
    have whole : (style.node g k ps js ws last).interfaces =
        [] ++ (ps.filterMap interface? ++ (interfacesAmong js ++ [])) := rfl
    rw [whole, List.nil_append, List.append_nil]

theorem interfaces_drawAll : ∀ (bs : List Block) {js : List Json},
    style.drawAll g bs = .ok js →
      interfacesAmong js =
        (Block.allPortsOf bs).map fun q => (g.portNumber q, (g.port q).identity.shown)
  | [], _, drawn => by
    cases drawn
    rfl
  | b :: bs, js, drawn => by
    obtain ⟨j, js, first, rest, rfl⟩ := JsonStyle.exists_of_drawAll drawn
    rw [interfacesAmong, interfaces_draw b first, interfaces_drawAll bs rest, Block.allPortsOf,
      List.map_append]

end

theorem interfaces_document (title root : Json) :
    (style.document title (some root)).interfaces = root.interfaces := by
  have whole : (style.document title (some root)).interfaces =
      [] ++ ([] ++ ([] ++ (root.interfaces ++ [] ++ ([] ++ [])))) := rfl
  rw [whole]
  simp only [List.nil_append, List.append_nil]

/-- A rendered document has all ports with what is shown of their identities, which can be
written. -/
theorem exists_of_rendered {σ : Type} {s : σ} {title : Value} {text : Text}
    (rendered : (render .debugJson title g s).answer = .ok text) :
    ∃ doc : Json, text = doc.print 4 0 ++ "\n" ∧ doc.IsSound ∧
      doc.interfaces = g.ports.map (fun q => (g.portNumber q, (g.port q).identity.shown)) ∧
        ∀ q ∈ g.ports, (g.port q).identity.isWritable = true := by
  obtain ⟨o, root, outlined, drawing, sound, rfl⟩ := exists_drawing rfl rendered
  have ports : (Block.ofOutline g ⟨g.lastId⟩ o).1.allPorts = g.ports :=
    Graph.allPorts_of_block? (congrArg (Option.map _) outlined)
  refine ⟨_, rfl, sound, ?_, ?_⟩
  · rw [interfaces_document, interfaces_draw _ drawing, ports]
  · exact ports ▸ isWritable_of_draw _ drawing (isSound_of_document sound)

end DebugJson

theorem ObjectFacts.isKey_binding {facts : ObjectFacts} (canonical : facts.identity.IsCanonical) :
    facts.binding.IsKey := by
  refine ⟨facts.isHashable_binding, ?_⟩
  unfold ObjectFacts.binding
  split
  · exact canonical
  · exact trivial

/-- What is extracted has a root, and its ports are bound to what tables can hold. -/
theorem keys_of_extracted {σ : Type} {s : σ} {g : Graph} {options : SurveyOptions}
    {objects : List SimObject}
    (canonical : ∀ f ∈ SimObject.reportsAmong objects, f.identity.IsCanonical)
    (extracted : (extract options objects s).answer = .ok g) :
    g.IsBuilt ∧ (∃ r, g.root = .ok r) ∧ ∀ q ∈ g.ports, (g.port q).identity.IsKey := by
  obtain ⟨survey, -, draft, run⟩ := exists_survey extracted
  obtain ⟨grown, built⟩ := run.grown draft.built
  have surveyedKeys : survey.graph.HasOnly (fun _ => True) fun f => f.identity.IsKey := by
    refine ⟨fun _ _ => trivial, draft.forall_facts (r := fun f => f.identity.IsCanonical)
      ?_ (fun f => f.isKey_binding) canonical⟩
    intro f reported kind x made
    obtain ⟨direction, -, rfl⟩ := Option.map_eq_some_iff.mp made
    exact f.isKey_binding reported
  -- a port that is passed on is bound to what its receiver is bound to
  have keys := run.hasOnly draft.built surveyedKeys fun _ _ _ _ _ receiver _ => receiver
  obtain ⟨top, ports, below, -, -, tree⟩ := draft.tree
  obtain ⟨o, outlined, -⟩ := Option.map_eq_some_iff.mp tree
  obtain ⟨r, rooted⟩ := Graph.exists_root outlined
  refine ⟨built, ⟨r, ?_⟩, fun q hq => keys.ofPort built.coherent hq⟩
  rw [Graph.root, grown.root, ← rooted, Graph.root]

def Json.ShowsAlike (doc : Json) (g : Graph) (p q : PortKey) : Prop :=
  ∃ v w, (g.portNumber p, v) ∈ doc.interfaces ∧ (g.portNumber q, w) ∈ doc.interfaces ∧
    v.SameValue w

/-- What the interfaces of a document tell of the bindings of a graph. Each port is in it once, with
one value. -/
structure Json.TellsInterfaces (doc : Json) (g : Graph) : Prop where
  ports : doc.interfaces.map Prod.fst = g.ports.map g.portNumber
  once : (g.ports.map g.portNumber).Nodup
  /-- Ports that connect have one value if both or none of them are bound to truth values, and if
  collections, bytes and points in time that they are bound to are the same and not just equal. -/
  joined : ∀ p ∈ g.ports, ∀ q ∈ g.ports, (g.port p).connects (g.port q) = true →
    (doc.ShowsAlike g p q ↔ (g.port p).identity.WrittenLike (g.port q).identity)
  /-- Other bound ports have one value only if the text of one identity is that of the other when
  both are written. -/
  apart : ∀ p ∈ g.ports, ∀ q ∈ g.ports, (g.port p).isBound = true → (g.port q).isBound = true →
    (g.port p).connects (g.port q) = false →
      (doc.ShowsAlike g p q ↔ (g.port p).identity.MistakenFor (g.port q).identity)

section

variable {g : Graph} {doc : Json} {p q : PortKey}

theorem showsAlike_iff (hg : g.IsBuilt) (hp : p ∈ g.ports) (hq : q ∈ g.ports)
    (shows : doc.interfaces =
      g.ports.map fun q => (g.portNumber q, (g.port q).identity.shown)) :
    doc.ShowsAlike g p q ↔ (g.port p).identity.shown.SameValue (g.port q).identity.shown := by
  have value {q : PortKey} {v : Json} (hq : q ∈ g.ports) :
      (g.portNumber q, v) ∈ doc.interfaces ↔ v = (g.port q).identity.shown := by
    rw [shows, List.mem_map]
    constructor
    · rintro ⟨q', hq', same⟩
      obtain ⟨number, rfl⟩ := Prod.mk.inj same
      rw [List.inj_on_of_nodup_map hg.nodup_portNumbers hq' hq number]
    · rintro rfl
      exact ⟨q, hq, rfl⟩
  simp only [ShowsAlike, value hp, value hq, exists_and_left, exists_eq_left]

theorem tellsInterfaces (hg : g.IsBuilt) (keys : ∀ q ∈ g.ports, (g.port q).identity.IsKey)
    (writable : ∀ q ∈ g.ports, (g.port q).identity.isWritable = true)
    (shows : doc.interfaces =
      g.ports.map fun q => (g.portNumber q, (g.port q).identity.shown)) :
    doc.TellsInterfaces g := by
  have showing {q : PortKey} (hq : q ∈ g.ports) (bound : (g.port q).isBound = true) :
      ∃ family kind, (g.port q).identity.Showing family kind := by
    rw [Port.isBound, Bool.not_eq_true'] at bound
    exact Value.exists_showing (keys q hq) bound (writable q hq)
  refine ⟨?_, hg.nodup_portNumbers, ?_, ?_⟩
  · rw [shows, List.map_map]
    rfl
  · intro p hp q hq joined
    rw [Port.connects, Bool.and_eq_true, Bool.and_eq_true] at joined
    obtain ⟨_, _, left⟩ := showing hp joined.1.1
    obtain ⟨_, _, right⟩ := showing hq joined.1.2
    rw [showsAlike_iff hg hp hq shows]
    exact Value.sameValue_of_equal (keys p hp) (keys q hq) left right joined.2
  · intro p hp q hq bound bound' apart
    obtain ⟨_, _, left⟩ := showing hp bound
    obtain ⟨_, _, right⟩ := showing hq bound'
    rw [Port.connects, bound, bound', Bool.true_and, Bool.true_and] at apart
    rw [showsAlike_iff hg hp hq shows]
    exact Value.sameValue_of_unequal (keys p hp) (keys q hq) left right (Bool.eq_false_iff.mp apart)

end

variable {σ τ : Type}

/-- What a document tells of bindings. In the document that shows the identities of a graph that was
extracted from any objects, whose floating-point numbers are in their canonical form, each port has
one value for its interface. Ports that connect have the same value unless one is bound to a truth
value and the other one to a number, or both to collections, bytes or points in time that are not
the same though equal. Ports that do not connect have different values unless one is bound to a text
and the other one to what is written as this text, or what they are bound to differs only in texts
that are written alike and in what is not a number. There is a document if all that it shows can be
written. -/
theorem interfaces_tell_bindings {g : Graph} (options : SurveyOptions) (objects : List SimObject)
    (canonical : ∀ f ∈ SimObject.reportsAmong objects, f.identity.IsCanonical) (s : σ) (t : τ)
    (extracted : (extract options objects s).answer = .ok g) :
    (∀ title text, (render .debugJson title g t).answer = .ok text →
      ∃ doc : Json, text = doc.print 4 0 ++ "\n" ∧ doc.IsSound ∧ doc.TellsInterfaces g) ∧
    (g.IsDrawable → Format.debugJson.CanShow g →
      ∀ title : Text, ∃ text, (render .debugJson (.text title) g t).answer = .ok text) := by
  obtain ⟨built, ⟨r, rooted⟩, keys⟩ := keys_of_extracted canonical extracted
  constructor
  · intro title text rendered
    obtain ⟨doc, printed, sound, shows, writable⟩ := DebugJson.exists_of_rendered rendered
    exact ⟨doc, printed, sound, tellsInterfaces built keys writable shows⟩
  · intro words can title
    obtain ⟨o, outlined⟩ := Graph.exists_outline rooted
    have law := DebugJson.draws words built.coherent
    have drawing := law.writes_render built.coherent outlined (fun _ => .inr) title
    obtain ⟨text, made, -⟩ := drawing.answers can
    refine ⟨text, ?_⟩
    rw [answer_render rfl, rooted]
    exact made

/-- Two ports that connect, bound to one and to true, and two ports that do not, bound to a tuple
and to its text. -/
def capturedLookalikes : List SimObject :=
  [.module (.text "r")
    [.port (.text "a") (.text "sc_out") (.text "output") (.int 1),
      .port (.text "b") (.text "sc_in") (.text "input") (.bool true),
      .port (.text "c") (.text "sc_in") (.text "input") (.tuple [.int 1]),
      .port (.text "d") (.text "sc_in") (.text "input") (.text "(1,)")]]

theorem capturedLookalikes_reports {forest : List SimObject}
    (named : SimObject.withNames capturedLookalikes = .ok forest) :
    ∀ f ∈ SimObject.reportsAmong forest, f.IsWorded ∧ f.identity.IsCanonical := by
  obtain rfl := SimObject.eq_of_withNames named
  refine SimObject.forall_namedAll (p := fun f => f.IsWorded ∧ f.identity.IsCanonical) ?_ _ _ ?_
  · intro enclosing facts holds
    unfold SimObject.nameFacts
    split
    · exact holds
    · exact ⟨⟨holds.1.basename, holds.1.kind, holds.1.typeName, holds.1.signal⟩, holds.2⟩
  · simp only [capturedLookalikes, SimObject.reportsAmong, SimObject.module, SimObject.port,
      SimObject.ofFacts, SimObject.reports, List.map_nil, List.nil_append, List.append_nil,
      List.cons_append, List.forall_mem_cons, List.not_mem_nil, false_implies, implies_true,
      Value.IsCanonical, Value.AreCanonical, and_true]
    and_intros <;> exact ⟨⟨_, rfl⟩, ⟨_, rfl⟩, ⟨_, rfl⟩, .inr rfl⟩

theorem interfaces_tell_bindings_of_lookalikes :
    ∃ forest g text, SimObject.withNames capturedLookalikes = .ok forest ∧
      (∀ f ∈ SimObject.reportsAmong forest, f.identity.IsCanonical) ∧
      (extract {} forest ()).answer = .ok g ∧ g.IsDrawable ∧ Format.debugJson.CanShow g ∧
      (render .debugJson (.text "r") g ()).answer = .ok text ∧
      ∃ doc : Json, text = doc.print 4 0 ++ "\n" ∧ doc.IsSound ∧ doc.TellsInterfaces g := by
  have shape : ((SimObject.withNames capturedLookalikes).toOption.bind fun forest =>
      (extract {} forest ()).answer.toOption).any (fun g => g.ports.all fun q =>
        (g.port q).id.isWritable && (g.port q).identity.isWritable) = true := by
    decide +kernel
  obtain ⟨forest, g, named, extracted, found⟩ := exists_of_extracts shape
  simp only [List.all_eq_true, Bool.and_eq_true] at found
  have reports := capturedLookalikes_reports named
  have canonical := fun f hf => (reports f hf).2
  have captured : (extract ⟨.text "$$$", .list (List.map .text [])⟩ forest ()).answer = .ok g :=
    extracted
  obtain ⟨-, worded, -⟩ := exists_of_extracted (fun f hf => (reports f hf).1) captured
  have words := worded.isLettered.isDrawable
  obtain ⟨tells, written⟩ := interfaces_tell_bindings {} forest canonical () () extracted
  obtain ⟨text, rendered⟩ := written words found "r"
  exact ⟨forest, g, text, named, canonical, extracted, words, found, rendered,
    tells _ text rendered⟩

theorem interfaces_mistake_bindings :
    ∃ forest g, ∃ doc : Json, SimObject.withNames capturedLookalikes = .ok forest ∧
      (extract {} forest ()).answer = .ok g ∧
      (render .debugJson (.text "r") g ()).answer = .ok (doc.print 4 0 ++ "\n") ∧
      (∃ p ∈ g.ports, ∃ q ∈ g.ports, (g.port p).connects (g.port q) = true ∧
        ¬ doc.ShowsAlike g p q) ∧
      ∃ p ∈ g.ports, ∃ q ∈ g.ports, (g.port p).isBound = true ∧ (g.port q).isBound = true ∧
        (g.port p).connects (g.port q) = false ∧ doc.ShowsAlike g p q := by
  have shape : ((SimObject.withNames capturedLookalikes).toOption.bind fun forest =>
      (extract {} forest ()).answer.toOption).any (fun g =>
        let shown (n : Nat) := (g.port ⟨n⟩).identity.shown
        (render .debugJson (.text "r") g ()).answer.toOption.isSome &&
          g.ports == [⟨0⟩, ⟨1⟩, ⟨2⟩, ⟨3⟩] &&
          ((g.port ⟨0⟩).connects (g.port ⟨1⟩) && (shown 1).worth?.isNone &&
            (shown 0).print 4 0 != (shown 1).print 4 0) &&
          ((g.port ⟨2⟩).isBound && (g.port ⟨3⟩).isBound && !(g.port ⟨2⟩).connects (g.port ⟨3⟩) &&
            (shown 2).print 4 0 == (shown 3).print 4 0)) = true := by
    decide +kernel
  obtain ⟨forest, g, named, extracted, found⟩ := exists_of_extracts shape
  obtain ⟨built, -, -⟩ := keys_of_extracted
    (fun f hf => (capturedLookalikes_reports named f hf).2) extracted
  simp only [Bool.and_eq_true, beq_iff_eq, bne_iff_ne, Option.isNone_iff_eq_none,
    Bool.not_eq_true'] at found
  obtain ⟨⟨⟨made, listed⟩, ⟨joined, word⟩, unlike⟩, ⟨⟨bound, bound'⟩, apart⟩, alike⟩ := found
  cases rendered : (render .debugJson (.text "r") g ()).answer with
  | error e =>
    rw [rendered] at made
    cases made
  | ok text =>
    obtain ⟨doc, rfl, -, shows, -⟩ := DebugJson.exists_of_rendered rendered
    have a : ⟨0⟩ ∈ g.ports := by simp [listed]
    have b : ⟨1⟩ ∈ g.ports := by simp [listed]
    have c : ⟨2⟩ ∈ g.ports := by simp [listed]
    have d : ⟨3⟩ ∈ g.ports := by simp [listed]
    refine ⟨forest, g, doc, named, extracted, rendered, ?_, ?_⟩
    · refine ⟨⟨0⟩, a, ⟨1⟩, b, joined, ?_⟩
      rw [showsAlike_iff built a b shows]
      rintro (written | ⟨x, y, -, worth, -⟩)
      · exact unlike written
      · cases word.symm.trans worth
    · refine ⟨⟨2⟩, c, ⟨3⟩, d, bound, bound', apart, ?_⟩
      exact (showsAlike_iff built c d shows).mpr (.inl alike)

end Schematic
