import Schematic.Proofs.Drawing.Formats
import Schematic.Proofs.Survey.Yield

/-! Legible objects can be shown. A survey tells its remarks on them and makes a legible graph of
them, inference adds legible ports to it, and all formats can write it. -/

namespace Schematic

/-- An object that reports something that a survey, inference and documents can cope with: a text as
its basename, a kind that tables can be asked for, a type that documents can hold, nothing or a text
as what its connection is called, and nowhere a number that is too long. -/
structure ObjectFacts.IsLegible (facts : ObjectFacts) : Prop where
  basename : facts.basename.IsText
  kind : facts.kind.isHashable = true ∧ facts.kind.isWritable = true
  typeName : facts.typeName = facts.kind ∨ (Json.ofValue facts.typeName).IsSound
  name : facts.name.isWritable = true
  direction : facts.direction.isWritable = true
  identity : facts.identity.isWritable = true
  signal : (facts.signal.orElse .null).IsTextIfAny

structure Label.IsLegible (label : Label) : Prop extends label.IsDrawable where
  name : label.name.isWritable = true

/-- A port that documents can show, with an identity that tables can hold. -/
structure Graph.PortFacts.IsLegible (facts : Graph.PortFacts) : Prop extends facts.IsDrawable where
  name : facts.name.isWritable = true
  hashable : facts.identity.isHashable = true
  identity : facts.identity.isWritable = true

def Graph.IsLegible (g : Graph) : Prop := g.HasOnly Label.IsLegible Graph.PortFacts.IsLegible

namespace ObjectFacts.IsLegible

variable {facts : ObjectFacts} {kind : Value} {f : Graph.PortFacts}

theorem isSortable {ignored : List Text} (legible : facts.IsLegible)
    (nameless : Text.empty ∉ ignored) : facts.IsSortable ignored :=
  ⟨legible.basename, .inr ⟨legible.kind.1, nameless⟩⟩

theorem binding (legible : facts.IsLegible) : facts.binding.isWritable = true := by
  unfold ObjectFacts.binding
  split
  · exact legible.identity
  · rfl

theorem shownType (legible : facts.IsLegible) (text : facts.kind.IsText) :
    (Json.ofValue (facts.typeName.orElse facts.kind)).firstFault? = none := by
  have kind := Json.isSound_ofValue (.inl text)
  unfold Value.orElse
  split
  · rcases legible.typeName with same | sound
    · exact same ▸ kind
    · exact sound
  · exact kind

theorem port? (legible : facts.IsLegible) (text : kind.IsText)
    (made : facts.port? kind = some f) : f.IsLegible := by
  obtain ⟨direction, -, rfl⟩ := Option.map_eq_some_iff.mp made
  exact ⟨⟨legible.basename, Json.isSound_ofValue (.inl text), legible.signal⟩, legible.name,
    facts.isHashable_binding, legible.binding⟩

theorem clockPort (legible : facts.IsLegible) (text : facts.kind.IsText) :
    facts.clockPort.IsLegible :=
  ⟨⟨legible.basename, Json.isSound_ofValue (.inl text),
    Value.IsTextIfAny.orElse_null (.inl legible.basename)⟩, Value.isWritable_text _,
    facts.isHashable_binding, legible.binding⟩

theorem bindingRemarks (legible : facts.IsLegible) :
    ∀ r ∈ facts.bindingRemarks, r.isWritable = true := by
  unfold ObjectFacts.bindingRemarks
  split
  · exact nofun
  · exact List.forall_mem_singleton.mpr legible.name

theorem portRemarks (legible : facts.IsLegible) :
    ∀ r ∈ facts.portRemarks, r.isWritable = true := by
  unfold ObjectFacts.portRemarks
  split
  · exact legible.bindingRemarks
  · refine List.forall_mem_singleton.mpr ?_
    rw [Remark.isWritable, legible.name, legible.direction]
    rfl

end ObjectFacts.IsLegible

namespace SimObject

variable {ignored : List Text} {marker : Text} {objects : List SimObject} {o : SimObject}

theorem makes_legible :
    Makes ObjectFacts.IsLegible Label.IsLegible Graph.PortFacts.IsLegible where
  label := fun legible text => ⟨⟨legible.basename, legible.shownType text⟩, legible.name⟩
  standIn := fun _ =>
    ⟨⟨⟨Survey.rootName, rfl⟩, Json.isSound_ofValue (.inl ⟨Survey.rootType, rfl⟩)⟩,
      Value.isWritable_text _⟩
  port := fun legible text made => legible.port? text made
  clock := fun legible text => legible.clockPort text

theorem writable_remarks (all : ∀ f ∈ o.reports, f.IsLegible) :
    ∀ r ∈ o.remarks ignored, r.isWritable = true := by
  obtain ⟨self, faces, -⟩ := reports_self all
  unfold remarks
  split
  · exact self.bindingRemarks
  · exact self.portRemarks
  · rw [List.forall_mem_append]
    constructor
    · split
      · exact List.forall_mem_singleton.mpr self.name
      · exact nofun
    · rw [List.forall_mem_flatMap]
      exact fun face hface => (faces face hface).portRemarks
  · exact List.forall_mem_singleton.mpr self.kind.2
  · exact nofun

theorem tellable_visited (all : ∀ f ∈ reportsAmong objects, f.IsLegible) :
    ∀ o ∈ visited ignored marker objects, o.isTellable ignored = true := by
  have inner : ∀ f ∈ reportsAmong (inside marker objects), f.IsLegible :=
    forall_visibleAmong [] _ (Survey.reports_rootOf all)
  intro o visited
  have legible := forall_visitsAmong _ inner o visited
  exact Survey.isTellable_iff.mpr
    ⟨fun _ => (reports_self legible).1.name, writable_remarks legible⟩

end SimObject

namespace Graph

variable {g h : Graph}

namespace IsLegible

theorem isDrawable (legible : g.IsLegible) : g.IsDrawable where
  label := fun k hk => (legible.label k hk).toIsDrawable
  ports := fun k hk f hf => (legible.ports k hk f hf).toIsDrawable

theorem hasNames (legible : g.IsLegible) (hg : g.Coherent) : ElkText.HasNames g :=
  fun _ hq => (legible.ofPort hg hq).name

theorem isKeyed (legible : g.IsLegible) : g.IsKeyed :=
  fun k hk f hf => (legible.ports k hk f hf).hashable

theorem canPass (legible : g.IsLegible) (hg : g.Coherent) : g.CanPass where
  name := fun k hk => (legible.label k hk).name
  basename := fun k hk _ hq =>
    (legible.ports k hk _ (List.mem_map_of_mem hq)).basename.isWritable
  hashable := fun _ hq => (legible.ofPort hg hq).hashable

end IsLegible

theorem IsUnderway.isLegible (now : g.IsUnderway h) (hg : g.IsBuilt) (legible : g.IsLegible) :
    h.IsLegible := by
  refine now.hasOnly hg legible fun d _ r _ driver receiver crumb => ?_
  have continued : (g.port (if crumb.upwards then d else r)).facts.IsLegible := by
    split
    · exact driver
    · exact receiver
  exact ⟨⟨continued.basename, continued.typeName, .inr rfl⟩, Value.isWritable_text _,
    receiver.hashable, receiver.identity⟩

namespace IsBuilt

/-- The number of a port can be written if the last number can. -/
theorem writable_id (hg : g.IsBuilt) (short : g.lastId < Nat.pow 10 Value.mostDigits) {q : PortKey}
    (hq : q ∈ g.ports) : (g.port q).id.isWritable = true := by
  have used : (g.port q).id ∈ (List.range' 1 g.lastId).map fun n : Nat => Value.int n :=
    hg.ids_perm.subset (List.mem_append_right _ (List.mem_map_of_mem hq))
  obtain ⟨n, counted, same⟩ := List.mem_map.mp used
  have small := List.mem_range'_1.mp counted
  rw [← same, Value.isWritable, Value.isWritableInt, decide_eq_true_eq, Int.natAbs_natCast]
  omega

theorem canShow (hg : g.IsBuilt) (legible : g.IsLegible)
    (short : g.lastId < Nat.pow 10 Value.mostDigits) : ∀ format : Format, format.CanShow g
  | .elkText => trivial
  | .debugJson => fun _ hq => ⟨hg.writable_id short hq, (legible.ofPort hg.coherent hq).identity⟩
  | .elkJson | .d3Json | .mermaid => fun _ hq => hg.writable_id short hq

end IsBuilt

/-- Inference comes to its end on a legible graph, and leaves a legible one with the same tree. -/
theorem IsLegible.needs_addPassThroughs (legible : g.IsLegible) (hg : g.IsBuilt) :
    addPassThroughs.Needs g True fun _ h => g.Extends h ∧ h.IsBuilt ∧ h.IsLegible := by
  have supplied := addPassThroughs_supplies hg.coherent (legible.canPass hg.coherent)
  obtain ⟨n, answered, -⟩ := supplied.answer
  have now := hg.isUnderway legible.isKeyed
  obtain ⟨extended, built⟩ := now.grown hg
  exact ⟨fun _ => ⟨n, answered, extended, built, now.isLegible hg legible⟩,
    fun h => absurd trivial h⟩

end Graph

section

variable {σ : Type} {objects : List SimObject} {ignored : List Text}

/-- A survey of legible objects carries out its plan. -/
theorem needs_surveyOf_legible (legible : ∀ f ∈ SimObject.reportsAmong objects, f.IsLegible)
    (marker : Text) (nameless : Text.empty ∉ ignored) (s : σ) :
    (surveyOf ⟨.text marker, .list (ignored.map .text)⟩ objects).Needs s True fun survey _ =>
      survey.FollowsPlan marker ignored objects := by
  have sortable : ∀ f ∈ SimObject.reportsAmong objects, f.IsSortable ignored :=
    fun f hf => (legible f hf).isSortable nameless
  exact (follows_surveyOf objects marker ignored sortable s).congr
    (iff_of_true (SimObject.tellable_visited legible) trivial)

/-- What is extracted from legible objects is what a survey makes of them, with the ports that
inference adds: a legible graph with a root. -/
theorem needs_extract_legible (legible : ∀ f ∈ SimObject.reportsAmong objects, f.IsLegible)
    (marker : Text) (nameless : Text.empty ∉ ignored) (s : σ) :
    let options : SurveyOptions := ⟨.text marker, .list (ignored.map .text)⟩
    (extract options objects).Needs s True fun g _ =>
      g.IsBuilt ∧ g.IsLegible ∧ (∃ r, g.root = .ok r) ∧ ∃ survey,
        ((surveyOf options objects).on s).answer = .ok survey ∧
          survey.FollowsPlan marker ignored objects ∧ survey.graph.Extends g := by
  intro options
  have surveyed := (needs_surveyOf_legible legible marker nameless s).answered
  refine surveyed.andThen fun survey s' ⟨made, follows⟩ => ?_
  have shown : survey.graph.IsLegible := follows.hasOnly SimObject.makes_legible legible
  obtain ⟨o, outlined, -⟩ := Option.map_eq_some_iff.mp follows.tree
  obtain ⟨r, rooted⟩ := Graph.exists_root outlined
  refine ((shown.needs_addPassThroughs follows.built).apart s').andThen fun x _ inferred => ?_
  obtain ⟨extended, built, passed⟩ := inferred
  have same : x.2.root = survey.graph.root := by rw [Graph.root, extended.root, Graph.root]
  exact Action.needs_pure
    ⟨built, passed, ⟨r, same.trans rooted⟩, survey, made, follows, extended⟩

end

end Schematic
