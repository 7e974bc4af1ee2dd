import Schematic.Proofs.Graph.Identifiers
import Schematic.Proofs.Survey.Yield

/-! Texts stay texts. From objects that report texts a survey makes a graph that shows texts, bound
to identities that tables can hold, and a run of inference adds no other ports to it. -/

namespace Schematic

def Value.IsTextIfAny (v : Value) : Prop := v.IsText ∨ v = .null

/-- An object that reports texts as what it and its connection are called and of what kind and type
it is. -/
structure ObjectFacts.IsWorded (facts : ObjectFacts) : Prop where
  basename : facts.basename.IsText
  kind : facts.kind.IsText
  typeName : facts.typeName.IsText
  signal : facts.signal.IsTextIfAny

structure Label.IsWorded (label : Label) : Prop where
  basename : label.basename.IsText
  typeName : label.typeName.IsText

structure Graph.PortFacts.IsWorded (facts : Graph.PortFacts) : Prop where
  basename : facts.basename.IsText
  typeName : facts.typeName.IsText
  signal : facts.signal.IsTextIfAny
  identity : facts.identity.isHashable = true

structure Graph.IsWorded (g : Graph) : Prop where
  label : ∀ k ∈ g.roster, (g.label k).IsWorded
  ports : ∀ k ∈ g.roster, ∀ f ∈ g.factsOf k, f.IsWorded

structure Graph.PortFacts.IsLettered (facts : Graph.PortFacts) : Prop where
  basename : facts.basename.IsText
  typeName : facts.typeName.IsText
  signal : facts.signal.IsTextIfAny

/-- A graph that shows texts but for identities. -/
def Graph.IsLettered (g : Graph) : Prop := g.HasOnly Label.IsWorded Graph.PortFacts.IsLettered

theorem Graph.IsWorded.isLettered {g : Graph} (words : g.IsWorded) : g.IsLettered :=
  ⟨words.label, fun k hk f hf =>
    let worded := words.ports k hk f hf
    ⟨worded.basename, worded.typeName, worded.signal⟩⟩

theorem Value.IsText.orElse {v w : Value} (hv : v.IsText) (hw : w.IsText) :
    (v.orElse w).IsText := by
  unfold Value.orElse
  split
  · exact hv
  · exact hw

theorem Value.IsTextIfAny.orElse_null {v : Value} (h : v.IsTextIfAny) :
    (v.orElse .null).IsTextIfAny := by
  unfold Value.orElse
  split
  · exact h
  · exact .inr rfl

namespace ObjectFacts

variable {facts : ObjectFacts} {kind : Value} {f : Graph.PortFacts}

theorem IsWorded.isNamed (words : facts.IsWorded) : facts.IsNamed := ⟨words.basename, words.kind⟩

theorem IsWorded.port? (words : facts.IsWorded) (text : kind.IsText)
    (made : facts.port? kind = some f) : f.IsWorded := by
  obtain ⟨direction, -, rfl⟩ := Option.map_eq_some_iff.mp made
  exact ⟨words.basename, text, words.signal.orElse_null, facts.isHashable_binding⟩

theorem IsWorded.clockPort (words : facts.IsWorded) : facts.clockPort.IsWorded :=
  ⟨words.basename, words.kind, Value.IsTextIfAny.orElse_null (.inl words.basename),
    facts.isHashable_binding⟩

end ObjectFacts

theorem SimObject.makes_worded :
    Makes ObjectFacts.IsWorded Label.IsWorded Graph.PortFacts.IsWorded where
  label := fun words _ => ⟨words.basename, words.typeName.orElse words.kind⟩
  standIn := fun _ => ⟨⟨Survey.rootName, rfl⟩, ⟨Survey.rootType, rfl⟩⟩
  port := fun words text made => words.port? text made
  clock := fun words _ => words.clockPort

theorem Survey.FollowsPlan.isWorded {s : Survey} {marker : Text} {ignored : List Text}
    {objects : List SimObject} (follows : s.FollowsPlan marker ignored objects)
    (words : ∀ f ∈ SimObject.reportsAmong objects, f.IsWorded) : s.graph.IsWorded := by
  have only := follows.hasOnly SimObject.makes_worded words
  exact ⟨only.label, only.ports⟩

namespace Graph

variable {g h : Graph}

/-- Inference on a graph that shows texts leaves one that shows texts. -/
theorem IsUnderway.isWorded (now : g.IsUnderway h) (hg : g.IsBuilt) (words : g.IsWorded) :
    h.IsWorded := by
  have all : g.HasOnly Label.IsWorded PortFacts.IsWorded := ⟨words.label, words.ports⟩
  have only := now.hasOnly hg all fun d _ r _ driver receiver crumb => by
    have continued : (g.port (if crumb.upwards then d else r)).facts.IsWorded := by
      split
      · exact driver
      · exact receiver
    exact ⟨continued.basename, continued.typeName, .inr rfl, receiver.identity⟩
  exact ⟨only.label, only.ports⟩

end Graph

end Schematic
