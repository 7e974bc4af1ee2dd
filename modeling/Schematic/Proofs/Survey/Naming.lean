import Schematic.Proofs.Value.Meaning
import Schematic.Snapshot.Object

/-! Objects as a simulation should report them, and their names. Naming them cannot fail, and what
they report stays in order. -/

namespace Schematic

/-- What ports may be bound to: null among others, not-a-number never. -/
structure Bindable where
  holds : Value → Prop
  null : holds .null
  proper : ∀ {v}, holds v → v.isNotANumber = false

def Bindable.anything : Bindable := ⟨fun v => v.isNotANumber = false, rfl, id⟩

def Bindable.writable : Bindable :=
  ⟨fun v => v.isNotANumber = false ∧ v.isWritable = true, ⟨rfl, by simp [Value.isWritable]⟩,
    And.left⟩

/-- What an object should report: texts as basename and kind, a name, if any, that can be written,
and as identity what a port may be bound to. -/
structure ObjectFacts.InOrder (allowed : Bindable) (facts : ObjectFacts) : Prop where
  basename : facts.basename.IsText
  kind : facts.kind.IsText
  name : facts.name.isWritable = true
  identity : allowed.holds facts.identity

/-- What names are made of: a basename and a name, if any, that can be written. -/
structure ObjectFacts.IsNameable (facts : ObjectFacts) : Prop where
  basename : facts.basename.isWritable = true
  name : facts.name.isWritable = true

theorem ObjectFacts.InOrder.isNameable {allowed : Bindable} {facts : ObjectFacts}
    (h : facts.InOrder allowed) : facts.IsNameable := ⟨h.basename.isWritable, h.name⟩

namespace SimObject

mutual

def reports : SimObject → List ObjectFacts
  | mk facts children faces => facts :: (faces.map SimObject.facts ++ reportsAmong children)

def reportsAmong : List SimObject → List ObjectFacts
  | [] => []
  | o :: os => reports o ++ reportsAmong os

end

variable {allowed : Bindable} {enclosing : Value} {facts : ObjectFacts}

theorem isWritable_name_nameFacts (h : facts.IsNameable) :
    (nameFacts enclosing facts).name.isWritable = true := by
  rw [nameFacts]
  split
  · exact h.name
  · change (qualify enclosing facts.basename).isWritable = true
    rw [qualify]
    split
    · exact Value.isWritable_text _
    · exact h.basename

theorem inOrder_nameFacts (h : facts.InOrder allowed) :
    (nameFacts enclosing facts).InOrder allowed := by
  have name : (nameFacts enclosing facts).name.isWritable = true :=
    isWritable_name_nameFacts h.isNameable
  rw [nameFacts] at name ⊢
  split
  · exact h
  · next unnamed =>
    rw [if_neg unnamed] at name
    exact ⟨h.basename, h.kind, name, h.identity⟩

theorem isNameable_of_isNameable (h : facts.IsNameable) (outer : enclosing.isWritable = true) :
    isNameable enclosing facts = true := by
  simp [isNameable, outer, h.basename]

theorem facts_nameSelf (o : SimObject) :
    (nameSelf enclosing o).facts = nameFacts enclosing o.facts := by
  cases o
  rfl

section Reports

variable {p q : ObjectFacts → Prop} {o : SimObject}

theorem forall_reports {os : List SimObject} (all : ∀ f ∈ reportsAmong os, p f) :
    ∀ o ∈ os, ∀ f ∈ o.reports, p f := by
  induction os with
  | nil => exact nofun
  | cons o os ih =>
    rw [reportsAmong, List.forall_mem_append] at all
    exact List.forall_mem_cons.mpr ⟨all.1, ih all.2⟩

theorem reports_self (all : ∀ f ∈ o.reports, p f) :
    p o.facts ∧ (∀ face ∈ o.faces, p face.facts) ∧ ∀ x ∈ o.children, ∀ f ∈ x.reports, p f := by
  cases o
  rw [reports, List.forall_mem_cons, List.forall_mem_append, List.forall_mem_map] at all
  exact ⟨all.1, all.2.1, forall_reports all.2.2⟩

mutual

/-- What holds of an object with its name, given what holds of it without, holds of all named
objects. -/
theorem forall_named (step : ∀ enclosing facts, p facts → q (nameFacts enclosing facts)) :
    ∀ (o : SimObject) (enclosing : Value), (∀ f ∈ reports o, p f) →
      ∀ f ∈ reports (named enclosing o), q f
  | mk facts children faces, enclosing, all => by
    rw [reports, List.forall_mem_cons, List.forall_mem_append] at all
    rw [named, reports, List.forall_mem_cons, List.forall_mem_append]
    refine ⟨step enclosing facts all.1, ?_, forall_namedAll step children _ all.2.2⟩
    simp only [List.map_map, List.forall_mem_map, Function.comp_apply, facts_nameSelf]
    exact fun face h => step enclosing face.facts (all.2.1 _ (List.mem_map_of_mem h))

theorem forall_namedAll (step : ∀ enclosing facts, p facts → q (nameFacts enclosing facts)) :
    ∀ (os : List SimObject) (enclosing : Value), (∀ f ∈ reportsAmong os, p f) →
      ∀ f ∈ reportsAmong (namedAll enclosing os), q f
  | [], _, _ => nofun
  | o :: os, enclosing, all => by
    rw [reportsAmong, List.forall_mem_append] at all
    rw [namedAll, reportsAmong, List.forall_mem_append]
    exact ⟨forall_named step o enclosing all.1, forall_namedAll step os enclosing all.2⟩

end

end Reports

mutual

theorem canName_of_isNameable : ∀ (o : SimObject) (enclosing : Value),
    enclosing.isWritable = true → (∀ f ∈ reports o, f.IsNameable) → canName enclosing o = true
  | mk facts children faces, enclosing, outer, all => by
    rw [reports, List.forall_mem_cons, List.forall_mem_append, List.forall_mem_map] at all
    obtain ⟨self, ends, inner⟩ := all
    have inside := canNameAll_of_isNameable children (nameFacts enclosing facts).name
      (isWritable_name_nameFacts self) inner
    rw [canName, isNameable_of_isNameable self outer, inside, Bool.true_and, Bool.and_true,
      List.all_eq_true]
    exact fun face h => isNameable_of_isNameable (ends face h) outer

/-- Names can be made of what can be written. -/
theorem canNameAll_of_isNameable : ∀ (os : List SimObject) (enclosing : Value),
    enclosing.isWritable = true → (∀ f ∈ reportsAmong os, f.IsNameable) →
      canNameAll enclosing os = true
  | [], _, _, _ => rfl
  | o :: os, enclosing, outer, all => by
    rw [reportsAmong, List.forall_mem_append] at all
    rw [canNameAll, canName_of_isNameable o enclosing outer all.1,
      canNameAll_of_isNameable os enclosing outer all.2, Bool.and_self]

end

theorem withNames_of_isNameable {objects : List SimObject}
    (all : ∀ f ∈ reportsAmong objects, f.IsNameable) :
    withNames objects = .ok (nameForest objects) :=
  if_pos (canNameAll_of_isNameable objects (.text .empty) (Value.isWritable_text _) all)

theorem withNames_inOrder {objects : List SimObject}
    (order : ∀ f ∈ reportsAmong objects, f.InOrder allowed) :
    withNames objects = .ok (nameForest objects) ∧
      ∀ f ∈ reportsAmong (nameForest objects), f.InOrder allowed :=
  ⟨withNames_of_isNameable fun f hf => (order f hf).isNameable,
    forall_namedAll (fun _ _ => inOrder_nameFacts) objects _ order⟩

theorem eq_of_withNames {objects forest : List SimObject}
    (named : withNames objects = .ok forest) : forest = nameForest objects := by
  unfold withNames at named
  split at named
  · cases named
    rfl
  · cases named

end SimObject

end Schematic
