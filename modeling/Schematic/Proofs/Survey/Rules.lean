import Schematic.Proofs.Survey.Naming
import Schematic.Proofs.Survey.Need
import Schematic.Survey

/-! What the rules of a survey say of objects with texts as basenames and kinds. On these they
always decide which objects are passed over, and which one, if any, is the root. -/

namespace Schematic

def ObjectFacts.isMarked (marker : Text) (facts : ObjectFacts) : Bool :=
  match facts.basename.text? with
  | some basename => basename.startsWith marker
  | none => false

def SimObject.standIn (objects : List SimObject) : SimObject :=
  mk { basename := .text Survey.rootName, kind := .null, typeName := .text Survey.rootType,
       name := .text Survey.rootName } objects []

namespace Survey

variable {rules : SurveyRules} {marker text : Text} {facts : ObjectFacts} {basename : Value}

theorem isMarked_eq (h : facts.basename.text? = some text) :
    facts.isMarked marker = text.startsWith marker := by
  rw [ObjectFacts.isMarked, h]

theorem exists_of_isMarked (marked : facts.isMarked marker = true) :
    ∃ text, facts.basename.text? = some text ∧ text.startsWith marker = true := by
  unfold ObjectFacts.isMarked at marked
  split at marked
  · next text found => exact ⟨text, found, marked⟩
  · cases marked

theorem isInternal_eq (spelled : rules.marker = .text marker) (h : basename.text? = some text) :
    rules.isInternal basename = .ok (text.startsWith marker) := by
  rw [SurveyRules.isInternal, spelled, h]
  have tried : SurveyRules.startsWithAny text [.text marker] =
      if text.startsWith marker then .ok true else .ok false := rfl
  refine tried.trans ?_
  cases text.startsWith marker <;> rfl

theorem basenameText_eq (h : basename.text? = some text) : basenameText basename = .ok text := by
  rw [basenameText, h]

theorem isHelperName_eq (stems : List Text) (h : basename.text? = some text) :
    isHelperName stems basename = .ok (isHelper stems text) := by
  cases basename with
  | text => cases h; rfl
  | direction => cases h; rfl
  | _ => cases h

theorem isHidden_eq (spelled : rules.marker = .text marker) (stems : List Text)
    (h : basename.text? = some text) :
    isHidden rules stems basename = .ok (text.startsWith marker || isHelper stems text) := by
  rw [isHidden, isInternal_eq spelled h, isHelperName_eq stems h]
  cases text.startsWith marker <;> rfl

theorem exists_classify (rules : SurveyRules) {kind : Value} (text : kind.IsText) :
    ∃ role, Kind.classify rules.isIgnored kind = .ok role := by
  rw [Kind.classify, if_pos text.isHashable]
  split
  · exact ⟨_, rfl⟩
  · exact ⟨_, rfl⟩

/-- The only object at the top is the root if it is a module and not internal. -/
theorem singleRoot?_eq (spelled : rules.marker = .text marker) {top : SimObject} {kind : Text}
    (word : top.facts.kind.text? = some kind) (h : top.facts.basename.text? = some text) :
    singleRoot? rules [top] =
      .ok (if Kind.modules.contains kind && !text.startsWith marker then some top else none) := by
  have isModule : Kind.isModule top.facts.kind = .ok (Kind.modules.contains kind) := by
    rw [Kind.isModule, word]
  simp only [singleRoot?, isModule, isInternal_eq spelled h, bind, Except.bind]
  cases Kind.modules.contains kind <;> cases text.startsWith marker <;> rfl

theorem eq_of_singleRoot? {objects : List SimObject} {top : SimObject}
    (found : singleRoot? rules objects = .ok (some top)) : objects = [top] := by
  match objects with
  | [] => cases found
  | [o] =>
    simp only [singleRoot?, bind, Except.bind] at found
    split at found
    · cases found
    · split at found
      · split at found
        · cases found
        · next internal _ =>
          cases internal
          · cases found
            rfl
          · cases found
      · cases found
  | _ :: _ :: _ => cases found

/-- What is inside the root was reported. -/
theorem reports_root {objects : List SimObject} {top? : Option SimObject}
    {p : ObjectFacts → Prop} (found : singleRoot? rules objects = .ok top?)
    (all : ∀ f ∈ SimObject.reportsAmong objects, p f) :
    ∀ f ∈ SimObject.reportsAmong (top?.getD (.standIn objects)).children, p f := by
  cases top? with
  | none => exact all
  | some top =>
    obtain rfl := eq_of_singleRoot? found
    cases top
    simp only [SimObject.reportsAmong, SimObject.reports, List.append_nil, List.forall_mem_cons,
      List.forall_mem_append] at all
    exact all.2.2

/-- Whether an object at the top is the root depends on its kind and basename only. -/
theorem singleRoot?_map {f : SimObject → SimObject}
    (same : ∀ o, (f o).facts.kind = o.facts.kind ∧ (f o).facts.basename = o.facts.basename)
    (objects : List SimObject) :
    singleRoot? rules (objects.map f) = (singleRoot? rules objects).map (Option.map f) := by
  match objects with
  | [] => rfl
  | [top] =>
    simp only [List.map_cons, List.map_nil, singleRoot?, (same top).1, (same top).2]
    cases Kind.isModule top.facts.kind with
    | error e => rfl
    | ok isModule =>
      cases isModule with
      | false => rfl
      | true =>
        cases rules.isInternal top.facts.basename with
        | error e => rfl
        | ok internal => cases internal <;> rfl
  | _ :: _ :: _ => rfl

end Survey

theorem rules_of_texts (marker : Text) (ignored : List Text) :
    (SurveyOptions.mk (.text marker) (.list (ignored.map .text))).rules =
      .ok ⟨.text marker, Kind.bookkeeping.map .text ++ ignored.map .text⟩ := by
  have hashable : (ignored.map Value.text).all Value.isHashable = true := by
    simp [Value.isHashable]
  exact if_pos hashable

/-- A graph that an evaluation found to be extracted, and to be as it was tested for. -/
theorem exists_of_extracts {options : SurveyOptions} {objects : List SimObject}
    {test : Graph → Bool} (found : ((SimObject.withNames objects).toOption.bind fun forest =>
      (extract options forest ()).answer.toOption).any test = true) :
    ∃ forest g, SimObject.withNames objects = .ok forest ∧
      (extract options forest ()).answer = .ok g ∧ test g = true := by
  cases named : SimObject.withNames objects with
  | error e =>
    rw [named] at found
    cases found
  | ok forest =>
    rw [named, Except.toOption, Option.bind_some] at found
    cases extracted : (extract options forest ()).answer with
    | error e =>
      rw [extracted] at found
      cases found
    | ok g =>
      rw [extracted] at found
      exact ⟨forest, g, rfl, extracted, found⟩

end Schematic
