import Schematic.Proofs.Survey.Script
import Schematic.Snapshot.Builder

/-! Internal objects are not looked at. A survey does the same on a forest without them, entry by
entry of its log, as long as the same object is the root: of the objects at the top the survey
counts all that were reported, internal ones too, before it takes a single one for the root. -/

namespace Schematic

namespace SimObject

mutual

def pruned (marker : Text) : SimObject → SimObject
  | mk facts children faces => mk facts (prunedAll marker children) faces

def prunedAll (marker : Text) : List SimObject → List SimObject
  | [] => []
  | o :: os =>
    if o.facts.isMarked marker then prunedAll marker os
    else pruned marker o :: prunedAll marker os

end

variable {marker : Text}

@[simp] theorem facts_pruned (o : SimObject) : (pruned marker o).facts = o.facts := by
  cases o
  simp only [pruned, facts]

@[simp] theorem children_pruned (o : SimObject) :
    (pruned marker o).children = prunedAll marker o.children := by
  cases o
  simp only [pruned, children]

@[simp] theorem stems_pruned (o : SimObject) : (pruned marker o).stems = o.stems := by
  simp only [stems, facts_pruned]

@[simp] theorem shownType_pruned (o : SimObject) : (pruned marker o).shownType = o.shownType := by
  simp only [shownType, facts_pruned]

end SimObject

namespace Survey

open SimObject Schematic.Action

variable {rules : SurveyRules} {marker : Text}

mutual

theorem script_pruned (spelled : rules.marker = .text marker) (level : Nat) (o : SimObject) :
    script rules level (pruned marker o) = script rules level o := by
  match o with
  | .mk facts children faces =>
    simp only [pruned, script, scriptAmong_pruned spelled _ _ children]
    -- clocks and sockets do not look at what is inside the object
    rfl

theorem scriptAmong_pruned (spelled : rules.marker = .text marker) (level : Nat)
    (stems : List Text) (os : List SimObject) :
    scriptAmong rules level stems (prunedAll marker os) = scriptAmong rules level stems os := by
  match os with
  | [] => rfl
  | o :: os =>
    cases marked : o.facts.isMarked marker with
    | true =>
      obtain ⟨basename, text, starts⟩ := exists_of_isMarked marked
      have hidden : isHidden rules stems o.facts.basename = .ok true := by
        rw [isHidden_eq spelled stems text, starts, Bool.true_or]
      simp only [prunedAll, marked, if_true, scriptAmong, hidden]
      exact scriptAmong_pruned spelled level stems os
    | false =>
      simp only [prunedAll, marked, Bool.false_eq_true, if_false, scriptAmong, facts_pruned,
        stems_pruned, script_pruned spelled level o, scriptAmong_pruned spelled level _ os]

end

/-- Whether a forest and its remainder without internal objects have the same root: the forest has
one object at the top, or else the remainder has no single module there. -/
def KeepsRoot (marker : Text) (objects : List SimObject) : Prop :=
  objects.length = 1 ∨
    ∀ top, prunedAll marker objects = [top] → Kind.isModule top.facts.kind = .ok false

theorem singleRoot?_of_length {os : List SimObject} (several : os.length ≠ 1) :
    singleRoot? rules os = .ok none := by
  match os with
  | [] => rfl
  | [_] => exact absurd rfl several
  | _ :: _ :: _ => rfl

theorem singleRoot?_of_isModule {top : SimObject}
    (other : Kind.isModule top.facts.kind = .ok false) :
    singleRoot? rules [top] = .ok none := by
  simp [singleRoot?, other, bind, Except.bind, pure, Except.pure]

theorem singleRoot?_of_isMarked (spelled : rules.marker = .text marker) {top : SimObject}
    (kind : top.facts.kind.IsText) (marked : top.facts.isMarked marker = true) :
    singleRoot? rules [top] = .ok none := by
  obtain ⟨word, hk⟩ := kind
  obtain ⟨basename, text, starts⟩ := exists_of_isMarked marked
  simp [singleRoot?_eq spelled hk text, starts]

theorem singleRoot?_map_pruned (objects : List SimObject) :
    singleRoot? rules (objects.map (pruned marker)) =
      (singleRoot? rules objects).map (Option.map (pruned marker)) :=
  singleRoot?_map (fun o => by rw [facts_pruned]; exact ⟨rfl, rfl⟩) objects

theorem singleRoot?_prunedAll (spelled : rules.marker = .text marker) {objects : List SimObject}
    (kinds : ∀ o ∈ objects, o.facts.kind.IsText) (keeps : KeepsRoot marker objects) :
    singleRoot? rules (prunedAll marker objects) =
      (singleRoot? rules objects).map (Option.map (pruned marker)) := by
  by_cases single : objects.length = 1
  · obtain ⟨top, rfl⟩ := List.length_eq_one_iff.mp single
    cases marked : top.facts.isMarked marker with
    | true =>
      have none : prunedAll marker [top] = [] := by simp [prunedAll, marked]
      rw [none, singleRoot?_of_isMarked spelled (kinds top List.mem_cons_self) marked]
      rfl
    | false =>
      have kept : prunedAll marker [top] = [top].map (pruned marker) := by
        simp [prunedAll, marked]
      rw [kept, singleRoot?_map_pruned]
  · rw [singleRoot?_of_length single]
    have other := keeps.resolve_left single
    match left : prunedAll marker objects with
    | [] => rfl
    | [top] => exact singleRoot?_of_isModule (other top left)
    | _ :: _ :: _ => rfl

theorem scriptAmong_map_pruned (spelled : rules.marker = .text marker) (level : Nat)
    (stems : List Text) (os : List SimObject) :
    scriptAmong rules level stems (os.map (pruned marker)) = scriptAmong rules level stems os := by
  induction os generalizing stems with
  | nil => rfl
  | cons o os ih =>
    simp only [List.map_cons, scriptAmong, facts_pruned, stems_pruned, ih,
      script_pruned spelled level o]

/-- Two forests are surveyed alike if their single roots are, and their objects at the top have the
same script. -/
theorem surveyForest_congr {ignored : Value} {os os' : List SimObject}
    (root : ∀ rules : SurveyRules, rules.marker = .text marker →
      singleRoot? rules os' = (singleRoot? rules os).map (Option.map (pruned marker)))
    (scripts : ∀ rules : SurveyRules, rules.marker = .text marker →
      scriptAmong rules 1 [] os' = scriptAmong rules 1 [] os) :
    surveyForest ⟨.text marker, ignored⟩ os' = surveyForest ⟨.text marker, ignored⟩ os := by
  rw [surveyForest_eq, surveyForest_eq]
  cases ruled : SurveyOptions.rules ⟨.text marker, ignored⟩ with
  | error e => rfl
  | ok rules =>
    have spelled : rules.marker = .text marker := by
      simp only [SurveyOptions.rules] at ruled
      split at ruled
      · split at ruled
        · cases ruled
          rfl
        · cases ruled
      · cases ruled
    rw [of_ok_bind, of_ok_bind, root rules spelled]
    cases singleRoot? rules os with
    | error e => rfl
    | ok top? =>
      cases top? with
      | none =>
        have same : surveyRoot rules (standIn os') = surveyRoot rules (standIn os) := by
          simp only [surveyRoot, standIn, SimObject.children, scripts rules spelled]
          rfl
        exact congrArg (Action.note .debug .survey (headline none) >>= fun _ => ·) same
      | some top =>
        have same : surveyRoot rules (pruned marker top) = surveyRoot rules top := by
          simp only [surveyRoot, facts_pruned, shownType_pruned, children_pruned,
            scriptAmong_pruned spelled]
        have head : headline (some (pruned marker top)) = headline (some top) := by
          simp only [headline, facts_pruned]
        simp only [Except.map, Option.map_some, of_ok_bind, Option.getD_some, same, head]

end Survey

variable {σ : Type}

theorem surveyOf_congr {options : SurveyOptions} {os os' : List SimObject}
    (same : Survey.surveyForest options os' = Survey.surveyForest options os) :
    (surveyOf options os' : Action σ Survey) = surveyOf options os := by
  simp only [surveyOf, same]

/-- Internal objects below the top leave no trace in a survey, and none in its log. Those at the top
leave none either, unless without them a single module is left there, which is then the root. -/
theorem internal_objects_leave_no_trace (marker : Text) (ignored : Value) (objects : List SimObject)
    (kinds : ∀ o ∈ objects, o.facts.kind.IsText) :
    (surveyOf ⟨.text marker, ignored⟩ (objects.map (SimObject.pruned marker)) : Action σ Survey) =
        surveyOf ⟨.text marker, ignored⟩ objects ∧
      (Survey.KeepsRoot marker objects →
        (surveyOf ⟨.text marker, ignored⟩ (SimObject.prunedAll marker objects) : Action σ Survey) =
          surveyOf ⟨.text marker, ignored⟩ objects) := by
  constructor
  · apply surveyOf_congr
    apply Survey.surveyForest_congr
    · intro rules _
      exact Survey.singleRoot?_map_pruned objects
    · intro rules spelled
      exact Survey.scriptAmong_map_pruned spelled 1 [] objects
  · intro keeps
    apply surveyOf_congr
    apply Survey.surveyForest_congr
    · intro rules spelled
      exact Survey.singleRoot?_prunedAll spelled kinds keeps
    · intro rules spelled
      exact Survey.scriptAmong_pruned spelled 1 [] objects

/-- A module with an internal object inside, beside an internal object. -/
def watchedDesign : List SimObject :=
  [.module (.text "top") [.module (.text "$$$probe") [], .module (.text "core") []],
    .module (.text "$$$dumper") []]

theorem internal_objects_leave_no_trace_beside_bench :
    let objects := SimObject.module (.text "bench") [] :: watchedDesign
    (∀ o ∈ objects, o.facts.kind.IsText) ∧ Survey.KeepsRoot "$$$" objects ∧
      (surveyOf ⟨.text "$$$", .list []⟩ (SimObject.prunedAll "$$$" objects) : Action Unit Survey) =
        surveyOf ⟨.text "$$$", .list []⟩ objects := by
  intro objects
  have kinds : ∀ o ∈ objects, o.facts.kind.IsText := by
    simp only [objects, watchedDesign, List.forall_mem_cons]
    exact ⟨⟨_, rfl⟩, ⟨_, rfl⟩, ⟨_, rfl⟩, nofun⟩
  have two : (SimObject.prunedAll "$$$" objects).length = 2 := by decide +kernel
  have keeps : Survey.KeepsRoot "$$$" objects := by
    refine .inr fun top single => ?_
    rw [single] at two
    cases two
  exact ⟨kinds, keeps, (internal_objects_leave_no_trace "$$$" (.list []) objects kinds).2 keeps⟩

/-- An internal object beside the only module keeps it from being the root. -/
theorem internal_object_beside_root_shows :
    (surveyOf ⟨.text "$$$", .list []⟩ (SimObject.prunedAll "$$$" watchedDesign) ()).answer ≠
      (surveyOf ⟨.text "$$$", .list []⟩ watchedDesign ()).answer := by
  intro same
  have sizes := congrArg (fun r => r.toOption.map fun s : Survey => s.graph.components.length) same
  revert sizes
  decide +kernel

end Schematic
