import Schematic.Proofs.Survey.Performance
import Schematic.Snapshot.Builder

/-! A survey carries out its plan: it makes the planned tree and the planned remarks, in their
order, and fails only where it has to write a number that is too long. -/

namespace Schematic

open SimObject

def ObjectFacts.IsNamed (facts : ObjectFacts) : Prop := facts.basename.IsText ∧ facts.kind.IsText

/-- Whether the role of an object can be told: it reports a text as its basename, and as its kind a
text or anything that tables can be asked for. Unless the nameless kind is to be passed over, a kind
that is no text is an unknown one. -/
structure ObjectFacts.IsSortable (ignored : List Text) (facts : ObjectFacts) : Prop where
  basename : facts.basename.IsText
  kind : facts.kind.IsText ∨ facts.kind.isHashable = true ∧ Text.empty ∉ ignored

theorem ObjectFacts.IsNamed.isSortable {facts : ObjectFacts} (named : facts.IsNamed)
    (ignored : List Text) : facts.IsSortable ignored := ⟨named.1, .inl named.2⟩

theorem Value.isAmong_texts {v : Value} {t : Text} (text : v.text? = some t) (words : List Text) :
    v.isAmong (words.map .text) = decide (t ∈ words) := by
  have same (w : Text) : (Value.text w).same v = (w == t) := by
    cases v with
    | text s => cases text; simp only [Value.same]
    | direction d => cases text; simp only [Value.same]
    | _ => cases text
  unfold Value.isAmong
  rw [List.any_map, Bool.eq_iff_iff, List.any_eq_true, decide_eq_true_eq]
  simp [same]

theorem Value.isAmong_texts_of_other {v : Value} (other : v.text? = none) (words : List Text) :
    v.isAmong (words.map .text) = false := by
  have apart (w : Text) : (Value.text w).same v = false := by
    cases v with
    | text s => cases other
    | direction d => cases other
    | _ => simp only [Value.same, Value.sameWorth, Value.worth?]
  unfold Value.isAmong
  rw [List.any_map, List.any_eq_false]
  simp [apart]

namespace Survey

variable {s s' s'' : Survey} {current : ComponentKey} {level : Nat} {facts : ObjectFacts}
  {kind : Value} {ignored : List Text} {rules : SurveyRules} {marker : Text}

structure GoesBy (rules : SurveyRules) (marker : Text) (ignored : List Text) : Prop where
  marker : rules.marker = .text marker
  ignored : rules.ignored = (Kind.bookkeeping ++ ignored).map .text

theorem GoesBy.classify (spelled : GoesBy rules marker ignored)
    (sorted : facts.IsSortable ignored) :
    Kind.classify rules.isIgnored facts.kind = .ok (facts.role ignored) := by
  cases found : facts.kind.text? with
  | some kind =>
    have word : facts.kindText = kind := by rw [ObjectFacts.kindText, found]; rfl
    have passed : rules.isIgnored facts.kind =
        .ok (decide (kind ∈ Kind.bookkeeping ++ ignored)) := by
      rw [SurveyRules.isIgnored, spelled.ignored, Value.isAmong_texts found]
    rw [Kind.classify, if_pos (Value.IsText.isHashable ⟨kind, found⟩), ObjectFacts.role, word,
      found, Option.bind_some, passed]
    cases Kind.shownRole? kind with
    | some role => rfl
    | none => simp only [Except.map, decide_eq_true_eq]
  | none =>
    obtain ⟨kind, text⟩ | ⟨key, nameless⟩ := sorted.kind
    · cases found.symm.trans text
    · have word : facts.kindText = .empty := by rw [ObjectFacts.kindText, found]; rfl
      have passed : rules.isIgnored facts.kind = .ok false := by
        rw [SurveyRules.isIgnored, spelled.ignored, Value.isAmong_texts_of_other found]
      have shown : Kind.shownRole? .empty = none := by decide
      have listed : Text.empty ∉ Kind.bookkeeping ++ ignored := by
        rw [List.mem_append, not_or]
        exact ⟨by decide, nameless⟩
      rw [Kind.classify, if_pos key, found, Option.bind_none, passed, ObjectFacts.role, word, shown]
      exact congrArg Except.ok (if_neg listed).symm

theorem isHelper_stems {seen : List SimObject} {o : SimObject} :
    isHelper (seen.flatMap stems) o.facts.basenameText = seen.any fun s => s.hides o := by
  have proper (stem basename : Text) :
      (decide (stem.length < basename.length) && basename.startsWith stem) =
        (basename.startsWith stem && basename != stem) := by
    rw [Bool.eq_iff_iff]
    simp only [Bool.and_eq_true, decide_eq_true_eq, bne_iff_ne]
    constructor
    · rintro ⟨shorter, start⟩
      exact ⟨start, fun same => by simp [same] at shorter⟩
    · rintro ⟨start, other⟩
      have prefixed : stem.points <+: basename.points := List.isPrefixOf_iff_prefix.mp start
      have apart : stem.length ≠ basename.length := fun same =>
        other (Text.ext (prefixed.eq_of_length same).symm)
      exact ⟨lt_of_le_of_ne prefixed.length_le apart, start⟩
  simp only [isHelper, proper, List.any_flatMap, hides]

/-- Objects are hidden by the rules as the plan says. -/
theorem GoesBy.isHidden (spelled : GoesBy rules marker ignored) (seen : List SimObject)
    {o : SimObject} (text : o.facts.basename.IsText) :
    isHidden rules (seen.flatMap stems) o.facts.basename =
      .ok (o.facts.isMarked marker || seen.any fun s => s.hides o) := by
  obtain ⟨basename, text⟩ := text
  have word : o.facts.basenameText = basename := by rw [ObjectFacts.basenameText, text]; rfl
  rw [isHidden_eq spelled.marker _ text, isMarked_eq text, ← isHelper_stems, word]

theorem isTellable_iff {o : SimObject} : o.isTellable ignored = true ↔
    (o.facts.role ignored = .clock → o.facts.name.isWritable = true) ∧
      ∀ r ∈ o.remarks ignored, r.isWritable = true := by
  simp only [isTellable, Bool.and_eq_true, List.all_eq_true, Bool.or_eq_true, bne_iff_ne,
    and_comm, ← imp_iff_not_or]

theorem isTellable_of_role {o : SimObject} (other : o.facts.role ignored ≠ .clock) :
    o.isTellable ignored = (o.remarks ignored).all Remark.isWritable := by
  rw [isTellable, bne_iff_ne.mpr other, Bool.true_or, Bool.and_true]

/-- What a survey is to make of an object that it looks at, and of all inside it. -/
def planned (ignored : List Text) (o : SimObject) : Yield where
  ports := o.portsMade ignored
  below := units ignored o
  remarks := (visits ignored o).flatMap (remarks ignored)

def plannedAmong (ignored : List Text) (os : List SimObject) : Yield where
  ports := os.flatMap (portsMade ignored)
  below := unitsAmong ignored os
  remarks := (visitsAmong ignored os).flatMap (remarks ignored)

mutual

theorem yieldAll_script (spelled : GoesBy rules marker ignored) :
    ∀ (o : SimObject) (level : Nat), (∀ f ∈ o.reports, f.IsSortable ignored) →
      yieldAll (script rules level o) =
        Yield.ifWritten ((visits ignored (visible marker o)).all (isTellable ignored))
          (planned ignored (visible marker o))
  | .mk facts children faces, level, texts => by
    rw [SimObject.reports, List.forall_mem_cons, List.forall_mem_append] at texts
    obtain ⟨sorted, -, inner⟩ := texts
    rw [script, spelled.classify sorted, yieldAll_heading, visible, planned, units, visits,
      List.all_cons, List.flatMap_cons]
    have told (other : facts.role ignored ≠ .clock) :=
      isTellable_of_role (o := .mk facts (visibleAmong marker [] children) faces) other
    -- what is not a clock can always be told
    cases role : facts.role ignored with
    | module =>
      have inside : yieldAll (scriptAmong rules (level + 1) [] children) = _ :=
        yieldAll_scriptAmong spelled children (level + 1) [] inner
      rw [told (role ▸ by decide)]
      simp only [remarks, portsMade, SimObject.facts, role, yieldAll_singleton, Step.yield, inside,
        Yield.map_ifWritten]
      rfl
    | clock =>
      have basename : facts.basename.isWritable = true := sorted.basename.isWritable
      simp only [isTellable, remarks, portsMade, SimObject.facts, role, yieldAll_singleton,
        Step.yield, yieldAll_clockScript, Yield.map_ifWritten, basename, Bool.true_and,
        bne_self_eq_false, Bool.false_or, List.all_nil, Bool.and_true, List.flatMap_nil,
        List.append_nil]
      rw [Bool.and_comm]
      rfl
    | port =>
      rw [told (role ▸ by decide)]
      simp only [remarks, portsMade, SimObject.facts, role, yieldAll_portScript, List.all_nil,
        Bool.and_true, List.flatMap_nil, List.append_nil]
    | socket =>
      rw [told (role ▸ by decide)]
      simp only [List.all_nil, Bool.and_true, List.flatMap_nil, List.append_nil]
      obtain ⟨basename, text⟩ := sorted.basename
      rw [yieldAll_socketScript, SimObject.facts, basenameText_eq text, Except.map,
        Yield.join_empty, remarks, portsMade]
      simp only [SimObject.facts, role]
      rfl
    | bookkeeping =>
      rw [told (role ▸ by decide)]
      simp only [remarks, portsMade, SimObject.facts, role]
      rfl
    | unknown =>
      rw [told (role ▸ by decide)]
      simp only [remarks, portsMade, SimObject.facts, role, yieldAll_singleton, Step.yield,
        List.all_cons, List.all_nil, Bool.and_true, List.flatMap_nil, List.append_nil]

theorem yieldAll_scriptAmong (spelled : GoesBy rules marker ignored) :
    ∀ (os : List SimObject) (level : Nat) (seen : List SimObject),
      (∀ f ∈ SimObject.reportsAmong os, f.IsSortable ignored) →
      yieldAll (scriptAmong rules level (seen.flatMap stems) os) =
        Yield.ifWritten
          ((visitsAmong ignored (visibleAmong marker seen os)).all (isTellable ignored))
          (plannedAmong ignored (visibleAmong marker seen os))
  | [], _, _, _ => rfl
  | o :: os, level, seen, texts => by
    rw [SimObject.reportsAmong, List.forall_mem_append] at texts
    have sorted : o.facts.IsSortable ignored := by
      cases o
      exact texts.1 _ List.mem_cons_self
    rw [scriptAmong, visibleAmong, spelled.isHidden seen sorted.basename]
    cases o.facts.isMarked marker || seen.any fun s => s.hides o with
    | true => exact yieldAll_scriptAmong spelled os level seen texts.2
    | false =>
      have rest := yieldAll_scriptAmong spelled os level (seen ++ [o]) texts.2
      rw [List.flatMap_append, List.flatMap_singleton] at rest
      dsimp only
      rw [yieldAll_append, yieldAll_script spelled o level texts.1, rest, Yield.join_ifWritten]
      simp only [Bool.false_eq_true, if_false, visitsAmong, List.all_append, plannedAmong, planned,
        Yield.append, unitsAmong, List.flatMap_cons, List.flatMap_append]

end

theorem exists_rootOf (spelled : rules.marker = .text marker) {objects : List SimObject}
    (texts : ∀ f ∈ reportsAmong objects, f.IsSortable ignored) :
    ∃ top?, singleRoot? rules objects = .ok top? ∧
      top?.getD (standIn objects) = rootOf marker objects := by
  match objects with
  | [] => exact ⟨none, rfl, rfl⟩
  | [top] =>
    have sorted : top.facts.IsSortable ignored := by
      cases top
      exact texts _ List.mem_cons_self
    obtain ⟨basename, text⟩ := sorted.basename
    cases hk : top.facts.kind.text? with
    | some kind =>
      have word : top.facts.kindText = kind := by rw [ObjectFacts.kindText, hk]; rfl
      refine ⟨_, singleRoot?_eq spelled hk text, ?_⟩
      rw [rootOf, word, isMarked_eq text]
      cases Kind.modules.contains kind && !basename.startsWith marker <;> rfl
    | none =>
      obtain ⟨kind, found⟩ | ⟨key, -⟩ := sorted.kind
      · cases hk.symm.trans found
      · have other : Kind.isModule top.facts.kind = .ok false := by
          rw [Kind.isModule, hk, key]
          rfl
        have word : top.facts.kindText = .empty := by rw [ObjectFacts.kindText, hk]; rfl
        have unlisted : Kind.modules.contains .empty = false := by decide
        refine ⟨none, ?_, ?_⟩
        · rw [singleRoot?, other]
          rfl
        · rw [rootOf, word, unlisted]
          rfl
  | _ :: _ :: _ => exact ⟨none, rfl, rfl⟩

theorem reports_rootOf {objects : List SimObject} {p : ObjectFacts → Prop}
    (all : ∀ f ∈ reportsAmong objects, p f) :
    ∀ f ∈ reportsAmong (rootOf marker objects).children, p f := by
  unfold rootOf
  split
  · next top =>
    split
    · cases top
      simp only [reportsAmong, reports, List.append_nil, List.forall_mem_cons,
        List.forall_mem_append] at all
      exact all.2.2
    · exact all
  · exact all

/-- A survey as it should be: the planned tree, of which the components are met in the order in
which they were made, and the planned remarks. -/
structure FollowsPlan (marker : Text) (ignored : List Text) (objects : List SimObject)
    (s : Survey) : Prop where
  built : s.graph.IsBuilt
  tree : s.graph.outline.map s.graph.sketch = some (plan ignored marker objects)
  order : s.graph.components = s.graph.roster
  warnings :
    s.warnings = ((visited ignored marker objects).flatMap (remarks ignored)).map Remark.text

theorem follows_surveyForest {options : SurveyOptions} (ruled : options.rules = .ok rules)
    (spelled : GoesBy rules marker ignored) {objects : List SimObject}
    (texts : ∀ f ∈ reportsAmong objects, f.IsSortable ignored) :
    (surveyForest options objects).Needs {}
      (∀ o ∈ visited ignored marker objects, o.isTellable ignored = true)
      fun _ s => FollowsPlan marker ignored objects s := by
  obtain ⟨top?, found, root⟩ := exists_rootOf spelled.marker texts
  have written : yieldAll (scriptAmong rules 1 [] (rootOf marker objects).children) = _ :=
    yieldAll_scriptAmong spelled _ 1 [] (reports_rootOf texts)
  have renders := renders_surveyForest ruled found
  rw [root] at renders
  refine (renders.needs written List.all_eq_true).weaken fun _ s drawn => ?_
  exact ⟨drawn.built, drawn.tree, drawn.order, drawn.warnings⟩

theorem FollowsPlan.entries {objects : List SimObject}
    (follows : FollowsPlan marker ignored objects s) :
    s.graph.components.map s.graph.entry = rootEntry ignored marker objects ::
      ((visited ignored marker objects).filter (isUnit ignored)).map (entry ignored) := by
  obtain ⟨o, outlined, drawn⟩ := Option.map_eq_some_iff.mp follows.tree
  have met : s.graph.components = o.preorder := by rw [Graph.components, outlined]
  rw [met, ← Graph.entries_sketch, drawn, entries_plan]

end Survey

variable {σ : Type}

theorem follows_surveyOf (objects : List SimObject) (marker : Text) (ignored : List Text)
    (texts : ∀ f ∈ reportsAmong objects, f.IsSortable ignored) (s : σ) :
    (surveyOf ⟨.text marker, .list (ignored.map .text)⟩ objects).Needs s
      (∀ o ∈ visited ignored marker objects, o.isTellable ignored = true)
      fun survey _ => Survey.FollowsPlan marker ignored objects survey := by
  have spelled : Survey.GoesBy ⟨.text marker, Kind.bookkeeping.map .text ++ ignored.map .text⟩
      marker ignored := ⟨rfl, List.map_append.symm⟩
  have ruled := rules_of_texts marker ignored
  have surveyed := (Survey.follows_surveyForest ruled spelled texts).apart s
  exact (surveyed.bind fun _ _ follows => Action.needs_pure follows).congr (iff_of_eq (and_true _))

/-- A survey of objects with texts as basenames and kinds makes the planned tree: below the root
there are the visible modules and clocks, each where it was found. The walk over it meets them in
the order of the objects, each with the planned ports. The warnings are the planned remarks. It
fails exactly if something that it has to write for a remark or for the name of a clock's output is
a number that is too long. -/
theorem surveys_follow_plan (objects : List SimObject) (marker : Text) (ignored : List Text)
    (texts : ∀ f ∈ reportsAmong objects, f.IsNamed) (s : σ) :
    (surveyOf ⟨.text marker, .list (ignored.map .text)⟩ objects).Needs s
      (∀ o ∈ visited ignored marker objects, o.isTellable ignored = true) fun survey _ =>
        survey.graph.outline.map survey.graph.sketch = some (plan ignored marker objects) ∧
          survey.graph.components.map survey.graph.entry = rootEntry ignored marker objects ::
            ((visited ignored marker objects).filter (isUnit ignored)).map (entry ignored) ∧
          survey.warnings =
            ((visited ignored marker objects).flatMap (remarks ignored)).map Remark.text := by
  have sorted : ∀ f ∈ reportsAmong objects, f.IsSortable ignored := fun f hf =>
    (texts f hf).isSortable ignored
  apply (follows_surveyOf objects marker ignored sorted s).weaken
  intro survey _ follows
  exact ⟨follows.tree, follows.entries, follows.warnings⟩

/-- A socket with a face and its helper, between two ports of which one cannot be bound and the
other has no direction, and an object of an unknown kind. -/
def capturedSocket : List SimObject :=
  [.module (.text "top")
    [.port (.text "a") (.text "sc_in") (.text "INPUT") (.list []),
      .mk { basename := .text "s", kind := .text "tlm_target_socket" } []
        [.port (.text "f") (.text "") (.text "output")],
      .leaf (.text "s_port") (.text "probe"),
      .port (.text "s_port_0") (.text "sc_in") (.text "input"),
      .port (.text "b") (.text "sc_in") (.int 3)]]

theorem surveys_follow_plan_at_socket :
    (∀ f ∈ reportsAmong capturedSocket, f.IsNamed) ∧
      ∃ survey, (surveyOf ⟨.text "$$$", .list []⟩ capturedSocket ()).answer = .ok survey ∧
        survey.graph.outline.map survey.graph.sketch = some (plan [] "$$$" capturedSocket) ∧
        survey.warnings = ["port  has unhashable bound identity, treated as unbound",
          "object not known (probe)", "port  has invalid direction '3', skipped"] := by
  have texts : ∀ f ∈ reportsAmong capturedSocket, f.IsNamed := by
    simp only [capturedSocket, reportsAmong, SimObject.module, SimObject.port, SimObject.leaf,
      SimObject.ofFacts, reports, List.map_cons, List.map_nil, SimObject.facts, List.nil_append,
      List.append_nil, List.cons_append, List.forall_mem_cons, List.not_mem_nil, false_implies,
      implies_true, and_true]
    and_intros <;> exact ⟨_, rfl⟩
  refine ⟨texts, ?_⟩
  have tellable : (visited [] "$$$" capturedSocket).all (isTellable []) = true := by
    decide +kernel
  have told : ((visited [] "$$$" capturedSocket).flatMap (remarks [])).map Remark.text =
      ["port  has unhashable bound identity, treated as unbound", "object not known (probe)",
        "port  has invalid direction '3', skipped"] := by
    decide +kernel
  obtain ⟨survey, found, tree, -, warnings⟩ :=
    (surveys_follow_plan capturedSocket "$$$" [] texts ()).answers (List.all_eq_true.mp tellable)
  exact ⟨survey, found, tree, warnings.trans told⟩

end Schematic
