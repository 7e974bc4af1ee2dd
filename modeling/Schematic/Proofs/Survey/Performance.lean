import Schematic.Proofs.PassThrough.History
import Schematic.Proofs.Survey.Script

/-! What comes of a script, and that this is what performing it adds to a survey. A script fails
where it halts or has to write a number that is too long; otherwise it yields ports and components
for the component where it is performed, and remarks. -/

namespace Schematic

namespace Survey

open SimObject Schematic.Action

/-- What comes of steps at a component: ports of it, components below it, and remarks. -/
structure Yield where
  ports : List Graph.PortFacts := []
  below : List Sketch := []
  remarks : List Remark := []

namespace Yield

def append (y z : Yield) : Yield :=
  ⟨y.ports ++ z.ports, y.below ++ z.below, y.remarks ++ z.remarks⟩

/-- What comes of some steps and then of others, unless one of them fails. -/
def join (r r' : Except Error Yield) : Except Error Yield := do
  let y ← r
  let z ← r'
  .ok (y.append z)

def ifWritten (written : Bool) (y : Yield) : Except Error Yield :=
  if written then .ok y else .error .tooLongToWrite

variable {r r' r'' : Except Error Yield} {y z : Yield} {p q : Bool}

@[simp] theorem append_empty (y : Yield) : y.append {} = y := by
  simp only [append, List.append_nil]

@[simp] theorem join_empty (r : Except Error Yield) : join r (.ok {}) = r := by
  cases r with
  | error e => rfl
  | ok y => exact congrArg Except.ok y.append_empty

@[simp] theorem empty_join (r : Except Error Yield) : join (.ok {}) r = r := by
  cases r <;> rfl

theorem join_assoc : join (join r r') r'' = join r (join r' r'') := by
  cases r with
  | error e => rfl
  | ok y =>
    cases r' with
    | error e => rfl
    | ok z =>
      cases r'' with
      | error e => rfl
      | ok x =>
        refine congrArg Except.ok ?_
        simp only [append, List.append_assoc]

theorem join_ifWritten :
    join (ifWritten p y) (ifWritten q z) = ifWritten (p && q) (y.append z) := by
  cases p <;> cases q <;> rfl

theorem map_ifWritten (f : Yield → Yield) : (ifWritten p y).map f = ifWritten p (f y) := by
  cases p <;> rfl

theorem join_eq_ok (joined : join r r' = .ok y) :
    ∃ a b, r = .ok a ∧ r' = .ok b ∧ y = a.append b := by
  cases r with
  | error e => cases joined
  | ok a =>
    cases r' with
    | error e => cases joined
    | ok b => exact ⟨a, b, rfl, rfl, (Except.ok.inj joined).symm⟩

theorem eq_of_ifWritten (written : ifWritten p y = .ok z) : z = y := by
  cases p with
  | false => cases written
  | true => exact (Except.ok.inj written).symm

end Yield

mutual

def Step.yield : Step → Except Error Yield
  | .note _ => .ok {}
  | .remark r => Yield.ifWritten r.isWritable { remarks := [r] }
  | .write v => Yield.ifWritten v.isWritable {}
  | .port facts => .ok { ports := [facts.kept] }
  | .unit label inside =>
    (yieldAll inside).map fun y => { below := [.unit label y.ports y.below], remarks := y.remarks }
  | .halt e => .error e

def yieldAll : List Step → Except Error Yield
  | [] => .ok {}
  | step :: steps => Yield.join step.yield (yieldAll steps)

end

section Scripts

open Yield

variable {kind : Value} {facts : ObjectFacts}

theorem yieldAll_append (xs ys : List Step) :
    yieldAll (xs ++ ys) = join (yieldAll xs) (yieldAll ys) := by
  induction xs with
  | nil => exact (empty_join _).symm
  | cons step xs ih => rw [List.cons_append, yieldAll, ih, yieldAll, join_assoc]

theorem yieldAll_singleton (step : Step) : yieldAll [step] = step.yield := join_empty _

theorem yieldAll_heading (level : Nat) (facts : ObjectFacts) (steps : List Step) :
    yieldAll (heading level facts :: steps) = yieldAll steps := empty_join _

theorem yieldAll_remarks (rs : List Remark) : yieldAll (rs.map .remark) =
    ifWritten (rs.all Remark.isWritable) { remarks := rs } := by
  induction rs with
  | nil => rfl
  | cons r rs ih => rw [List.map_cons, yieldAll, ih, Step.yield, join_ifWritten]; rfl

theorem kept_of_port? {f : Graph.PortFacts} (made : facts.port? kind = some f) : f.kept = f := by
  obtain ⟨direction, -, rfl⟩ := Option.map_eq_some_iff.mp made
  simp only [Graph.PortFacts.kept, Value.orElse_orElse]

theorem yieldAll_portScript : yieldAll (portScript kind facts) =
    ifWritten (facts.portRemarks.all Remark.isWritable)
      { ports := (facts.port? kind).toList, remarks := facts.portRemarks } := by
  rw [portScript, yieldAll_append, yieldAll_remarks]
  cases made : facts.port? kind with
  | none => exact join_empty _
  | some f =>
    rw [Option.toList_some, List.map_singleton, yieldAll_singleton, Step.yield, kept_of_port? made]
    exact (join_ifWritten (q := true)).trans (by simp [append])

theorem yieldAll_faces (faces : List SimObject) :
    yieldAll (faces.flatMap fun face => portScript kind face.facts) =
      ifWritten ((faces.flatMap fun face => face.facts.portRemarks).all Remark.isWritable)
        { ports := faces.filterMap fun face => face.facts.port? kind
          remarks := faces.flatMap fun face => face.facts.portRemarks } := by
  induction faces with
  | nil => rfl
  | cons face faces ih =>
    have ports : List.filterMap (fun face => face.facts.port? kind) (face :: faces) =
        (face.facts.port? kind).toList ++ faces.filterMap fun face => face.facts.port? kind := by
      rw [List.filterMap_cons]
      cases face.facts.port? kind <;> rfl
    rw [List.flatMap_cons, List.flatMap_cons, yieldAll_append, yieldAll_portScript, ih,
      join_ifWritten, List.all_append, ports]
    rfl

theorem yieldAll_clockScript : yieldAll (clockScript facts) =
    ifWritten (facts.name.isWritable && (facts.basename.isWritable &&
      facts.bindingRemarks.all Remark.isWritable))
      { ports := [facts.clockPort], remarks := facts.bindingRemarks } := by
  have kept : facts.clockPort.kept = facts.clockPort := by
    simp only [Graph.PortFacts.kept, ObjectFacts.clockPort, Value.orElse_orElse]
  have output : Step.yield (.port facts.clockPort) =
      ifWritten true { ports := [facts.clockPort] } := by
    rw [Step.yield, kept]
    rfl
  rw [clockScript, yieldAll, yieldAll, yieldAll_append, yieldAll_remarks, yieldAll_singleton,
    output, Step.yield, Step.yield, join_ifWritten, join_ifWritten, join_ifWritten, Bool.and_true]
  simp only [append, List.append_nil, List.nil_append]

def socketRemarks (o : SimObject) : List Remark :=
  (if o.faces.isEmpty then [.noFaces o.facts.name] else []) ++
    o.faces.flatMap fun face => face.facts.portRemarks

theorem yieldAll_socketScript (o : SimObject) : yieldAll (socketScript o) =
    join (ifWritten ((socketRemarks o).all Remark.isWritable)
        { ports := o.faces.filterMap fun face => face.facts.port? o.facts.kind
          remarks := socketRemarks o })
      ((basenameText o.facts.basename).map fun _ => {}) := by
  have bare : yieldAll (if o.faces.isEmpty then [.remark (.noFaces o.facts.name)] else []) =
      ifWritten ((if o.faces.isEmpty then [Remark.noFaces o.facts.name] else []).all
          Remark.isWritable)
        { remarks := if o.faces.isEmpty then [.noFaces o.facts.name] else [] } := by
    cases o.faces.isEmpty with
    | true => exact yieldAll_remarks [.noFaces o.facts.name]
    | false => rfl
  rw [socketScript, yieldAll_append, yieldAll_append, bare, yieldAll_faces, join_ifWritten,
    socketRemarks, List.all_append]
  cases basenameText o.facts.basename <;> rfl

end Scripts

/-- A survey and a later state of it: what was added at a component, and what was reported. -/
structure Adds (s s' : Survey) (current : ComponentKey) (y : Yield) : Prop where
  gains : s.graph.Gains s'.graph current y.ports y.below
  warnings : s'.warnings = s.warnings ++ y.remarks.map Remark.text

variable {s s' s'' : Survey} {current : ComponentKey} {y z : Yield}

namespace Adds

theorem refl (built : s.graph.IsBuilt) (current : ComponentKey) : s.Adds s current {} :=
  ⟨.refl built current, (List.append_nil _).symm⟩

theorem trans (first : s.Adds s' current y) (next : s'.Adds s'' current z)
    (here : current ∈ s.graph.roster) : s.Adds s'' current (y.append z) where
  gains := first.gains.trans next.gains here
  warnings := by
    rw [next.warnings, first.warnings, Yield.append, List.map_append, List.append_assoc]

theorem stays (first : s.Adds s' current y) (here : current ∈ s.graph.roster) :
    current ∈ s'.graph.roster :=
  first.gains.roster_subset here

end Adds

/-- An action and what is to come of it: it fails as that fails, or it answers and leaves a survey
for which that holds. -/
structure Renders (act : Action Survey Unit) (s : Survey) (r : Except Error Yield)
    (post : Yield → Survey → Prop) : Prop where
  answer : (act s).answer = r.map fun _ => ()
  state : ∀ y, r = .ok y → post y (act s).state

namespace Renders

variable {act next : Action Survey Unit} {r r' : Except Error Yield} {p : Bool} {need : Prop}
  {post post' : Yield → Survey → Prop}

theorem of_needs (needs : act.Needs s (p = true) fun _ => post y) :
    Renders act s (Yield.ifWritten p y) post := by
  cases p with
  | false => exact ⟨needs.fails Bool.false_ne_true, nofun⟩
  | true =>
    obtain ⟨_, answered, done⟩ := needs.answers rfl
    refine ⟨answered, fun z made => ?_⟩
    cases made
    exact done

/-- What the action needs in order to succeed, if that comes to what has to be written. -/
theorem needs (renders : Renders act s r post) (written : r = Yield.ifWritten p y)
    (same : p = true ↔ need) : act.Needs s need fun _ => post y := by
  subst written
  obtain ⟨answer, state⟩ := renders
  constructor
  · intro holds
    obtain rfl : p = true := same.mpr holds
    exact ⟨(), answer, state y rfl⟩
  · intro misses
    obtain rfl : p = false := Bool.eq_false_iff.mpr (mt same.mp misses)
    exact answer

theorem ends (renders : Renders act s r post) :
    act.Ends s fun _ s' => ∃ y, r = .ok y ∧ post y s' := by
  obtain ⟨answer, state⟩ := renders
  intro _ answered
  cases r with
  | error e => cases answer.symm.trans answered
  | ok y => exact ⟨y, rfl, state y rfl⟩

theorem bind (first : Renders act s r post) {goal : Yield → Survey → Prop}
    (later : ∀ s' y, post y s' → Renders next s' r' fun z => goal (y.append z)) :
    Renders (act >>= fun _ => next) s (Yield.join r r') goal := by
  obtain ⟨answer, state⟩ := first
  have run : act s = ⟨(act s).answer, (act s).state, (act s).log⟩ := rfl
  rw [answer] at run
  cases r with
  | error e => exact ⟨congrArg Outcome.answer (bind_apply_error run), nofun⟩
  | ok y =>
    obtain ⟨answer', state'⟩ := later _ y (state y rfl)
    constructor
    · rw [bind_apply_ok run, answer']
      cases r' <;> rfl
    · intro z joined
      obtain ⟨_, z', same, made, rfl⟩ := Yield.join_eq_ok joined
      cases same
      rw [bind_apply_ok run]
      exact state' z' made

end Renders

theorem needs_warn (current : ComponentKey) (r : Remark) (built : s.graph.IsBuilt) :
    (warn r.text).Needs s True fun _ s' => s.Adds s' current { remarks := [r] } := by
  refine needs_change.andThen fun _ s' kept => needs_note.weaken fun _ _ noted => ?_
  subst noted kept
  exact ⟨.refl built current, rfl⟩

/-- What comes of steps inside a component that has just been added. -/
theorem renders_addComponent (label : Label) {inside : List Step} {parent : Option ComponentKey}
    {next : ComponentKey → Action Survey Unit} {f : Yield → Yield}
    {post goal : Yield → Survey → Prop} (built : s.graph.IsBuilt) (host : s.graph.CanHost parent)
    (more : ∀ y s', post y s' → goal (f y) s')
    (inner : Renders (next s.graph.freshComponent) { s with graph :=
      (s.graph.insertComponent label.name label.basename label.typeName parent).2 }
      (yieldAll inside) post) :
    Renders
      (onGraph (Graph.addComponent label.name label.basename label.typeName parent) >>= next) s
      ((yieldAll inside).map f) goal := by
  obtain ⟨log, added⟩ := Graph.addComponent_granted built.coherent host label.name label.basename
    label.typeName
  have run : onGraph (Graph.addComponent label.name label.basename label.typeName parent) s =
      ⟨.ok s.graph.freshComponent, { s with graph :=
        (s.graph.insertComponent label.name label.basename label.typeName parent).2 }, log⟩ := by
    rw [onGraph, Action.within, added]
  obtain ⟨answer, state⟩ := inner
  constructor
  · rw [bind_apply_ok run, answer]
    cases yieldAll inside <;> rfl
  · intro y made
    rw [bind_apply_ok run]
    cases found : yieldAll inside with
    | error e =>
      rw [found] at made
      cases made
    | ok z =>
      rw [found] at made
      cases made
      exact more z _ (state z found)

mutual

/-- Performing a step fails as its yield does, or adds its yield. -/
theorem renders_perform : ∀ (step : Step) (s : Survey) (current : ComponentKey),
    s.graph.IsBuilt → current ∈ s.graph.roster →
      Renders (step.perform current) s step.yield fun y s' => s.Adds s' current y
  | .note head, s, current, built, _ => by
    rw [Step.perform, Step.yield]
    exact ⟨rfl, fun y made => by cases made; exact .refl built current⟩
  | .remark r, s, current, built, _ => by
    rw [perform_remark, Step.yield]
    refine .of_needs ?_
    cases r.isWritable with
    | true => exact (needs_warn current r built).congr (iff_of_true trivial rfl)
    | false => exact ⟨nofun, fun _ => rfl⟩
  | .write v, s, current, built, _ => by
    have kept : s.Adds s current {} := .refl built current
    rw [Step.perform, Step.yield]
    refine .of_needs (Needs.congr (.written ?_) (iff_of_eq (and_true _)))
    exact needs_pure kept
  | .port facts, s, current, built, here => by
    have added := Graph.addPort_granted built.coherent here facts
    rw [Step.perform, Step.yield]
    refine ⟨?_, fun y made => ?_⟩
    · rw [onGraph, bind_apply, Action.within, added]
      rfl
    · cases made
      rw [onGraph, bind_apply, Action.within, added]
      exact ⟨.insertPort built here facts, (List.append_nil _).symm⟩
  | .unit label inside, s, current, built, here => by
    have host : s.graph.CanHost (some current) := here
    rw [Step.perform, Step.yield]
    refine renders_addComponent label built host (fun y => ?_) (renders_performAll inside _ _
      (.component _ _ _ built host) (Graph.Gains.fresh_mem ..))
    exact fun s' adds => ⟨.nest built here adds.gains, adds.warnings⟩
  | .halt e, _, _, _, _ => by
    rw [Step.perform, Step.yield]
    exact ⟨rfl, nofun⟩

theorem renders_performAll : ∀ (steps : List Step) (s : Survey) (current : ComponentKey),
    s.graph.IsBuilt → current ∈ s.graph.roster →
      Renders (performAll current steps) s (yieldAll steps) fun y s' => s.Adds s' current y
  | [], s, current, built, _ => ⟨rfl, fun y made => by cases made; exact .refl built current⟩
  | step :: steps, s, current, built, here => by
    rw [performAll, yieldAll]
    refine (renders_perform step s current built here).bind fun s' y added => ?_
    obtain ⟨answer, state⟩ := renders_performAll steps s' current added.gains.built
      (added.stays here)
    exact ⟨answer, fun z made => added.trans (state z made) here⟩

end

/-- A survey that was drawn from a root: a tree with the root and what came of the steps inside it,
which a walk meets in the order in which it was made, and the remarks. -/
structure IsDrawn (label : Label) (y : Yield) (s : Survey) : Prop where
  built : s.graph.IsBuilt
  tree : s.graph.outline.map s.graph.sketch = some (.unit label y.ports y.below)
  order : s.graph.components = s.graph.roster
  warnings : s.warnings = y.remarks.map Remark.text

theorem renders_surveyRoot (rules : SurveyRules) (top : SimObject) :
    Renders (surveyRoot rules top) {} (yieldAll (scriptAmong rules 1 [] top.children))
      (IsDrawn top.label) := by
  have host : Graph.CanHost {} none := rfl
  have built := Graph.IsBuilt.component top.facts.name top.facts.basename top.shownType .empty host
  have same : (yieldAll (scriptAmong rules 1 [] top.children)).map id = _ :=
    id_map (yieldAll (scriptAmong rules 1 [] top.children))
  rw [← same]
  refine renders_addComponent top.label .empty host (fun _ _ drawn => drawn) ?_
  rw [← Yield.join_empty (yieldAll _)]
  refine (renders_performAll _ _ _ built (Graph.Gains.fresh_mem ..)).bind fun s y added => ?_
  refine ⟨rfl, fun z made => ?_⟩
  cases made
  rw [Yield.append_empty]
  have whole := added.gains.whole
  exact ⟨added.gains.built, whole.1, whole.2, added.warnings⟩

/-- What a survey of a forest is to come to. -/
theorem renders_surveyForest {options : SurveyOptions} {objects : List SimObject}
    {rules : SurveyRules} {top? : Option SimObject} (ruled : options.rules = .ok rules)
    (found : singleRoot? rules objects = .ok top?) :
    Renders (surveyForest options objects) {}
      (yieldAll (scriptAmong rules 1 [] (top?.getD (standIn objects)).children))
      (IsDrawn (top?.getD (standIn objects)).label) := by
  obtain ⟨answer, state⟩ := renders_surveyRoot rules (top?.getD (standIn objects))
  have run : surveyForest options objects {} =
      (Action.note .debug .survey (headline top?) >>= fun _ =>
        surveyRoot rules (top?.getD (standIn objects))) {} := by
    rw [surveyForest_eq, ruled, of_ok_bind, found, of_ok_bind]
  constructor
  · rw [run]
    exact answer
  · intro y made
    rw [run]
    exact state y made

end Survey

end Schematic
