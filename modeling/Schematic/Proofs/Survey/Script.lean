import Schematic.Proofs.Survey.Plan

/-! A survey as a list of steps. What a survey does depends on its rules and on what the objects
report, and on nothing that it meets on the way, so it can be written down before: the script of an
object. A survey performs the scripts of the objects. What is proved of surveys is proved of
scripts, one kind of step at a time, and of the scripts that objects have. -/

namespace Schematic

theorem Value.orElse_orElse (v w : Value) : (v.orElse w).orElse w = v.orElse w := by
  unfold Value.orElse
  split <;> simp_all

/-- The text of a remark, unless a number in it is too long to be written. -/
def Remark.written (r : Remark) : Except Error Text :=
  if r.isWritable then .ok r.text else .error .tooLongToWrite

namespace Survey

open SimObject Schematic.Action

/-- What a survey does inside a component. A new component comes with the steps inside it. -/
inductive Step where
  | note (head : Text)
  | remark (r : Remark)
  | write (v : Value)
  | port (facts : Graph.PortFacts)
  | unit (label : Label) (inside : List Step)
  | halt (e : Error)

mutual

def Step.perform (current : ComponentKey) : Step → Action Survey Unit
  | .note head => do
    let s ← Action.state
    .note .debug .survey (head ++ toString (s.graph.lastId + 1))
  | .remark r => do
    let text ← .of r.written
    warn text
  | .write v => do
    let _ ← .of v.written
  | .port facts => do
    let _ ← onGraph (Graph.addPort current facts)
  | .unit label inside => do
    let key ← onGraph (Graph.addComponent label.name label.basename label.typeName (some current))
    performAll key inside
  | .halt e => .of (.error e)

def performAll (current : ComponentKey) : List Step → Action Survey Unit
  | [] => pure ()
  | step :: steps => do
    step.perform current
    performAll current steps

end

def portScript (kind : Value) (facts : ObjectFacts) : List Step :=
  facts.portRemarks.map .remark ++ (facts.port? kind).toList.map .port

def clockScript (facts : ObjectFacts) : List Step :=
  .write facts.name :: .write facts.basename ::
    (facts.bindingRemarks.map .remark ++ [.port facts.clockPort])

/-- The steps for a socket. Its name is looked at last, for the objects that implement it. -/
def socketScript (o : SimObject) : List Step :=
  (if o.faces.isEmpty then [.remark (.noFaces o.facts.name)] else []) ++
    (o.faces.flatMap fun face => portScript o.facts.kind face.facts) ++
      match basenameText o.facts.basename with
      | .ok _ => []
      | .error e => [.halt e]

def heading (level : Nat) (facts : ObjectFacts) : Step :=
  .note (Text.blanks (4 * level) ++ facts.name.plain ++ "(" ++ facts.kind.plain ++ "), id=")

mutual

def script (rules : SurveyRules) (level : Nat) : SimObject → List Step
  | .mk facts children faces =>
    heading level facts ::
      match Kind.classify rules.isIgnored facts.kind with
      | .ok .module =>
        [.unit (SimObject.mk facts children faces).label
          (scriptAmong rules (level + 1) [] children)]
      | .ok .clock => [.unit (SimObject.mk facts children faces).label (clockScript facts)]
      | .ok .port => portScript facts.kind facts
      | .ok .socket => socketScript (.mk facts children faces)
      | .ok .bookkeeping => []
      | .ok .unknown => [.remark (.unknownKind facts.kind)]
      | .error e => [.halt e]

/-- The steps for siblings, of which those that implement a socket begin with one of its stems. -/
def scriptAmong (rules : SurveyRules) (level : Nat) (stems : List Text) :
    List SimObject → List Step
  | [] => []
  | o :: os =>
    match isHidden rules stems o.facts.basename with
    | .ok true => scriptAmong rules level stems os
    | .ok false => script rules level o ++ scriptAmong rules level (stems ++ o.stems) os
    | .error e => [.halt e]

end

variable {rules : SurveyRules} {current : ComponentKey} {level : Nat} {kind : Value}
  {facts : ObjectFacts} {o : SimObject} {stems : List Text}

theorem performAll_append (xs ys : List Step) : performAll current (xs ++ ys) =
    (performAll current xs >>= fun _ => performAll current ys) := by
  induction xs with
  | nil => rfl
  | cons step xs ih => rw [List.cons_append, performAll, ih, performAll, andThen_assoc]

theorem performAll_singleton (step : Step) : performAll current [step] = step.perform current := by
  rw [performAll, performAll]
  exact andThen_pure _

theorem written_bind {σ α : Type} (v : Value) (next : Text → Action σ α) :
    (Action.of v.written >>= next) =
      if v.isWritable then next v.plain else .of (.error .tooLongToWrite) := by
  unfold Value.written
  split <;> rfl

theorem perform_remark (r : Remark) : (Step.remark r).perform current =
    if r.isWritable then warn r.text else .of (.error .tooLongToWrite) := by
  rw [Step.perform, Remark.written]
  split <;> rfl

/-- A remark on a single value. -/
theorem tell_eq {α : Type} {v : Value} {r : Remark} {words : Text → Text}
    (about : r.isWritable = v.isWritable) (told : words v.plain = r.text)
    (next : Unit → Action Survey α) :
    (Action.of v.written >>= fun t => warn (words t) >>= next) =
      ((Step.remark r).perform current >>= next) := by
  rw [written_bind, perform_remark, about, told]
  split <;> rfl

/-- What a port is bound to, after a remark if no table can hold what was reported. -/
theorem identityOf_eq (current : ComponentKey) (facts : ObjectFacts) : identityOf facts =
    (performAll current (facts.bindingRemarks.map .remark) >>= fun _ => pure facts.binding) := by
  rw [identityOf, ObjectFacts.bindingRemarks, ObjectFacts.binding]
  split
  · rfl
  · rw [List.map_singleton, performAll_singleton]
    exact tell_eq rfl rfl _

theorem addPort_kept (owner : ComponentKey) (facts : Graph.PortFacts) :
    Graph.addPort owner facts.kept = Graph.addPort owner facts := by
  have same (g : Graph) : g.insertPort owner facts.kept = g.insertPort owner facts := by
    simp only [Graph.insertPort, Graph.PortFacts.kept, Value.orElse_orElse]
  simp only [Graph.addPort, same]

theorem surveyPort_eq : surveyPort current kind facts =
    performAll current (portScript kind facts) := by
  rw [surveyPort, portScript, ObjectFacts.port?, ObjectFacts.portRemarks]
  cases directionOf? facts.direction with
  | none =>
    simp only [List.map_cons, List.map_nil, Option.map_none, Option.toList_none, List.append_nil,
      performAll_singleton, perform_remark, written_bind, Remark.isWritable]
    by_cases name : facts.name.isWritable = true
    · by_cases word : facts.direction.isWritable = true
      · simp only [name, word, Bool.and_self, if_true, Remark.text]
      · simp only [name, word, Bool.and_false, if_true, Bool.false_eq_true, if_false]
    · simp only [name, Bool.false_and, Bool.false_eq_true, if_false]
  | some direction =>
    have kept := addPort_kept current
      { name := facts.name, basename := facts.basename, direction, typeName := kind,
        identity := facts.binding, signal := facts.signal }
    simp only [Option.map_some, Option.toList_some, List.map_cons, List.map_nil]
    rw [performAll_append, performAll_singleton, Step.perform, identityOf_eq current, andThen_assoc]
    exact congrArg _ (funext fun _ => congrArg (onGraph · >>= fun _ => pure ()) kept.symm)

theorem surveyPorts_eq (faces : List SimObject) : surveyPorts current kind faces =
    performAll current (faces.flatMap fun face => portScript kind face.facts) := by
  induction faces with
  | nil => rfl
  | cons face faces ih =>
    rw [surveyPorts, surveyPort_eq, ih, List.flatMap_cons, performAll_append]

theorem perform_write (current : ComponentKey) (v : Value) (next : Text → Action Survey Unit) :
    (Action.of v.written >>= next) =
      ((Step.write v).perform current >>= fun _ => next v.plain) := by
  rw [Step.perform]
  unfold Value.written
  split <;> rfl

theorem surveyClock_eq : surveyClock current o =
    performAll current [.unit o.label (clockScript o.facts)] := by
  rw [surveyClock, performAll_singleton, Step.perform]
  refine congrArg _ (funext fun key => ?_)
  have kept := addPort_kept key
    { name := .text (o.facts.name.plain ++ "." ++ o.facts.basename.plain)
      basename := o.facts.basename, direction := .output, typeName := o.facts.kind,
      identity := o.facts.binding, signal := o.facts.basename }
  rw [clockScript, performAll, performAll, performAll_append, performAll_singleton,
    perform_write key]
  refine congrArg _ (funext fun _ => ?_)
  rw [perform_write key]
  refine congrArg _ (funext fun _ => ?_)
  rw [identityOf_eq key, andThen_assoc, Step.perform]
  exact congrArg _ (funext fun _ => congrArg (onGraph · >>= fun _ => pure ()) kept.symm)

/-- The stems of a socket are made of its kind as it is written, which is a text. -/
theorem helperEndings_plain {v : Value} (text : v.IsText) :
    Kind.helperEndings v.plain = Kind.helperEndings (v.text?.getD .empty) := by
  obtain ⟨t, found⟩ := text
  cases v with
  | text s => rfl
  | direction d => cases d <;> decide
  | _ => cases found

theorem surveySocket_eq (text : o.facts.kind.IsText) : surveySocket current o =
    (performAll current (socketScript o) >>= fun _ => pure o.stems) := by
  have stems (t : Text) (found : o.facts.basename.text? = some t) :
      (Kind.helperEndings o.facts.kind.plain).map (fun ending => t ++ ending) = o.stems := by
    rw [SimObject.stems, helperEndings_plain text, ObjectFacts.basenameText, found]
    rfl
  have last : (Action.of (basenameText o.facts.basename) >>= fun basename =>
      (pure ((Kind.helperEndings o.facts.kind.plain).map fun ending => basename ++ ending) :
        Action Survey (List Text))) =
      (performAll current (match basenameText o.facts.basename with
        | .ok _ => []
        | .error e => [.halt e]) >>= fun _ => pure o.stems) := by
    rw [basenameText]
    cases found : o.facts.basename.text? with
    | none => rfl
    | some t => exact congrArg (fun x => (pure x : Action Survey (List Text))) (stems t found)
  rw [surveySocket, socketScript]
  simp only [surveyPorts_eq, last, performAll_append, andThen_assoc]
  cases o.faces.isEmpty with
  | true =>
    simp only [if_true, performAll_singleton]
    exact tell_eq rfl rfl _
  | false => rfl

theorem shownRole_kindText (facts : ObjectFacts) :
    Kind.shownRole? facts.kindText = facts.kind.text?.bind Kind.shownRole? := by
  rw [ObjectFacts.kindText]
  cases facts.kind.text? with
  | none => decide
  | some kind => rfl

/-- A kind that is classified has a role of its own, or it is passed over or unknown. -/
theorem shownRole_of_classify {role : Role} {isIgnored : Value → Except Error Bool}
    (found : Kind.classify isIgnored facts.kind = .ok role) :
    Kind.shownRole? facts.kindText = some role ∨
      Kind.shownRole? facts.kindText = none ∧ (role = .bookkeeping ∨ role = .unknown) := by
  rw [Kind.classify, ← shownRole_kindText] at found
  split at found
  · cases shown : Kind.shownRole? facts.kindText with
    | some own =>
      rw [shown] at found
      cases found
      exact .inl rfl
    | none =>
      rw [shown] at found
      refine .inr ⟨rfl, ?_⟩
      cases told : isIgnored facts.kind with
      | error e =>
        rw [told] at found
        cases found
      | ok ignored =>
        rw [told] at found
        cases found
        cases ignored
        · exact .inr rfl
        · exact .inl rfl
  · cases found

theorem stems_of_shownRole (other : Kind.shownRole? o.facts.kindText ≠ some .socket) :
    o.stems = [] := by
  have shown : ∀ entry ∈ Kind.sockets, Kind.shownRole? entry.1 = some .socket := by decide +kernel
  have unlisted : Kind.sockets.lookup o.facts.kindText = none := by
    rw [← Option.not_isSome_iff_eq_none, List.lookup_isSome_iff]
    rintro ⟨entry, listed, same⟩
    exact other (eq_of_beq same ▸ shown entry listed)
  rw [SimObject.stems, Kind.helperEndings, unlisted]
  rfl

theorem stems_of_classify {role : Role} {isIgnored : Value → Except Error Bool}
    (found : Kind.classify isIgnored o.facts.kind = .ok role) (other : role ≠ .socket) :
    o.stems = [] := by
  refine stems_of_shownRole fun socket => ?_
  obtain shown | ⟨shown, -⟩ := shownRole_of_classify found
  · exact other (Option.some.inj (shown.symm.trans socket))
  · cases shown.symm.trans socket

theorem isText_of_classify (found : Kind.classify rules.isIgnored facts.kind = .ok .socket) :
    facts.kind.IsText := by
  obtain shown | ⟨-, other⟩ := shownRole_of_classify found
  · exact ObjectFacts.isText_of_shownRole shown
  · cases other with
    | inl same => cases same
    | inr same => cases same

mutual

/-- The survey of an object performs its script. -/
theorem surveyObject_eq : ∀ (o : SimObject) (current : ComponentKey) (level : Nat),
    surveyObject rules current level o =
      (performAll current (script rules level o) >>= fun _ => pure o.stems)
  | .mk facts children faces, current, level => by
    rw [surveyObject, script, performAll, andThen_assoc]
    refine congrArg ((heading level facts).perform current >>= ·) (funext fun _ => ?_)
    cases found : Kind.classify rules.isIgnored facts.kind with
    | error e => rfl
    | ok role =>
      have none (other : role ≠ .socket) : (SimObject.mk facts children faces).stems = [] :=
        stems_of_classify found other
      rw [of_ok_bind]
      cases role with
      | module =>
        rw [none (by decide), performAll_singleton, Step.perform, andThen_assoc]
        refine congrArg (onGraph _ >>= ·) (funext fun key => ?_)
        exact congrArg (· >>= fun _ => pure []) (surveySiblings_eq children key (level + 1) [])
      | clock =>
        rw [none (by decide)]
        exact congrArg (· >>= fun _ => pure []) surveyClock_eq
      | port =>
        rw [none (by decide)]
        exact congrArg (· >>= fun _ => pure []) surveyPort_eq
      | socket => exact surveySocket_eq (isText_of_classify found)
      | bookkeeping =>
        rw [none (by decide)]
        rfl
      | unknown =>
        rw [none (by decide), performAll_singleton]
        exact tell_eq rfl rfl _

theorem surveySiblings_eq : ∀ (os : List SimObject) (current : ComponentKey) (level : Nat)
    (stems : List Text), surveySiblings rules current level stems os =
      performAll current (scriptAmong rules level stems os)
  | [], _, _, _ => rfl
  | o :: os, current, level, stems => by
    rw [surveySiblings, scriptAmong]
    cases isHidden rules stems o.facts.basename with
    | error e => rfl
    | ok hidden =>
      cases hidden with
      | true => exact surveySiblings_eq os current level stems
      | false =>
        dsimp only
        rw [of_ok_bind, performAll_append, surveyObject_eq o current level, andThen_assoc]
        exact congrArg (performAll current (script rules level o) >>= ·) (funext fun _ =>
          surveySiblings_eq os current level _)

end

/-- What a survey notes of the object that it takes for the root, or else of the stand-in. -/
def headline : Option SimObject → Text
  | some top => top.facts.name.plain ++ "(" ++ top.facts.kind.plain ++ ")"
  | none => rootName ++ " ( function " ++ rootName ++ "() )"

def surveyRoot (rules : SurveyRules) (top : SimObject) : Action Survey Unit := do
  let root ← onGraph (Graph.addComponent top.facts.name top.facts.basename top.shownType none)
  performAll root (scriptAmong rules 1 [] top.children)
  let s ← Action.state
  Action.note .info .survey ("Scanned " ++ toString s.graph.size ++ " components, " ++
    toString s.graph.ports.length ++ " ports")

/-- The survey of a forest performs the script of what is inside its root. -/
theorem surveyForest_eq (options : SurveyOptions) (objects : List SimObject) :
    surveyForest options objects = (do
      let rules ← .of options.rules
      let top? ← .of (singleRoot? rules objects)
      Action.note .debug .survey (headline top?)
      surveyRoot rules (top?.getD (.standIn objects))) := by
  rw [surveyForest]
  refine congrArg _ (funext fun rules => congrArg _ (funext fun top? => ?_))
  cases top? with
  | none =>
    simp only [surveyRoot, Option.getD_none, ← surveySiblings_eq]
    rfl
  | some top =>
    simp only [surveyRoot, Option.getD_some, ← surveySiblings_eq]
    rfl

end Survey

end Schematic
