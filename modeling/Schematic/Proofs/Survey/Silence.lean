import Schematic.Proofs.Survey.Script
import Schematic.Snapshot.Builder

/-! Kinds that are to be passed over besides the usual ones. A survey looks a kind up among them
only if it has no other use for it, so all that they change is that unknown objects of these kinds
are no longer reported: the graph, its identifiers and the other reports stay as they are. -/

namespace Schematic

namespace Action

variable {σ α β : Type} {change : σ → σ} {kept : LogEntry → Bool} {act act' : Action σ α}
  {next next' : α → Action σ β} {s : σ}

/-- A step and a quieter one on the changed state: they answer the same, the states that they leave
differ as before, and the quieter one writes only those entries of the other one that are kept. -/
def Hushes (change : σ → σ) (kept : LogEntry → Bool) (act act' : Action σ α) (s : σ) : Prop :=
  act' (change s) = ⟨(act s).answer, change (act s).state, (act s).log.filter kept⟩

theorem hushes_of (r : Except Error α) : Hushes change kept (.of r) (.of r) s := rfl

theorem hushes_pure (a : α) : Hushes change kept (pure a) (pure a) s := rfl

theorem hushes_note {level : LogLevel} {source : LogSource} {message : Text}
    (stays : kept ⟨level, source, message⟩ = true) :
    Hushes change kept (note level source message) (note level source message) s := by
  have alone : [LogEntry.mk level source message].filter kept = [⟨level, source, message⟩] :=
    List.filter_cons_of_pos stays
  exact congrArg (Outcome.mk (.ok ()) (change s)) alone.symm

namespace Hushes

theorem bind (first : Hushes change kept act act' s)
    (later : ∀ a s', Hushes change kept (next a) (next' a) s') :
    Hushes change kept (act >>= next) (act' >>= next') s := by
  rw [Hushes] at first ⊢
  rcases outcome : act s with ⟨answer, s', log⟩
  rw [outcome] at first
  cases answer with
  | error e => rw [bind_apply_error first, bind_apply_error outcome]
  | ok a => rw [bind_apply_ok first, bind_apply_ok outcome, later a s', List.filter_append]

/-- A step that looks at the state. -/
theorem look {next next' : σ → Action σ β}
    (later : Hushes change kept (next s) (next' (change s)) s) :
    Hushes change kept (Action.state >>= next) (Action.state >>= next') s := by
  have read (t : σ) : Action.state t = ⟨.ok t, t, []⟩ := rfl
  rw [Hushes, bind_apply_ok (read _), bind_apply_ok (read _), later]
  rfl

end Hushes

end Action

def LogEntry.isHeard (silent : List Text) (e : LogEntry) : Bool :=
  e.level != .warning || !silent.contains e.message

namespace Survey

open SimObject Schematic.Action

def reportsOn (kinds : List Value) : List Text :=
  (kinds.filterMap Value.text?).map fun kind => "object not known (" ++ kind ++ ")"

def without (silent : List Text) (s : Survey) : Survey :=
  { s with warnings := s.warnings.filter fun w => !silent.contains w }

variable {rules rules' : SurveyRules} {kinds : List Value} {s : Survey} {facts : ObjectFacts}
  {current : ComponentKey} {message : Text}

/-- A step of a survey and the same step of a survey that passes over some kinds. -/
abbrev Hushes {α : Type} (kinds : List Value) (act act' : Action Survey α) (s : Survey) : Prop :=
  Action.Hushes (without (reportsOn kinds)) (LogEntry.isHeard (reportsOn kinds)) act act' s

theorem not_mem_reportsOn {c : CodePoint} (starts : message.points.head? = some c)
    (other : c ≠ .ofChar 'o') : message ∉ reportsOn kinds := by
  intro listed
  obtain ⟨kind, -, rfl⟩ := List.mem_map.mp listed
  exact other (Option.some.inj starts).symm

/-- Reports on unknown objects tell their kinds apart. -/
theorem mem_reportsOn {kind : Text} :
    "object not known (" ++ kind ++ ")" ∈ reportsOn kinds ↔ kind ∈ kinds.filterMap Value.text? := by
  refine List.mem_map_of_injective fun k k' same => Text.ext ?_
  have points := congrArg Text.points same
  simpa only [Text.points_append, List.append_assoc, List.append_cancel_left_eq,
    List.append_cancel_right_eq] using points

/-- Among values a text is found as a text only. -/
theorem isAmong_text (kind : Text) :
    (Value.text kind).isAmong kinds = decide (kind ∈ kinds.filterMap Value.text?) := by
  have same (v : Value) : v.same (.text kind) = (v.text? == some kind) := by
    cases v <;> simp [Value.same, Value.text?, Value.sameWorth, Value.worth?]
  rw [Value.isAmong, Bool.eq_iff_iff, List.any_eq_true, decide_eq_true_eq, List.mem_filterMap]
  simp only [same, beq_iff_eq]

/-- What a graph writes about itself is no warning. -/
theorem hushes_addComponent (name basename typeName : Value) (parent : Option ComponentKey)
    (g : Graph) : Action.Hushes id (LogEntry.isHeard (reportsOn kinds))
      (Graph.addComponent name basename typeName parent)
      (Graph.addComponent name basename typeName parent) g := by
  have added (message : Text) (h : Graph) :
      let addition : Action Graph ComponentKey := do
        Action.note .debug .graph message
        Action.update fun g => g.insertComponent name basename typeName parent
      Action.Hushes id (LogEntry.isHeard (reportsOn kinds)) addition addition h :=
    .bind (hushes_note rfl) fun _ _ => rfl
  unfold Graph.addComponent
  refine .look ?_
  dsimp only [id]
  cases parent with
  | none =>
    cases g.register.root with
    | none => exact added _ _
    | some root => rfl
  | some p =>
    dsimp only
    cases g.registers p with
    | true => exact added _ _
    | false => rfl

theorem hushes_addPort (owner : ComponentKey) (facts : Graph.PortFacts) (g : Graph) :
    Action.Hushes id (LogEntry.isHeard (reportsOn kinds)) (Graph.addPort owner facts)
      (Graph.addPort owner facts) g := by
  unfold Graph.addPort
  refine .look ?_
  dsimp only [id]
  split <;> rfl

theorem hushes_onGraph {α : Type} {act : Action Graph α}
    (calm : ∀ g, Action.Hushes id (LogEntry.isHeard (reportsOn kinds)) act act g) :
    s.Hushes kinds (onGraph act) (onGraph act) := by
  have log := congrArg Outcome.log (calm s.graph)
  exact congrArg (Outcome.mk (act s.graph).answer
    (without (reportsOn kinds) { s with graph := (act s.graph).state })) log

theorem hushes_warn (other : message ∉ reportsOn kinds) :
    s.Hushes kinds (warn message) (warn message) := by
  refine Action.Hushes.bind ?_ fun _ _ => hushes_note ?_
  · have heard : [message].filter (fun w => !(reportsOn kinds).contains w) = [message] :=
      List.filter_cons_of_pos (by simpa using other)
    have warnings := (List.filter_append s.warnings [message]
      (p := fun w => !(reportsOn kinds).contains w)).trans (congrArg _ heard)
    exact congrArg (fun ws => Outcome.mk (.ok ()) { s with warnings := ws } []) warnings.symm
  · simp [LogEntry.isHeard, other]

/-- A report that is left out. -/
theorem hushes_silent (told : message ∈ reportsOn kinds) :
    s.Hushes kinds (warn message) (pure ()) := by
  have left : [message].filter (fun w => !(reportsOn kinds).contains w) = [] :=
    List.filter_cons_of_neg (by simpa using told)
  have silent : LogEntry.isHeard (reportsOn kinds) ⟨.warning, .survey, message⟩ = false := by
    simp [LogEntry.isHeard, told]
  have warnings : (s.warnings ++ [message]).filter (fun w => !(reportsOn kinds).contains w) =
      s.warnings.filter fun w => !(reportsOn kinds).contains w := by
    rw [List.filter_append, left, List.append_nil]
  have log : [LogEntry.mk .warning .survey message].filter (LogEntry.isHeard (reportsOn kinds)) =
      [] := List.filter_cons_of_neg (by simp [silent])
  exact congr (congrArg (fun ws => Outcome.mk (.ok ()) { s with warnings := ws }) warnings.symm)
    log.symm

/-- A step that is done whether or not some kinds are passed over. New components are looked into
by themselves. -/
def Step.IsHeard (kinds : List Value) : Step → Prop
  | .remark r => r.text ∉ reportsOn kinds
  | .unit _ _ => False
  | _ => True

theorem hushes_perform {step : Step} (heard : step.IsHeard kinds) :
    s.Hushes kinds (step.perform current) (step.perform current) := by
  cases step with
  | note head =>
    rw [Step.perform]
    exact .look (hushes_note rfl)
  | remark r =>
    rw [Step.perform, Remark.written]
    split
    · exact hushes_warn heard
    · rfl
  | write v =>
    rw [Step.perform]
    exact .bind (hushes_of _) fun _ _ => hushes_pure _
  | port facts =>
    rw [Step.perform]
    exact .bind (hushes_onGraph (hushes_addPort _ _)) fun _ _ => hushes_pure _
  | unit label inside => exact heard.elim
  | halt e => rfl

inductive Quiets (kinds : List Value) : List Step → List Step → Prop where
  | nil : Quiets kinds [] []
  | heard {step : Step} {steps steps' : List Step} (heard : step.IsHeard kinds)
      (rest : Quiets kinds steps steps') : Quiets kinds (step :: steps) (step :: steps')
  | silent {kind : Text} {steps steps' : List Step} (told : kind ∈ kinds.filterMap Value.text?)
      (rest : Quiets kinds steps steps') :
      Quiets kinds (.remark (.unknownKind (.text kind)) :: steps) steps'
  | unit {inside inside' steps steps' : List Step} (label : Label)
      (inner : Quiets kinds inside inside') (rest : Quiets kinds steps steps') :
      Quiets kinds (.unit label inside :: steps) (.unit label inside' :: steps')

namespace Quiets

theorem refl {steps : List Step} (heard : ∀ step ∈ steps, step.IsHeard kinds) :
    Quiets kinds steps steps := by
  induction steps with
  | nil => exact .nil
  | cons step steps ih =>
    rw [List.forall_mem_cons] at heard
    exact .heard heard.1 (ih heard.2)

theorem append {steps steps' more more' : List Step} (first : Quiets kinds steps steps')
    (next : Quiets kinds more more') : Quiets kinds (steps ++ more) (steps' ++ more') := by
  induction first with
  | nil => exact next
  | heard heard _ ih => exact .heard heard ih
  | silent told _ ih => exact .silent told ih
  | unit label inner _ _ ih => exact .unit label inner ih

/-- Steps without some reports are performed without these reports. -/
theorem hushes {steps steps' : List Step} (quiets : Quiets kinds steps steps') (s : Survey)
    (current : ComponentKey) :
    s.Hushes kinds (performAll current steps) (performAll current steps') := by
  induction quiets generalizing s current with
  | nil => exact hushes_pure _
  | heard heard _ ih =>
    rw [performAll, performAll]
    exact .bind (hushes_perform heard) fun _ s => ih s current
  | silent told _ ih =>
    rw [performAll, perform_remark, Remark.isWritable, if_pos (Value.isWritable_text _)]
    have hushed := hushes_silent (s := s) (mem_reportsOn.mpr told)
    have later (_ : Unit) (s : Survey) := ih s current
    exact hushed.bind later
  | unit label _ _ inner ih =>
    rw [performAll, performAll, Step.perform, Step.perform]
    refine .bind (.bind (hushes_onGraph (hushes_addComponent _ _ _ _)) fun key s => inner s key) ?_
    exact fun _ s => ih s current

end Quiets

theorem heard_remarks {rs : List Remark} (heard : ∀ r ∈ rs, r.text ∉ reportsOn kinds) :
    ∀ step ∈ rs.map Step.remark, step.IsHeard kinds :=
  List.forall_mem_map.mpr heard

theorem heard_bindingRemarks (facts : ObjectFacts) :
    ∀ r ∈ facts.bindingRemarks, r.text ∉ reportsOn kinds := by
  unfold ObjectFacts.bindingRemarks
  split
  · exact nofun
  · exact List.forall_mem_singleton.mpr (not_mem_reportsOn rfl (by decide))

theorem heard_portScript (kind : Value) (facts : ObjectFacts) :
    ∀ step ∈ portScript kind facts, step.IsHeard kinds := by
  have ports : ∀ step ∈ (facts.port? kind).toList.map Step.port, step.IsHeard kinds :=
    List.forall_mem_map.mpr fun _ _ => trivial
  refine List.forall_mem_append.mpr ⟨heard_remarks ?_, ports⟩
  unfold ObjectFacts.portRemarks
  split
  · exact heard_bindingRemarks facts
  · exact List.forall_mem_singleton.mpr (not_mem_reportsOn rfl (by decide))

theorem heard_clockScript (facts : ObjectFacts) :
    ∀ step ∈ clockScript facts, step.IsHeard kinds := by
  simp only [clockScript, List.forall_mem_cons, List.forall_mem_append, List.not_mem_nil,
    false_implies, implies_true, and_true]
  exact ⟨trivial, trivial, heard_remarks (heard_bindingRemarks facts), trivial⟩

theorem heard_socketScript (o : SimObject) : ∀ step ∈ socketScript o, step.IsHeard kinds := by
  simp only [socketScript, List.forall_mem_append, List.forall_mem_flatMap]
  refine ⟨⟨?_, fun face _ => heard_portScript _ face.facts⟩, ?_⟩
  · split
    · exact List.forall_mem_singleton.mpr (not_mem_reportsOn rfl (by decide))
    · exact List.forall_mem_nil _
  · split
    · exact List.forall_mem_nil _
    · exact List.forall_mem_singleton.mpr trivial

/-- The tables of kinds that are drawn know no unknown ones. -/
theorem shownRole?_ne_unknown (kind : Text) : Kind.shownRole? kind ≠ some .unknown := by
  unfold Kind.shownRole?
  split_ifs <;> exact nofun

/-- Rules that pass over some more kinds than others. -/
structure PassOver (kinds : List Value) (rules rules' : SurveyRules) : Prop where
  marker : rules'.marker = rules.marker
  ignored : rules'.ignored = rules.ignored ++ kinds

namespace PassOver

variable (more : PassOver kinds rules rules')

include more

theorem isInternal (basename : Value) : rules'.isInternal basename = rules.isInternal basename := by
  unfold SurveyRules.isInternal
  rw [more.marker]

theorem isHidden (stems : List Text) (basename : Value) :
    isHidden rules' stems basename = isHidden rules stems basename := by
  unfold Survey.isHidden
  rw [more.isInternal]

theorem singleRoot? (objects : List SimObject) :
    singleRoot? rules' objects = singleRoot? rules objects := by
  match objects with
  | [] => rfl
  | [top] => simp only [Survey.singleRoot?, more.isInternal]
  | _ :: _ :: _ => rfl

/-- A kind has the same role, unless it is an unknown one that is now passed over. -/
theorem classify (kind : Text) : Kind.classify rules'.isIgnored (.text kind) =
    (Kind.classify rules.isIgnored (.text kind)).map fun role =>
      if role = .unknown ∧ kind ∈ kinds.filterMap Value.text? then .bookkeeping else role := by
  have looked (r : SurveyRules) : Kind.classify r.isIgnored (.text kind) =
      .ok ((Kind.shownRole? kind).getD
        (if (Value.text kind).isAmong r.ignored then .bookkeeping else .unknown)) := by
    rw [Kind.classify, if_pos (show (Value.text kind).isHashable = true from rfl), Value.text?,
      Option.bind_some]
    cases Kind.shownRole? kind <;> rfl
  have wider : (Value.text kind).isAmong rules'.ignored =
      ((Value.text kind).isAmong rules.ignored || decide (kind ∈ kinds.filterMap Value.text?)) := by
    rw [more.ignored, ← isAmong_text]
    exact List.any_append
  rw [looked, looked, wider, Except.map]
  cases shown : Kind.shownRole? kind with
  | some role =>
    have known : role ≠ .unknown := fun same => shownRole?_ne_unknown kind (same ▸ shown)
    simp [known]
  | none =>
    cases (Value.text kind).isAmong rules.ignored with
    | true => simp
    | false => simp

end PassOver

mutual

theorem quiets_script (more : PassOver kinds rules rules') : ∀ (o : SimObject) (level : Nat),
    (∀ f ∈ o.reports, ∃ kind, f.kind = .text kind) →
      Quiets kinds (script rules level o) (script rules' level o)
  | .mk facts children faces, level, named => by
    rw [reports, List.forall_mem_cons, List.forall_mem_append] at named
    obtain ⟨⟨kind, spelled⟩, -, inner⟩ := named
    rw [script, script]
    refine .heard trivial ?_
    have text : (Value.text kind).IsText := ⟨kind, rfl⟩
    obtain ⟨role, found⟩ := exists_classify rules text
    rw [spelled, more.classify, found, Except.map]
    cases role with
    | module => exact .unit _ (quiets_scriptAmong more children (level + 1) [] inner) .nil
    | clock => exact .unit _ (.refl (heard_clockScript facts)) .nil
    | port => exact .refl (heard_portScript _ facts)
    | socket => exact .refl (heard_socketScript _)
    | bookkeeping => exact .nil
    | unknown =>
      dsimp only
      by_cases told : kind ∈ kinds.filterMap Value.text?
      · rw [if_pos ⟨rfl, told⟩]
        exact .silent told .nil
      · rw [if_neg fun both => told both.2]
        exact .heard (mt mem_reportsOn.mp told) .nil

theorem quiets_scriptAmong (more : PassOver kinds rules rules') : ∀ (os : List SimObject)
    (level : Nat) (stems : List Text), (∀ f ∈ reportsAmong os, ∃ kind, f.kind = .text kind) →
      Quiets kinds (scriptAmong rules level stems os) (scriptAmong rules' level stems os)
  | [], _, _, _ => .nil
  | o :: os, level, stems, named => by
    rw [reportsAmong, List.forall_mem_append] at named
    rw [scriptAmong, scriptAmong, more.isHidden]
    cases isHidden rules stems o.facts.basename with
    | error e => exact .heard trivial .nil
    | ok hidden =>
      cases hidden with
      | true => exact quiets_scriptAmong more os level stems named.2
      | false =>
        exact (quiets_script more o level named.1).append
          (quiets_scriptAmong more os level _ named.2)

end

theorem hushes_surveyForest {marker extra : Value} (listed : extra.members? = some kinds)
    (keys : kinds.all Value.isHashable = true) {objects : List SimObject}
    (named : ∀ f ∈ reportsAmong objects, ∃ kind, f.kind = .text kind) :
    s.Hushes kinds (surveyForest { marker } objects)
      (surveyForest { marker, extraIgnored := extra } objects) := by
  have usual : SurveyOptions.rules { marker } = .ok ⟨marker, Kind.bookkeeping.map .text ++ []⟩ :=
    rfl
  have wider : SurveyOptions.rules { marker, extraIgnored := extra } =
      .ok ⟨marker, Kind.bookkeeping.map .text ++ kinds⟩ := by
    simp only [SurveyOptions.rules, listed, if_pos keys]
  have more : PassOver kinds ⟨marker, Kind.bookkeeping.map .text ++ []⟩
      ⟨marker, Kind.bookkeeping.map .text ++ kinds⟩ := ⟨rfl, by rw [List.append_nil]⟩
  rw [surveyForest_eq, surveyForest_eq, usual, wider, of_ok_bind, of_ok_bind, more.singleRoot?]
  cases found : singleRoot? _ objects with
  | error e => rfl
  | ok top? =>
    have quiets := quiets_scriptAmong more _ 1 [] (reports_root found named)
    rw [of_ok_bind, of_ok_bind]
    refine .bind (hushes_note rfl) fun _ s => ?_
    refine .bind (hushes_onGraph (hushes_addComponent _ _ _ _)) fun root s => ?_
    exact .bind (quiets.hushes s root) fun _ s => .look (hushes_note rfl)

end Survey

open Survey in
/-- Kinds that are to be passed over besides the usual ones keep a survey from reporting unknown
objects of these kinds, and do nothing else, whatever kinds they are: the survey fails as before, or
it makes the very same graph and all other reports, and its log lacks those reports alone. -/
theorem extra_kinds_only_silence {σ : Type} (marker extra : Value) {kinds : List Value}
    (listed : extra.members? = some kinds) (keys : kinds.all Value.isHashable = true)
    (objects : List SimObject)
    (named : ∀ f ∈ SimObject.reportsAmong objects, ∃ kind, f.kind = .text kind) (t : σ) :
    let loud := (surveyOf { marker } objects).on t
    let quiet := (surveyOf { marker, extraIgnored := extra } objects).on t
    quiet.answer = loud.answer.map (fun s =>
        { s with warnings := s.warnings.filter fun w => !(reportsOn kinds).contains w }) ∧
      quiet.log = loud.log.filter (LogEntry.isHeard (reportsOn kinds)) := by
  intro loud quiet
  have run : ({} : Survey).Hushes kinds (surveyForest { marker } objects)
      (surveyForest { marker, extraIgnored := extra } objects) :=
    hushes_surveyForest listed keys named
  have start : without (reportsOn kinds) {} = {} := rfl
  rw [Survey.Hushes, Action.Hushes, start] at run
  simp only [loud, quiet, surveyOf, Action.on, Action.apart, Action.bind_apply, run]
  cases (surveyForest { marker } objects {}).answer with
  | error e => exact ⟨rfl, rfl⟩
  | ok a => exact ⟨rfl, by simp only [Except.map, Action.pure_apply, List.append_nil]⟩

/-- A bench with two objects of unknown kinds, the one beside a module and the other one in it. -/
def benchWithProbes : List SimObject :=
  [.module (.text "top")
    [.leaf (.text "trace") (.text "my_channel"),
      .module (.text "core")
        [.leaf (.text "probe") (.text "my_probe"),
          .port (.text "clk") (.text "sc_in") (.text "up")]]]

theorem extra_kinds_only_silence_on_bench :
    let extra : Value := .list [.text "my_channel", .text "sc_module"]
    let objects := SimObject.nameForest benchWithProbes
    (∀ f ∈ SimObject.reportsAmong objects, ∃ kind, f.kind = .text kind) ∧
      ∃ loud quiet : Survey, ((surveyOf {} objects).on ()).answer = .ok loud ∧
        ((surveyOf { extraIgnored := extra } objects).on ()).answer = .ok quiet ∧
        quiet.graph = loud.graph ∧ loud.graph.size = 2 ∧
        loud.warnings = ["object not known (my_channel)", "object not known (my_probe)",
          "port top.core.clk has invalid direction 'up', skipped"] ∧
        quiet.warnings = ["object not known (my_probe)",
          "port top.core.clk has invalid direction 'up', skipped"] := by
  intro extra objects
  have spelled : ∀ f ∈ SimObject.reportsAmong benchWithProbes, ∃ kind, f.kind = .text kind := by
    simp [benchWithProbes, SimObject.module, SimObject.leaf, SimObject.port, SimObject.ofFacts,
      SimObject.reportsAmong, SimObject.reports]
  have named : ∀ f ∈ SimObject.reportsAmong objects, ∃ kind, f.kind = .text kind :=
    SimObject.forall_namedAll (fun enclosing facts ⟨kind, same⟩ => ⟨kind, by
      unfold SimObject.nameFacts
      split <;> exact same⟩) benchWithProbes _ spelled
  refine ⟨named, ?_⟩
  have shown : ((surveyOf {} objects ()).answer.map fun s => (s.graph.size, s.warnings)).toOption =
      some (2, (["object not known (my_channel)", "object not known (my_probe)",
        "port top.core.clk has invalid direction 'up', skipped"] : List Text)) := by
    decide +kernel
  have quieted := (extra_kinds_only_silence (.text "$$$") extra rfl (by decide) objects named ()).1
  change ((surveyOf { extraIgnored := extra } objects).on ()).answer =
    ((surveyOf {} objects).on ()).answer.map _ at quieted
  cases surveyed : ((surveyOf {} objects).on ()).answer with
  | error e =>
    simp only [Action.on] at surveyed
    rw [surveyed] at shown
    cases shown
  | ok loud =>
    rw [surveyed] at quieted
    simp only [Action.on] at surveyed
    rw [surveyed] at shown
    obtain ⟨size, warnings⟩ := Prod.mk.inj (Option.some.inj shown)
    refine ⟨loud, _, rfl, quieted, rfl, size, warnings, ?_⟩
    dsimp only
    rw [warnings]
    decide +kernel

end Schematic
