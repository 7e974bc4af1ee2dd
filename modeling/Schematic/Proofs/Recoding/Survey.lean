import Schematic.Proofs.Recoding.Graph
import Schematic.Proofs.Survey.Script

/-! A survey looks at an identity only to see whether a table can hold it. The scripts of objects
with other identities therefore differ in the identities of the ports alone, and so do the graphs
that come of them. -/

namespace Schematic

namespace Survey

open SimObject Schematic.Action

variable {c : Recoding} {s : Survey} {current : ComponentKey} {kind : Value} {facts : ObjectFacts}
  {rules : SurveyRules}

def recoded (c : Recoding) (s : Survey) : Survey := { s with graph := s.graph.recoded c }

def IsKnown (c : Recoding) (s : Survey) : Prop := s.graph.IsKnown c

abbrev Recodes {α : Type} (c : Recoding) (act act' : Action Survey α) (s : Survey) : Prop :=
  Carries (Survey.recoded c) (IsKnown c) act act' s

theorem recodes_onGraph {α : Type} {act act' : Action Graph α}
    (h : s.graph.Recodes c act act') : s.Recodes c (onGraph act) (onGraph act') := by
  refine ⟨?_, h.kept⟩
  have run := h.run
  change onGraph act' (s.recoded c) = _
  rw [onGraph, within, show (s.recoded c).graph = s.graph.recoded c from rfl, run]
  rfl

theorem recodes_warn (message : Text) (known : s.IsKnown c) :
    s.Recodes c (warn message) (warn message) :=
  .bind (carries_change rfl known) fun _ _ known => carries_note known

def Step.IsPlain : Step → Prop
  | .port _ => False
  | .unit _ _ => False
  | _ => True

theorem recodes_perform {step : Step} (plain : step.IsPlain) (known : s.IsKnown c) :
    s.Recodes c (step.perform current) (step.perform current) := by
  cases step with
  | note head =>
    rw [Step.perform]
    exact .look (carries_note known)
  | remark r =>
    rw [Step.perform]
    exact .bind (carries_of _ known) fun text _ known => recodes_warn text known
  | write v =>
    rw [Step.perform]
    exact .bind (carries_of _ known) fun _ _ known => carries_pure known
  | port facts => exact plain.elim
  | unit label inside => exact plain.elim
  | halt e => exact carries_of _ known

inductive Translates (c : Recoding) : List Step → List Step → Prop where
  | nil : Translates c [] []
  | plain {step : Step} {steps steps' : List Step} (plain : step.IsPlain)
      (rest : Translates c steps steps') : Translates c (step :: steps) (step :: steps')
  | port {facts : Graph.PortFacts} {steps steps' : List Step} (known : c.Knows facts.identity)
      (rest : Translates c steps steps') :
      Translates c (.port facts :: steps) (.port (facts.recoded c) :: steps')
  | unit {inside inside' steps steps' : List Step} (label : Label)
      (inner : Translates c inside inside') (rest : Translates c steps steps') :
      Translates c (.unit label inside :: steps) (.unit label inside' :: steps')

namespace Translates

theorem refl {steps : List Step} (plain : ∀ step ∈ steps, step.IsPlain) :
    Translates c steps steps := by
  induction steps with
  | nil => exact .nil
  | cons step steps ih =>
    rw [List.forall_mem_cons] at plain
    exact .plain plain.1 (ih plain.2)

theorem append {steps steps' more more' : List Step} (first : Translates c steps steps')
    (next : Translates c more more') : Translates c (steps ++ more) (steps' ++ more') := by
  induction first with
  | nil => exact next
  | plain plain _ ih => exact .plain plain ih
  | port known _ ih => exact .port known ih
  | unit label inner _ _ ih => exact .unit label inner ih

/-- Steps for ports of other identities leave the graph with other identities. -/
theorem recodes {steps steps' : List Step} (translates : Translates c steps steps')
    (current : ComponentKey) (known : s.IsKnown c) :
    s.Recodes c (performAll current steps) (performAll current steps') := by
  induction translates generalizing s current with
  | nil => exact carries_pure known
  | plain plain _ ih =>
    rw [performAll, performAll]
    exact .bind (recodes_perform plain known) fun _ _ known => ih current known
  | port reported _ ih =>
    rw [performAll, performAll, Step.perform, Step.perform]
    refine .bind (.bind (recodes_onGraph (Graph.recodes_addPort known current reported)) ?_) ?_
    · exact fun _ _ known => carries_pure known
    · exact fun _ _ known => ih current known
  | unit label _ _ inner ih =>
    rw [performAll, performAll, Step.perform, Step.perform]
    refine .bind (.bind (recodes_onGraph (Graph.recodes_addComponent known _ _ _ _)) ?_) ?_
    · exact fun key _ known => inner key known
    · exact fun _ _ known => ih current known

end Translates

/-- Every identity that the recoding knows can be held by a table, and so can its image. -/
theorem binding_recoded (reported : c.Knows facts.identity) :
    facts.binding = facts.identity ∧ (facts.recoded c).binding = c.apply facts.identity :=
  ⟨if_pos reported.isIdentity.1, if_pos (Recoding.isIdentity_apply reported).1⟩

theorem bindingRemarks_recoded (reported : c.Knows facts.identity) :
    facts.bindingRemarks = [] ∧ (facts.recoded c).bindingRemarks = [] :=
  ⟨if_pos reported.isIdentity.1, if_pos (Recoding.isIdentity_apply reported).1⟩

theorem translates_portScript (kind : Value) (reported : c.Knows facts.identity) :
    Translates c (portScript kind facts) (portScript kind (facts.recoded c)) := by
  obtain ⟨bound, bound'⟩ := binding_recoded reported
  obtain ⟨told, told'⟩ := bindingRemarks_recoded reported
  rw [portScript, portScript, ObjectFacts.portRemarks, ObjectFacts.portRemarks, ObjectFacts.port?,
    ObjectFacts.port?, show (facts.recoded c).direction = facts.direction from rfl]
  cases directionOf? facts.direction with
  | none => exact .refl (List.forall_mem_singleton.mpr trivial)
  | some direction =>
    rw [told, told', bound, bound']
    exact .port reported .nil

theorem translates_clockScript (reported : c.Knows facts.identity) :
    Translates c (clockScript facts) (clockScript (facts.recoded c)) := by
  obtain ⟨bound, bound'⟩ := binding_recoded reported
  obtain ⟨told, told'⟩ := bindingRemarks_recoded reported
  rw [clockScript, clockScript, told, told', ObjectFacts.clockPort, ObjectFacts.clockPort, bound,
    bound']
  exact .plain trivial (.plain trivial (.port reported .nil))

theorem translates_faces (kind : Value) {faces : List SimObject}
    (reported : ∀ face ∈ faces, c.Knows face.facts.identity) :
    Translates c (faces.flatMap fun face => portScript kind face.facts)
      ((recodedAll c faces).flatMap fun face => portScript kind face.facts) := by
  induction faces with
  | nil => exact .nil
  | cons face faces ih =>
    rw [List.forall_mem_cons] at reported
    rw [recodedAll, List.flatMap_cons, List.flatMap_cons, facts_recoded]
    exact (translates_portScript kind reported.1).append (ih reported.2)

theorem translates_socketScript {o : SimObject}
    (reported : ∀ face ∈ o.faces, c.Knows face.facts.identity) :
    Translates c (socketScript o) (socketScript (o.recoded c)) := by
  obtain ⟨facts, children, faces⟩ := o
  have ends := translates_faces facts.kind reported
  rw [SimObject.recoded, socketScript, socketScript]
  refine .append (.append ?_ ends) (.refl ?_)
  · cases faces with
    | nil => exact .refl (List.forall_mem_singleton.mpr trivial)
    | cons face faces => exact .nil
  · split
    · exact List.forall_mem_nil _
    · exact List.forall_mem_singleton.mpr trivial

theorem stems_recoded (c : Recoding) (o : SimObject) : (o.recoded c).stems = o.stems := by
  rw [stems, facts_recoded]
  rfl

theorem label_recoded (c : Recoding) (o : SimObject) : (o.recoded c).label = o.label := by
  rw [label, label, shownType, shownType, facts_recoded]
  rfl

mutual

theorem translates_script (rules : SurveyRules) : ∀ (o : SimObject) (level : Nat),
    (∀ f ∈ o.reports, c.Knows f.identity) →
      Translates c (script rules level o) (script rules level (o.recoded c))
  | .mk facts children faces, level, reported => by
    rw [reports, List.forall_mem_cons, List.forall_mem_append, List.forall_mem_map] at reported
    obtain ⟨self, ends, inner⟩ := reported
    have label := label_recoded c (.mk facts children faces)
    have socket := translates_socketScript (o := .mk facts children faces) ends
    rw [SimObject.recoded] at label socket
    rw [SimObject.recoded, script, script, label,
      show (facts.recoded c).kind = facts.kind from rfl]
    refine .plain trivial ?_
    cases Kind.classify rules.isIgnored facts.kind with
    | error e => exact .plain trivial .nil
    | ok role =>
      cases role with
      | module => exact .unit _ (translates_scriptAmong rules children (level + 1) [] inner) .nil
      | clock => exact .unit _ (translates_clockScript self) .nil
      | port => exact translates_portScript facts.kind self
      | socket => exact socket
      | bookkeeping => exact .nil
      | unknown => exact .plain trivial .nil

theorem translates_scriptAmong (rules : SurveyRules) :
    ∀ (os : List SimObject) (level : Nat) (stems : List Text),
    (∀ f ∈ reportsAmong os, c.Knows f.identity) →
      Translates c (scriptAmong rules level stems os)
        (scriptAmong rules level stems (recodedAll c os))
  | [], _, _, _ => .nil
  | o :: os, level, stems, reported => by
    rw [reportsAmong, List.forall_mem_append] at reported
    rw [recodedAll, scriptAmong, scriptAmong, stems_recoded, facts_recoded,
      show (o.facts.recoded c).basename = o.facts.basename from rfl]
    cases isHidden rules stems o.facts.basename with
    | error e => exact .plain trivial .nil
    | ok hidden =>
      cases hidden with
      | true => exact translates_scriptAmong rules os level stems reported.2
      | false =>
        exact (translates_script rules o level reported.1).append
          (translates_scriptAmong rules os level _ reported.2)

end

theorem recodes_surveyRoot {top top' : SimObject} (label : top'.label = top.label)
    (inside : Translates c (scriptAmong rules 1 [] top.children)
      (scriptAmong rules 1 [] top'.children)) (known : s.IsKnown c) :
    s.Recodes c (surveyRoot rules top) (surveyRoot rules top') := by
  obtain ⟨name, basename, typeName⟩ := Label.mk.inj label
  rw [surveyRoot, surveyRoot, name, basename, typeName]
  refine .bind (recodes_onGraph (Graph.recodes_addComponent known _ _ _ _)) fun root s known => ?_
  refine .bind (inside.recodes root known) fun _ s known => .look ?_
  rw [show (s.recoded c).graph.ports = s.graph.ports from Graph.ports_recoded c s.graph]
  exact carries_note known

theorem recodes_surveyForest {options : SurveyOptions} {objects : List SimObject}
    (known : s.IsKnown c) (reported : ∀ f ∈ reportsAmong objects, c.Knows f.identity) :
    s.Recodes c (surveyForest options objects)
      (surveyForest options (recodedAll c objects)) := by
  rw [surveyForest_eq, surveyForest_eq]
  refine .bind (carries_of _ known) fun rules s known => ?_
  have same (o : SimObject) : (o.recoded c).facts.kind = o.facts.kind ∧
      (o.recoded c).facts.basename = o.facts.basename := by
    rw [facts_recoded]
    exact ⟨rfl, rfl⟩
  rw [recodedAll_eq, singleRoot?_map same]
  refine .of_map known fun top? found => ?_
  have inside := translates_scriptAmong rules _ 1 [] (reports_root found reported)
  cases top? with
  | none =>
    refine .bind (carries_note known) fun _ s known => recodes_surveyRoot rfl ?_ known
    rw [← recodedAll_eq]
    exact inside
  | some top =>
    have headed : headline (some (top.recoded c)) = headline (some top) := by
      rw [headline, headline, facts_recoded]
      rfl
    rw [Option.map_some, headed]
    refine .bind (carries_note known) fun _ s known =>
      recodes_surveyRoot (label_recoded c top) ?_ known
    obtain ⟨facts, children, faces⟩ := top
    rw [Option.getD_some, SimObject.recoded]
    exact inside

end Survey

variable {σ : Type} {c : Recoding} {objects : List SimObject}

theorem surveyOf_recoded (options : SurveyOptions)
    (reported : ∀ f ∈ SimObject.reportsAmong objects, c.Knows f.identity)
    (s : σ) : surveyOf options (SimObject.recodedAll c objects) s =
        (surveyOf options objects s).map (Survey.recoded c) ∧
      ∀ survey, (surveyOf options objects s).answer = .ok survey → survey.IsKnown c := by
  have start : ({} : Survey).IsKnown c := fun p hp => absurd hp (Array.not_mem_empty p)
  have same : ({} : Survey) = ({} : Survey).recoded c := by
    rw [Survey.recoded, Graph.recoded, Array.map_empty]
  exact (Survey.recodes_surveyForest start reported).final same s

end Schematic
