import Schematic.Proofs.Survey.Refinement

/-! What a survey can make of objects, whatever its rules are and whatever the objects report. Its
rules only decide which objects it passes over; of any other object it makes what the kind of the
object asks for. -/

namespace Schematic

namespace SimObject

mutual

/-- What can come of an object: ports of the component around it, and components below that. -/
inductive Draws : SimObject → List Graph.PortFacts → List Sketch → Prop where
  | passed (o : SimObject) : Draws o [] []
  | module {facts : ObjectFacts} {children : List SimObject} {ports : List Graph.PortFacts}
      {below : List Sketch} (faces : List SimObject)
      (shown : Kind.shownRole? facts.kindText = some .module)
      (inner : DrawsAmong children ports below) :
      Draws (mk facts children faces) [] [.unit (mk facts children faces).label ports below]
  | clock {o : SimObject} (shown : Kind.shownRole? o.facts.kindText = some .clock) :
      Draws o [] [.unit o.label [o.facts.clockPort] []]
  | port {o : SimObject} (shown : Kind.shownRole? o.facts.kindText = some .port) :
      Draws o (o.facts.port? o.facts.kind).toList []
  | socket {o : SimObject} (shown : Kind.shownRole? o.facts.kindText = some .socket) :
      Draws o (o.faces.filterMap fun face => face.facts.port? o.facts.kind) []

inductive DrawsAmong : List SimObject → List Graph.PortFacts → List Sketch → Prop where
  | nil : DrawsAmong [] [] []
  | cons {o : SimObject} {os : List SimObject} {ports ports' : List Graph.PortFacts}
      {below below' : List Sketch} (first : Draws o ports below)
      (rest : DrawsAmong os ports' below') :
      DrawsAmong (o :: os) (ports ++ ports') (below ++ below')

end

section Ports

variable {reported : ObjectFacts → Prop} {p : Graph.PortFacts → Prop}

mutual

/-- What holds of each port that an object can report holds of all ports that come of objects. -/
theorem Draws.forall_ports
    (made : ∀ f, reported f → ∀ (kind : Value), ∀ x ∈ f.port? kind, p x)
    (clocked : ∀ f, reported f → p f.clockPort) :
    ∀ {o : SimObject} {ports : List Graph.PortFacts} {below : List Sketch}, Draws o ports below →
      (∀ f ∈ o.reports, reported f) →
        (∀ x ∈ ports, p x) ∧ ∀ e ∈ Sketch.entriesAmong below, ∀ x ∈ e.2, p x
  | _, _, _, .passed _, _ => ⟨nofun, nofun⟩
  | _, _, _, .module _ _ inner, all => by
    rw [reports, List.forall_mem_cons, List.forall_mem_append] at all
    have below := inner.forall_ports made clocked all.2.2
    refine ⟨nofun, ?_⟩
    simp only [Sketch.entriesAmong, Sketch.entries, List.append_nil, List.forall_mem_cons]
    exact below
  | _, _, _, .clock _, all => by
    refine ⟨nofun, ?_⟩
    simp only [Sketch.entriesAmong, Sketch.entries, List.append_nil, List.forall_mem_cons]
    exact ⟨⟨clocked _ (reports_self all).1, nofun⟩, nofun⟩
  | _, _, _, .port _, all =>
    ⟨fun x hx => made _ (reports_self all).1 _ x (Option.mem_toList.mp hx), nofun⟩
  | _, _, _, .socket _, all => by
    refine ⟨fun x hx => ?_, nofun⟩
    obtain ⟨face, listed, hx⟩ := List.mem_filterMap.mp hx
    exact made _ ((reports_self all).2.1 face listed) _ x hx

theorem DrawsAmong.forall_ports
    (made : ∀ f, reported f → ∀ (kind : Value), ∀ x ∈ f.port? kind, p x)
    (clocked : ∀ f, reported f → p f.clockPort) :
    ∀ {os : List SimObject} {ports : List Graph.PortFacts} {below : List Sketch},
      DrawsAmong os ports below → (∀ f ∈ reportsAmong os, reported f) →
        (∀ x ∈ ports, p x) ∧ ∀ e ∈ Sketch.entriesAmong below, ∀ x ∈ e.2, p x
  | _, _, _, .nil, _ => ⟨nofun, nofun⟩
  | _, _, _, .cons first rest, all => by
    rw [reportsAmong, List.forall_mem_append] at all
    have here := first.forall_ports made clocked all.1
    have there := rest.forall_ports made clocked all.2
    rw [Sketch.entriesAmong_append, List.forall_mem_append, List.forall_mem_append]
    exact ⟨⟨here.1, there.1⟩, here.2, there.2⟩

end

end Ports

end SimObject

namespace Survey

open SimObject Schematic.Action

variable {rules : SurveyRules} {y : Yield}

mutual

/-- What comes of the script of an object is one of the things that can come of the object. -/
theorem draws_script : ∀ (o : SimObject) (level : Nat) (y : Yield),
    yieldAll (script rules level o) = .ok y → o.Draws y.ports y.below
  | .mk facts children faces, level, y, made => by
    rw [script, yieldAll_heading] at made
    cases found : Kind.classify rules.isIgnored facts.kind with
    | error e =>
      rw [found] at made
      cases made
    | ok role =>
      have shown := shownRole_of_classify found
      rw [found] at made
      cases role with
      | module =>
        simp only [reduceCtorEq, or_self, and_false, or_false] at shown
        rw [yieldAll_singleton, Step.yield] at made
        obtain ⟨z, inner, rfl⟩ := exists_of_map_ok made
        exact .module faces shown (draws_scriptAmong children (level + 1) [] z inner)
      | clock =>
        simp only [reduceCtorEq, or_self, and_false, or_false] at shown
        rw [yieldAll_singleton, Step.yield, yieldAll_clockScript, Yield.map_ifWritten] at made
        obtain rfl := Yield.eq_of_ifWritten made
        exact .clock (o := .mk facts children faces) shown
      | port =>
        simp only [reduceCtorEq, or_self, and_false, or_false] at shown
        rw [yieldAll_portScript] at made
        obtain rfl := Yield.eq_of_ifWritten made
        exact .port (o := .mk facts children faces) shown
      | socket =>
        simp only [reduceCtorEq, or_self, and_false, or_false] at shown
        rw [yieldAll_socketScript] at made
        obtain ⟨a, b, faced, named, rfl⟩ := Yield.join_eq_ok made
        obtain rfl := Yield.eq_of_ifWritten faced
        obtain ⟨_, -, rfl⟩ := exists_of_map_ok named
        rw [Yield.append_empty]
        exact .socket (o := .mk facts children faces) shown
      | bookkeeping =>
        cases made
        exact .passed _
      | unknown =>
        rw [yieldAll_singleton, Step.yield] at made
        obtain rfl := Yield.eq_of_ifWritten made
        exact .passed _

theorem draws_scriptAmong : ∀ (os : List SimObject) (level : Nat) (stems : List Text) (y : Yield),
    yieldAll (scriptAmong rules level stems os) = .ok y → DrawsAmong os y.ports y.below
  | [], _, _, _, made => by
    cases made
    exact .nil
  | o :: os, level, stems, y, made => by
    rw [scriptAmong] at made
    cases hidden : isHidden rules stems o.facts.basename with
    | error e =>
      rw [hidden] at made
      cases made
    | ok skipped =>
      rw [hidden] at made
      cases skipped with
      | true => exact .cons (.passed o) (draws_scriptAmong os level stems y made)
      | false =>
        dsimp only at made
        rw [yieldAll_append] at made
        obtain ⟨a, b, first, rest, rfl⟩ := Yield.join_eq_ok made
        exact .cons (draws_script o level a first) (draws_scriptAmong os level _ b rest)

end

/-- A survey of a forest: a tree with a root that stands for the forest or is its only object, and
below it what can come of the objects inside. The walk over the tree meets the components in the
order in which they were made. -/
structure IsDraftOf (objects : List SimObject) (s : Survey) : Prop where
  built : s.graph.IsBuilt
  tree : ∃ top ports below, (top = standIn objects ∨ objects = [top]) ∧
    DrawsAmong top.children ports below ∧
      s.graph.outline.map s.graph.sketch = some (.unit top.label ports below)
  order : s.graph.components = s.graph.roster

theorem ends_surveyForest {options : SurveyOptions} {objects : List SimObject} :
    (surveyForest options objects).Ends {} fun _ s => s.IsDraftOf objects := by
  cases ruled : options.rules with
  | error e =>
    rw [surveyForest_eq, ruled]
    exact nofun
  | ok rules =>
    cases found : singleRoot? rules objects with
    | error e =>
      rw [surveyForest_eq, ruled, of_ok_bind, found]
      exact nofun
    | ok top? =>
      refine (renders_surveyForest ruled found).ends.weaken ?_
      rintro _ s ⟨y, made, drawn⟩
      have root : top?.getD (standIn objects) = standIn objects ∨
          objects = [top?.getD (standIn objects)] := by
        cases top? with
        | none => exact .inl rfl
        | some top => exact .inr (eq_of_singleRoot? found)
      exact ⟨drawn.built, ⟨_, _, _, root, draws_scriptAmong _ 1 [] y made, drawn.tree⟩,
        drawn.order⟩

end Survey

theorem drafts_surveyOf {σ : Type} {options : SurveyOptions} {objects : List SimObject} {s : σ}
    {survey : Survey} (surveyed : (surveyOf options objects s).answer = .ok survey) :
    survey.IsDraftOf objects := by
  obtain ⟨x, walked, answered⟩ := Action.exists_of_bind_answer surveyed
  cases answered
  obtain ⟨done, state⟩ := Action.of_apart_answer walked
  rw [state]
  exact Survey.ends_surveyForest _ done

end Schematic
