import Schematic.Proofs.PassThrough.Underway
import Schematic.Proofs.Survey.Refinement

/-! What holds of all that a survey makes, given what holds of the objects: of the components and
ports of the plan, hence of the graph, and of the ports that inference adds to it. -/

namespace Schematic

namespace SimObject

/-- What meets one condition makes components that meet another one and ports that meet a third
one. -/
structure Makes (p : ObjectFacts → Prop) (onLabel : Label → Prop)
    (onPort : Graph.PortFacts → Prop) : Prop where
  label : ∀ {o : SimObject}, p o.facts → o.facts.kind.IsText → onLabel o.label
  standIn : ∀ objects : List SimObject, onLabel (standIn objects).label
  port : ∀ {facts : ObjectFacts} {kind : Value} {f : Graph.PortFacts}, p facts → kind.IsText →
    facts.port? kind = some f → onPort f
  clock : ∀ {facts : ObjectFacts}, p facts → facts.kind.IsText → onPort facts.clockPort

variable {marker : Text} {ignored : List Text} {objects : List SimObject} {o : SimObject}
  {p : ObjectFacts → Prop} {onLabel : Label → Prop} {onPort : Graph.PortFacts → Prop}

mutual

theorem forall_visible : ∀ o : SimObject, (∀ f ∈ o.reports, p f) →
    ∀ f ∈ (visible marker o).reports, p f
  | mk facts children faces, all => by
    rw [reports, List.forall_mem_cons, List.forall_mem_append] at all
    rw [visible, reports, List.forall_mem_cons, List.forall_mem_append]
    exact ⟨all.1, all.2.1, forall_visibleAmong [] children all.2.2⟩

theorem forall_visibleAmong : ∀ seen os : List SimObject, (∀ f ∈ reportsAmong os, p f) →
    ∀ f ∈ reportsAmong (visibleAmong marker seen os), p f
  | _, [], _ => nofun
  | seen, o :: os, all => by
    rw [reportsAmong, List.forall_mem_append] at all
    rw [visibleAmong]
    split
    · exact forall_visibleAmong seen os all.2
    · rw [reportsAmong, List.forall_mem_append]
      exact ⟨forall_visible o all.1, forall_visibleAmong _ os all.2⟩

end

mutual

theorem forall_visits : ∀ o : SimObject, (∀ f ∈ o.reports, p f) →
    ∀ x ∈ visits ignored o, ∀ f ∈ x.reports, p f
  | mk facts children faces, all => by
    rw [visits, List.forall_mem_cons]
    refine ⟨all, ?_⟩
    rw [reports, List.forall_mem_cons, List.forall_mem_append] at all
    split
    · exact forall_visitsAmong children all.2.2
    · exact nofun

theorem forall_visitsAmong : ∀ os : List SimObject, (∀ f ∈ reportsAmong os, p f) →
    ∀ x ∈ visitsAmong ignored os, ∀ f ∈ x.reports, p f
  | [], _ => nofun
  | o :: os, all => by
    rw [reportsAmong, List.forall_mem_append] at all
    rw [visitsAmong, List.forall_mem_append]
    exact ⟨forall_visits o all.1, forall_visitsAmong os all.2⟩

end

namespace Makes

theorem portsMade (makes : Makes p onLabel onPort) (all : ∀ f ∈ o.reports, p f) :
    ∀ port ∈ o.portsMade ignored, onPort port := by
  obtain ⟨self, faces, -⟩ := reports_self all
  intro port made
  unfold SimObject.portsMade at made
  split at made
  · next role =>
    have text := ObjectFacts.isText_of_role role (by decide)
    exact makes.port self text (Option.mem_toList.mp made)
  · next role =>
    have text := ObjectFacts.isText_of_role role (by decide)
    obtain ⟨face, hface, made⟩ := List.mem_filterMap.mp made
    exact makes.port (faces face hface) text made
  · cases made

theorem portsAmong (makes : Makes p onLabel onPort) {os : List SimObject}
    (all : ∀ o ∈ os, ∀ f ∈ o.reports, p f) :
    ∀ port ∈ os.flatMap (SimObject.portsMade ignored), onPort port := by
  intro port made
  obtain ⟨o, ho, made⟩ := List.mem_flatMap.mp made
  exact makes.portsMade (all o ho) port made

theorem entry (makes : Makes p onLabel onPort) (all : ∀ f ∈ o.reports, p f)
    (unit : o.isUnit ignored = true) :
    onLabel (o.entry ignored).1 ∧ ∀ port ∈ (o.entry ignored).2, onPort port := by
  obtain ⟨self, -, children⟩ := reports_self all
  rw [isUnit, Bool.or_eq_true, beq_iff_eq, beq_iff_eq] at unit
  have text : o.facts.kind.IsText := by
    rcases unit with role | role
    · exact ObjectFacts.isText_of_role role (by decide)
    · exact ObjectFacts.isText_of_role role (by decide)
  unfold SimObject.entry
  split
  · exact ⟨makes.label self text, makes.portsAmong children⟩
  · exact ⟨makes.label self text, List.forall_mem_singleton.mpr (makes.clock self text)⟩

theorem rootOf (makes : Makes p onLabel onPort) (all : ∀ f ∈ reportsAmong objects, p f) :
    onLabel (rootOf marker objects).label := by
  unfold SimObject.rootOf
  split
  · next top =>
    split
    · next module =>
      have known : Kind.modules.contains top.facts.kindText = true :=
        (Bool.and_eq_true _ _ ▸ module).1
      have shown : Kind.shownRole? top.facts.kindText = some .module := if_pos known
      exact makes.label (reports_self (forall_reports all top List.mem_cons_self)).1
        (ObjectFacts.isText_of_shownRole shown)
    · exact makes.standIn _
  · exact makes.standIn _

theorem plan (makes : Makes p onLabel onPort) (all : ∀ f ∈ reportsAmong objects, p f) :
    ∀ e ∈ (plan ignored marker objects).entries, onLabel e.1 ∧ ∀ port ∈ e.2, onPort port := by
  have inner : ∀ f ∈ reportsAmong (inside marker objects), p f :=
    forall_visibleAmong [] _ (Survey.reports_rootOf all)
  rw [entries_plan, List.forall_mem_cons, List.forall_mem_map]
  constructor
  · exact ⟨makes.rootOf all, makes.portsAmong (forall_reports inner)⟩
  · intro o ho
    obtain ⟨visited, unit⟩ := List.mem_filter.mp ho
    exact makes.entry (forall_visitsAmong _ inner o visited) unit

end Makes

end SimObject

theorem Survey.FollowsPlan.hasOnly {s : Survey} {marker : Text} {ignored : List Text}
    {objects : List SimObject} {p : ObjectFacts → Prop} {onLabel : Label → Prop}
    {onPort : Graph.PortFacts → Prop} (follows : s.FollowsPlan marker ignored objects)
    (makes : SimObject.Makes p onLabel onPort) (all : ∀ f ∈ SimObject.reportsAmong objects, p f) :
    s.graph.HasOnly onLabel onPort := by
  have planned : ∀ k ∈ s.graph.roster, onLabel (s.graph.label k) ∧
      ∀ f ∈ s.graph.factsOf k, onPort f := by
    intro k hk
    have met : s.graph.entry k ∈ s.graph.components.map s.graph.entry :=
      List.mem_map_of_mem (follows.order ▸ hk)
    rw [follows.entries, ← SimObject.entries_plan] at met
    exact makes.plan all _ met
  exact ⟨fun k hk => (planned k hk).1, fun k hk => (planned k hk).2⟩

namespace Graph

variable {g h : Graph} {onLabel : Label → Prop} {onPort : PortFacts → Prop}

/-- Whatever a run of inference has added meets a condition on ports that a port passed on between
two such ports meets. -/
theorem IsUnderway.hasOnly (now : g.IsUnderway h) (hg : g.IsBuilt) (only : g.HasOnly onLabel onPort)
    (passed : ∀ d ∈ g.ports, ∀ r ∈ g.ports, onPort (g.port d).facts → onPort (g.port r).facts →
      ∀ crumb, onPort (g.demandAt d r crumb).facts.kept) : h.HasOnly onLabel onPort := by
  induction now with
  | start => exact only
  | add before links crossing _ ih =>
    obtain ⟨grown, built⟩ := before.grown hg
    have inside := grown.roster ▸ crossing.mem_roster links.start links.goal
    have driver := hg.coherent.mem_ports.mpr ⟨_, links.start, links.drives⟩
    have receiver := hg.coherent.mem_ports.mpr ⟨_, links.goal, links.receives⟩
    exact ih.done built.coherent (a := .port _ _) inside (passed _ driver _ receiver
      (only.ofPort hg.coherent driver) (only.ofPort hg.coherent receiver) _)

end Graph

end Schematic
