import Schematic.Proofs.Graph.Admission
import Schematic.Proofs.Graph.Growth
import Schematic.Proofs.Graph.Keys
import Schematic.Proofs.PassThrough.Demand
import Schematic.Proofs.Survey.Need

/-! A run of inference at any moment, whether or not it comes to its end. It works on a graph with
the tree and the old ports of the first one, and each port that it adds is one that a binding of the
first graph needs and does not have yet. -/

namespace Schematic.Graph

inductive IsUnderway (g : Graph) : Graph → Prop where
  | start : g.IsUnderway g
  | add {h : Graph} {a b : ComponentKey} {d r : PortKey} {crumb : Crumb}
      (before : g.IsUnderway h) (links : g.Links d r a b) (crossing : g.IsCrossing a b crumb)
      (free : h.portFor crumb.component (g.port r).identity = none) :
      g.IsUnderway (h.insertDemand (g.demandAt d r crumb))

variable {g h : Graph} {a b : ComponentKey} {d r : PortKey} {crumb : Crumb} {facts : PortFacts}

theorem eq_of_passThroughFacts (found : g.passThroughFacts d r crumb = .ok facts) :
    facts = (g.demandAt d r crumb).facts := by
  obtain ⟨name, named, found⟩ := exists_of_bind_ok found
  obtain ⟨basename, titled, found⟩ := exists_of_bind_ok found
  cases Value.eq_of_written named
  cases Value.eq_of_written titled
  cases found
  rfl

theorem Links.port_lt (links : g.Links d r a b) (hg : g.Coherent) :
    d.index < g.arena.ports.size ∧ r.index < g.arena.ports.size :=
  ⟨hg.port_index_lt (hg.owned links.start links.drives).1,
    hg.port_index_lt (hg.owned links.goal links.receives).1⟩

namespace IsUnderway

theorem grown (now : g.IsUnderway h) (hg : g.IsBuilt) : g.Extends h ∧ h.IsBuilt := by
  induction now with
  | start => exact ⟨.refl g, hg⟩
  | add _ links crossing _ ih =>
    obtain ⟨grown, built⟩ := ih
    have inside := grown.roster ▸ crossing.mem_roster links.start links.goal
    exact ⟨grown.trans (.insertPort (built.coherent.index_lt inside) _), .port _ built inside⟩

theorem passThroughAt (now : g.IsUnderway h) (hg : g.IsBuilt) (links : g.Links d r a b)
    (crossing : g.IsCrossing a b crumb) : g.IsUnderway (Graph.passThroughAt d r crumb h).state := by
  obtain ⟨grown, built⟩ := now.grown hg
  obtain ⟨driver, receiver⟩ := links.port_lt hg.coherent
  unfold Graph.passThroughAt
  refine Action.leaves_bind now fun i read => ?_
  cases read
  rw [grown.port receiver]
  cases free : h.portFor crumb.component (g.port r).identity with
  | some _ => exact now
  | none =>
    refine Action.leaves_bind now fun facts made => ?_
    have asked := eq_of_passThroughFacts made
    rw [grown.demandAt_eq driver receiver crumb] at asked
    subst asked
    have inside := grown.roster ▸ crossing.mem_roster links.start links.goal
    have added : g.IsUnderway (addPort crumb.component (g.demandAt d r crumb).facts h).state := by
      rw [addPort_granted built.coherent inside]
      exact .add now links crossing free
    exact Action.leaves_bind added fun _ _ => added

theorem total {α : Type} {act : α → Action Graph Nat} (items : List α)
    (step : ∀ a ∈ items, ∀ h, g.IsUnderway h → g.IsUnderway (act a h).state)
    (now : g.IsUnderway h) : g.IsUnderway (Graph.total act items h).state := by
  induction items generalizing h with
  | nil => exact now
  | cons a items ih =>
    rw [List.forall_mem_cons] at step
    refine Action.leaves_bind (step.1 h now) fun n _ => ?_
    exact Action.leaves_bind (ih step.2 (step.1 h now)) fun m _ => ih step.2 (step.1 h now)

theorem bridge (now : g.IsUnderway h) (hg : g.IsBuilt) (links : g.Links d r a b) :
    g.IsUnderway (Graph.bridge d r h).state := by
  obtain ⟨grown, built⟩ := now.grown hg
  have cohered := hg.coherent
  unfold Graph.bridge
  refine Action.leaves_bind now fun i read => ?_
  cases read
  refine Action.leaves_bind now fun start left => Action.leaves_bind now fun goal right => ?_
  have first : h.owner d = .ok a := (grown.owner_eq cohered built.coherent links.start
    links.drives).trans (cohered.owner_eq links.start links.drives)
  have last : h.owner r = .ok b := (grown.owner_eq cohered built.coherent links.goal
    links.receives).trans (cohered.owner_eq links.goal links.receives)
  cases first.symm.trans left
  cases last.symm.trans right
  by_cases same : a = b
  · rw [if_pos same]
    exact now
  · rw [if_neg same]
    refine Action.leaves_bind now fun found known => ?_
    obtain ⟨trail, walked, route⟩ := cohered.trail_eq links.start links.goal
    have all : h.trail a b = .ok (some trail) :=
      (grown.trail_eq cohered built.coherent links.start links.goal).trans walked
    cases all.symm.trans known
    exact now.total _ fun crumb hc h now =>
      now.passThroughAt hg links ((cohered.mem_crossings route).mp hc)

end IsUnderway

/-- Wherever a run of inference stops, it has only added ports that its bindings need. -/
theorem IsBuilt.isUnderway (hg : g.IsBuilt) (keyed : g.IsKeyed) :
    g.IsUnderway (addPassThroughs g).state := by
  have cohered := hg.coherent
  have hashable : ∀ q ∈ g.ports, (g.port q).identity.isHashable = true := by
    intro q hq
    obtain ⟨k, hk, listed⟩ := cohered.mem_ports.mp hq
    exact keyed.ofPort hk listed
  unfold addPassThroughs
  refine Action.leaves_bind .start fun i read => ?_
  cases read
  obtain ⟨bs, found, sorted⟩ := bindings_sorted fun q hq => hashable q (List.mem_filter.mp hq).1
  refine Action.leaves_bind .start fun bs' found' => ?_
  cases found'.symm.trans found
  have bridged : g.IsUnderway (total (fun x => bridge x.1 x.2)
      (bs.flatMap fun b => b.pairs g) g).state := by
    refine IsUnderway.start.total _ fun pair paired h now => ?_
    obtain ⟨a, b, links⟩ := ((sorted.mem_pairs hashable).mp paired).exists_links cohered
    exact now.bridge hg links
  exact Action.leaves_bind bridged fun _ _ => bridged

end Schematic.Graph
