import Schematic.Proofs.Audit.Verdict
import Schematic.Proofs.Survey.Ports
import Schematic.Snapshot.Builder

/-! Extraction and the validator together: what is extracted from objects in order passes all
checks. Two things alone can get in the way, a direction and an identity with a number that is too
long to be written, where a message is to tell of them. -/

namespace Schematic

/-- A graph with a root that inference and the validator can go on with. -/
structure Graph.IsReady (allowed : Bindable) (g : Graph) : Prop extends g.Sound where
  names : g.HasPortNames
  identities : ∀ k ∈ g.roster, ∀ f ∈ g.factsOf k, allowed.holds f.identity
  rooted : ∃ r, g.register.root = some r

namespace Graph

variable {allowed : Bindable} {g h : Graph} {added : List Demand}

theorem IsReady.inferred (ready : g.IsReady allowed) (run : g.Inferred h added) :
    h.IsReady allowed := by
  have f := run.follows
  have old {k : ComponentKey} (hk : k ∈ h.roster) : k ∈ g.roster := f.roster ▸ hk
  have split {k : ComponentKey} (hk : k ∈ h.roster) {p : PortFacts} (hp : p ∈ h.factsOf k) :
      p ∈ g.factsOf k ∨ p.name.isWritable = true ∧ allowed.holds p.identity := by
    rw [run.inserted] at hp
    rcases (mem_factsOf_insertAll ready.coherent run.fits (old hk)).mp hp with
      known | ⟨y, hy, -, rfl⟩
    · exact .inl known
    · obtain ⟨d, r, a, b, crumb, links, -, rfl⟩ :=
        (mem_demands ready.coherent ready.ordinary).mp (run.supply.mem hy)
      refine .inr ⟨Value.isWritable_text _, ?_⟩
      exact ready.identities b links.goal (g.port r).facts (List.mem_map_of_mem links.receives)
  constructor
  · exact ⟨f.coherent, run.ordinary⟩
  · intro k hk p hp
    exact (split hk hp).elim (ready.names k (old hk) p) And.left
  · intro k hk p hp
    exact (split hk hp).elim (ready.identities k (old hk) p) And.right
  · obtain ⟨r, root⟩ := ready.rooted
    exact ⟨r, f.root.trans root⟩

theorem IsReady.canWarn (ready : g.IsReady .writable) : g.CanWarn := by
  intro bs made b hb _
  rcases bindingsOf_identity made b hb with ⟨c, hc, -⟩ | ⟨p, hp, same⟩
  · cases hc
  · obtain ⟨k, hk, listed⟩ := ready.coherent.mem_ports.mp (List.mem_filter.mp hp).1
    exact same ▸ (ready.identities k hk _ (List.mem_map_of_mem listed)).2

end Graph

structure Graph.PortFacts.InOrder (allowed : Bindable) (facts : Graph.PortFacts) : Prop where
  name : facts.name.isWritable = true
  basename : facts.basename.isWritable = true
  identity : facts.identity.IsIdentity ∧ allowed.holds facts.identity

variable {σ : Type} {allowed : Bindable} {marker : Text} {ignored : List Text}
  {objects : List SimObject} {g : Graph}

theorem ObjectFacts.InOrder.isSortable {facts : ObjectFacts} (order : facts.InOrder allowed)
    (ignored : List Text) : facts.IsSortable ignored :=
  ⟨order.basename, .inl order.kind⟩

theorem ObjectFacts.InOrder.binding {facts : ObjectFacts} (order : facts.InOrder allowed) :
    facts.binding.IsIdentity ∧ allowed.holds facts.binding := by
  unfold ObjectFacts.binding
  split
  · next key => exact ⟨⟨key, allowed.proper order.identity⟩, order.identity⟩
  · exact ⟨⟨rfl, rfl⟩, allowed.null⟩

theorem SimObject.makes_inOrder (allowed : Bindable) : Makes (ObjectFacts.InOrder allowed)
    (fun label => label.name.isWritable = true) (Graph.PortFacts.InOrder allowed) where
  label := fun order _ => order.name
  standIn := fun _ => Value.isWritable_text _
  port := fun order _ made => by
    obtain ⟨direction, -, rfl⟩ := Option.map_eq_some_iff.mp made
    exact ⟨order.name, order.basename.isWritable, order.binding⟩
  clock := fun order _ => ⟨Value.isWritable_text _, order.basename.isWritable, order.binding⟩

/-- What a survey makes of objects in order. -/
theorem Survey.FollowsPlan.isReady {s : Survey} (follows : s.FollowsPlan marker ignored objects)
    (order : ∀ f ∈ SimObject.reportsAmong objects, f.InOrder allowed) :
    s.graph.IsReady allowed := by
  have only := follows.hasOnly (SimObject.makes_inOrder allowed) order
  refine ⟨⟨follows.built.coherent, only.label, ?_, ?_⟩, ?_, ?_, ?_⟩
  · exact fun k hk f hf => (only.ports k hk f hf).basename
  · exact fun k hk f hf => (only.ports k hk f hf).identity.1
  · exact fun k hk f hf => (only.ports k hk f hf).name
  · exact fun k hk f hf => (only.ports k hk f hf).identity.2
  · obtain ⟨o, outlined, -⟩ := Option.map_eq_some_iff.mp follows.tree
    obtain ⟨r, root, -⟩ := Option.map_eq_some_iff.mp outlined
    exact ⟨r, root⟩

open Schematic.Action

theorem needs_surveyOf (marker : Text) (ignored : List Text)
    (order : ∀ f ∈ SimObject.reportsAmong objects, f.InOrder allowed) (s : σ) :
    (surveyOf ⟨.text marker, .list (ignored.map .text)⟩ objects).Needs s
      (∀ f ∈ Survey.portsOfForest ⟨.text marker, Kind.bookkeeping.map .text ++ ignored.map .text⟩
        objects, Survey.CanReport f)
      fun survey _ => survey.graph.IsReady allowed := by
  have sorted : ∀ f ∈ SimObject.reportsAmong objects, f.IsSortable ignored := fun f hf =>
    (order f hf).isSortable ignored
  have seen : ∀ o ∈ SimObject.visited ignored marker objects,
      ∀ f ∈ o.reports, f.InOrder allowed := by
    refine SimObject.forall_visitsAmong _ (SimObject.forall_visibleAmong [] _ ?_)
    exact Survey.reports_rootOf order
  refine ((follows_surveyOf objects marker ignored sorted s).weaken
    fun _ _ follows => follows.isReady order).congr ?_
  rw [Survey.portsOfForest_eq ⟨rfl, List.map_append.symm⟩ sorted, List.forall_mem_flatMap]
  exact forall₂_congr fun o ho => Survey.isTellable_iff_canReport (seen o ho)

theorem needs_addPassThroughs (ready : g.IsReady allowed) :
    Graph.addPassThroughs.Needs g True fun _ h => h.IsReady allowed ∧ h.IsClosed := by
  obtain ⟨h, added, run, -⟩ := ready.toSound.exists_inferred
  refine ⟨fun _ => ⟨_, run.answer, ?_⟩, fun h => absurd trivial h⟩
  rw [run.state]
  exact ⟨ready.inferred run, run.isClosed ready.coherent⟩

theorem needs_extract (marker : Text) (ignored : List Text)
    (order : ∀ f ∈ SimObject.reportsAmong objects, f.InOrder allowed) (s : σ) :
    (extract ⟨.text marker, .list (ignored.map .text)⟩ objects).Needs s
      (∀ f ∈ Survey.portsOfForest ⟨.text marker, Kind.bookkeeping.map .text ++ ignored.map .text⟩
        objects, Survey.CanReport f)
      fun g _ => g.IsReady allowed ∧ g.IsClosed := by
  have surveyed := needs_surveyOf marker ignored order s
  refine (surveyed.bind fun survey s' ready => ?_).congr (iff_of_eq (and_true _))
  exact ((needs_addPassThroughs ready).apart s').andThen fun _ _ done => needs_pure done

/-- What is extracted from objects in order passes all checks of the validator, driver and receiver
by driver and receiver, ports that were synthesized included. Extraction fails exactly if something
that is taken for a port has no direction and reports instead a value with a number too long to be
written; the validator fails exactly if a binding that deserves a warning has such an identity. -/
theorem extracted_graphs_pass (objects : List SimObject) (marker : Text) (ignored : List Text)
    (order : ∀ f ∈ SimObject.reportsAmong objects, f.InOrder .anything) (s t : σ) :
    ∃ forest rules, SimObject.withNames objects = .ok forest ∧
      (SurveyOptions.mk (.text marker) (.list (ignored.map .text))).rules = .ok rules ∧
      (extract ⟨.text marker, .list (ignored.map .text)⟩ forest).Needs s
        (∀ f ∈ Survey.portsOfForest rules forest, Survey.CanReport f) fun g _ =>
          ((Audit.validate g).Needs t g.CanWarn fun report _ => Audit.Approves g report) ∧
            ((∀ f ∈ SimObject.reportsAmong objects, f.identity.isWritable = true) →
              g.CanWarn) := by
  obtain ⟨named, sound⟩ := SimObject.withNames_inOrder order
  have ruled := rules_of_texts marker ignored
  refine ⟨_, _, named, ruled, ?_⟩
  have passes := (needs_extract marker ignored sound s).weaken fun g _ done => by
    obtain ⟨r, root⟩ := done.1.rooted
    exact Audit.needs_validate_closed done.1.toSound root done.1.names done.2 t
  by_cases writable : ∀ f ∈ SimObject.reportsAmong objects, f.identity.isWritable = true
  · have strict : ∀ f ∈ SimObject.reportsAmong objects, f.InOrder .writable := fun f hf =>
      { order f hf with identity := ⟨(order f hf).identity, writable f hf⟩ }
    have tells := (needs_extract marker ignored (SimObject.withNames_inOrder strict).2 s).weaken
      fun g _ done => fun _ : ∀ f ∈ SimObject.reportsAmong objects, f.identity.isWritable = true =>
        done.1.canWarn
    exact passes.and tells
  · exact passes.weaken fun g _ done => ⟨done, fun all => absurd all writable⟩

/-- A module with a driver two levels below it, a receiver one level below it, and a clock. -/
def capturedBranches : List SimObject :=
  [.module (.text "top")
    [.module (.text "a") [.module (.text "b")
        [.port (.text "o") (.text "sc_out") (.text "output") (.text "s")]],
      .module (.text "c") [.port (.text "i") (.text "sc_in") (.text "input") (.text "s"),
        .port (.text "x") (.text "sc_in") (.int 3) (.list [])],
      .clock (.text "clk")]]

theorem extracted_graphs_pass_for_branches :
    (∀ f ∈ SimObject.reportsAmong capturedBranches, f.InOrder .anything) ∧
      ∃ forest g report, SimObject.withNames capturedBranches = .ok forest ∧
        (extract ⟨.text "$$$", .list []⟩ forest ()).answer = .ok g ∧
        (Audit.validate g ()).answer = .ok report ∧ Audit.Approves g report := by
  have order : ∀ f ∈ SimObject.reportsAmong capturedBranches, f.InOrder .anything := by
    simp only [capturedBranches, SimObject.reportsAmong, SimObject.module, SimObject.port,
      SimObject.clock, SimObject.ofFacts, SimObject.reports, List.map_nil, List.nil_append,
      List.append_nil, List.cons_append, List.forall_mem_cons, List.not_mem_nil, false_implies,
      implies_true, and_true]
    and_intros <;> exact ⟨⟨_, rfl⟩, ⟨_, rfl⟩, Value.isWritable_text _, rfl⟩
  refine ⟨order, ?_⟩
  obtain ⟨forest, rules, named, ruled, passes⟩ :=
    extracted_graphs_pass capturedBranches "$$$" [] order () ()
  cases named.symm.trans (SimObject.withNames_inOrder order).1
  cases ruled.symm.trans (rules_of_texts "$$$" [])
  have directed : (Survey.portsOfForest ⟨.text "$$$", Kind.bookkeeping.map .text ++ []⟩
      (SimObject.nameForest capturedBranches)).all (fun f => f.direction.isWritable) = true := by
    decide +kernel
  have bound : (SimObject.reportsAmong capturedBranches).all
      (fun f => f.identity.isWritable) = true := by
    decide +kernel
  rw [List.all_eq_true] at directed bound
  obtain ⟨g, extracted, checks, warns⟩ := passes.answers fun f hf _ => directed f hf
  obtain ⟨report, validated, approved⟩ := checks.answers (warns bound)
  exact ⟨_, g, report, named, extracted, validated, approved⟩

end Schematic
