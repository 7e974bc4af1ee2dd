import Schematic.Proofs.Audit.Verdict

/-! The validator and inference agree on what is missing. The validator looks at a shortest way over
the containment relation and at depths, inference at the trail of a search; both come to the
components that a binding crosses without a port there. -/

namespace Schematic

def Addition.IsSpelled : Addition → Prop
  | component name _ _ _ => name.IsText
  | port _ facts => facts.name.IsText ∧ facts.basename.IsText ∧ facts.identity.IsIdentity

namespace Graph

variable {g h : Graph} {a : Addition} {additions : List Addition} {k : ComponentKey}

structure IsSpelled (g : Graph) : Prop extends g.Sound where
  components : ∀ k ∈ g.roster, (g.component k).name.IsText
  ports : ∀ k ∈ g.roster, ∀ f ∈ g.factsOf k, f.name.IsText

theorem isSpelled_grow (spelled : ∀ a ∈ additions, a.IsSpelled) :
    (({} : Graph).grow additions).IsSpelled := by
  have named : (({} : Graph).grow additions).HasOnly (fun label => label.name.IsText)
      fun f => f.name.IsText := by
    refine hasOnly_empty.grow .empty fun a ha => ?_
    cases a with
    | component => exact spelled _ ha
    | port => exact (spelled _ ha).1
  have sound : (({} : Graph).grow additions).Sound := by
    refine sound_empty.grow fun a ha => ?_
    cases a with
    | component => exact (spelled _ ha).isWritable
    | port => exact ⟨(spelled _ ha).2.1.isWritable, (spelled _ ha).2.2⟩
  exact ⟨sound, named.label, named.ports⟩

end Graph

namespace Audit

open Schematic.Graph

variable {g h : Graph} {added : List Demand} {k : ComponentKey} {identity : Value} {σ : Type}

theorem canReport_of_spelled (hg : g.IsSpelled) : CanReport g where
  names := fun k hk f hf => (hg.ports k hk f hf).isWritable
  lacking := fun d r joins k hk => by
    obtain ⟨a, b, links⟩ := joins.exists_links hg.coherent
    obtain ⟨u, crossing⟩ := (hg.coherent.exists_crossing links.start links.goal).mpr
      ((mem_lacking hg.coherent links).mp hk).1
    exact hg.components k (crossing.mem_roster links.start links.goal)

theorem lacks_iff {d r : PortKey} {a b : ComponentKey} (hg : g.Sound) (hk : k ∈ g.roster)
    (proper : identity.IsIdentity) (links : g.Links d r a b)
    (same : (g.port r).identity.equal identity = true) :
    k ∈ lacking g d r ↔ g.Crosses k a b ∧
      ∀ q ∈ g.portsOf k, (g.port q).identity.equal identity = false := by
  have receiver := hg.ordinary.identified b links.goal r links.receives
  have known := (Value.equal_iff receiver proper).mp same
  have bound : identity.isNull = false := by
    rw [← Bool.not_eq_true, Value.isNull_iff proper.1, ← known]
    exact links.bound
  rw [mem_lacking hg.coherent links, hg.ordinary.isKeyed.portFor_eq hk receiver.1 proper.1 known,
    portFor_eq_none_iff_forall bound]

/-- A component lacks a port of an identity, by some driver and receiver, exactly if inference adds
one to it. -/
theorem lacks_iff_new (hg : g.Sound) (run : g.Inferred h added) (hk : k ∈ g.roster)
    (proper : identity.IsIdentity) :
    (∃ x ∈ g.endPairs, k ∈ lacking g x.1 x.2 ∧ (g.port x.2).identity.equal identity = true) ↔
      ∃ q, g.IsNew h k q ∧ (h.port q).identity.equal identity = true := by
  rw [run.needed hg hk proper]
  constructor
  · rintro ⟨⟨d, r⟩, paired, lacks, same⟩
    have joins := (mem_endPairs hg.coherent hg.ordinary).mp paired
    obtain ⟨a, b, links⟩ := joins.exists_links hg.coherent
    obtain ⟨crosses, absent⟩ := (lacks_iff hg hk proper links same).mp lacks
    obtain ⟨-, start, goal⟩ := (links_iff hg.coherent).mp links
    exact ⟨absent, d, r, a, b, ⟨joins, start, goal, crosses⟩, same⟩
  · rintro ⟨absent, d, r, a, b, at_crossing, same⟩
    have links := (links_iff hg.coherent).mpr
      ⟨at_crossing.toJoins, at_crossing.start, at_crossing.goal⟩
    refine ⟨(d, r), (mem_endPairs hg.coherent hg.ordinary).mpr at_crossing.toJoins, ?_, same⟩
    exact (lacks_iff hg hk proper links same).mpr ⟨at_crossing.crosses, absent⟩

/-- Nothing lacks a port exactly if inference adds none. -/
theorem lacks_none_iff (hg : g.Sound) (run : g.Inferred h added) :
    (∀ x ∈ g.endPairs, lacking g x.1 x.2 = []) ↔ added = [] := by
  constructor
  · intro none
    refine List.eq_nil_iff_forall_not_mem.mpr fun y hy => ?_
    have fit := run.fits y hy
    obtain ⟨q, new, facts⟩ := run.new_of_demand hg.coherent hy
    have identical : (h.port q).identity = y.facts.identity := congrArg PortFacts.identity facts
    have same : (h.port q).identity.equal y.facts.identity = true := by
      rw [identical]
      exact (Value.equal_iff fit.proper fit.proper).mpr rfl
    obtain ⟨x, hx, lacks, -⟩ := (lacks_iff_new hg run fit.inside fit.proper).mpr ⟨q, new, same⟩
    rw [none x hx] at lacks
    cases lacks
  · rintro rfl ⟨d, r⟩ paired
    have joins := (mem_endPairs hg.coherent hg.ordinary).mp paired
    obtain ⟨a, b, links⟩ := joins.exists_links hg.coherent
    have proper := hg.ordinary.identified b links.goal r links.receives
    refine List.eq_nil_iff_forall_not_mem.mpr fun c hc => ?_
    have crosses := ((mem_lacking hg.coherent links).mp hc).1
    obtain ⟨u, crossing⟩ := (hg.coherent.exists_crossing links.start links.goal).mpr crosses
    have hk : c ∈ g.roster := crossing.mem_roster links.start links.goal
    have self := (Value.equal_iff proper proper).mpr rfl
    obtain ⟨q, new, -⟩ := (lacks_iff_new hg run hk proper).mp ⟨(d, r), paired, hc, self⟩
    obtain ⟨y, hy, -⟩ := run.demand_of_new hg.coherent hk new
    cases hy

theorem failures_eq {report : Report} (judges : Judges g report) : report.failures =
    (g.endPairs.filter fun x => !(lacking g x.1 x.2).isEmpty).map fun x => gap g x.1 x.2 := by
  have serious : (fun f : Finding => f.severity.isFail) ∘ (fun x => verdict g x.1 x.2) =
      fun x : PortKey × PortKey => !(lacking g x.1 x.2).isEmpty := by
    funext x
    simp only [Function.comp_apply, verdict]
    cases (lacking g x.1 x.2).isEmpty <;> rfl
  rw [judges.failures, List.filter_map, serious]
  refine List.map_congr_left fun x hx => ?_
  rw [verdict, if_neg (by simpa using (List.mem_filter.mp hx).2)]

theorem failures_eq_nil_iff {report : Report} (judges : Judges g report) :
    report.failures = [] ↔ ∀ x ∈ g.endPairs, lacking g x.1 x.2 = [] := by
  rw [failures_eq judges, List.map_eq_nil_iff, List.filter_eq_nil_iff]
  simp

/-- On every graph with a root that additions have made, with texts as names, inference adds a port
of an identity to exactly those components that the validator reports to lack one. All that the
validator reports as failed are drivers and receivers with such components between them, each with
their names, and it reports none exactly if inference adds no port. The validator fails to report
exactly if a binding that deserves a warning has an identity too long to be written. -/
theorem validator_agrees_with_inference (additions : List Addition)
    (spelled : ∀ a ∈ additions, a.IsSpelled) {root : ComponentKey}
    (rooted : (({} : Graph).grow additions).register.root = some root) (s : σ) :
    let g := ({} : Graph).grow additions
    ∃ n h, (addPassThroughs.on g).answer = .ok n ∧ (addPassThroughs.on g).state = h ∧
      (validate g).Needs s g.CanWarn fun report _ =>
        report.failures = ((g.endPairs.filter fun x => !(lacking g x.1 x.2).isEmpty).map
          fun x => gap g x.1 x.2) ∧
        (∀ k ∈ g.roster, ∀ identity : Value, identity.IsIdentity →
          ((∃ x ∈ g.endPairs, k ∈ lacking g x.1 x.2 ∧
              (g.port x.2).identity.equal identity = true) ↔
            ∃ q, g.IsNew h k q ∧ (h.port q).identity.equal identity = true)) ∧
        (report.failures = [] ↔ n = 0) := by
  intro g
  have hg : g.IsSpelled := isSpelled_grow spelled
  obtain ⟨h, added, run, -⟩ := hg.toSound.exists_inferred
  have able : CanReport g := canReport_of_spelled hg
  refine ⟨added.length, h, run.answer, run.state, ?_⟩
  refine (needs_validate hg.toSound rooted able s).weaken fun report _ judges => ?_
  refine ⟨failures_eq judges, ?_, ?_⟩
  · exact fun k hk identity proper => lacks_iff_new hg.toSound run hk proper
  · rw [failures_eq_nil_iff judges, lacks_none_iff hg.toSound run, List.length_eq_zero_iff]

theorem validator_agrees_with_inference_between_branches :
    (∀ a ∈ twoBranches, a.IsSpelled) ∧
      (({} : Graph).grow twoBranches).register.root = some ⟨0⟩ ∧
      let g := ({} : Graph).grow twoBranches
      ∃ h report, (addPassThroughs.on g).answer = .ok 1 ∧ (addPassThroughs.on g).state = h ∧
        (validate g ()).answer = .ok report ∧ report.failures = [gap g ⟨0⟩ ⟨1⟩] ∧
          ∃ q, g.IsNew h ⟨1⟩ q ∧ (h.port q).identity.equal (.text "s") = true := by
  have spelled : ∀ a ∈ twoBranches, a.IsSpelled := by
    simp only [twoBranches, List.forall_mem_cons, Addition.IsSpelled]
    exact ⟨⟨_, rfl⟩, ⟨_, rfl⟩, ⟨_, rfl⟩, ⟨_, rfl⟩, ⟨⟨_, rfl⟩, ⟨_, rfl⟩, rfl, rfl⟩,
      ⟨⟨_, rfl⟩, ⟨_, rfl⟩, rfl, rfl⟩, List.forall_mem_nil _⟩
  have rooted : (({} : Graph).grow twoBranches).register.root = some ⟨0⟩ := by decide +kernel
  have writable : (({} : Graph).grow twoBranches).bindings.toOption.all
      (fun bs => bs.all fun b => b.identity.isWritable) = true := by
    decide +kernel
  have pairs : (({} : Graph).grow twoBranches).endPairs = [(⟨0⟩, ⟨1⟩)] := by decide +kernel
  have lacks : lacking (({} : Graph).grow twoBranches) ⟨0⟩ ⟨1⟩ = [⟨1⟩] := by decide +kernel
  have bound : ((({} : Graph).grow twoBranches).port ⟨1⟩).identity.equal (.text "s") = true := by
    decide +kernel
  have added : (addPassThroughs.on (({} : Graph).grow twoBranches)).answer.toOption = some 1 := by
    decide +kernel
  refine ⟨spelled, rooted, ?_⟩
  obtain ⟨n, h, answer, state, judged⟩ :=
    validator_agrees_with_inference twoBranches spelled rooted ()
  rw [answer] at added
  cases added
  obtain ⟨report, validated, failures, agrees, -⟩ := judged.answers fun bs made b hb _ => by
    rw [made] at writable
    exact List.all_eq_true.mp writable b hb
  rw [pairs, List.filter_cons_of_pos (by rw [lacks]; rfl)] at failures
  have known : (⟨1⟩ : ComponentKey) ∈ (({} : Graph).grow twoBranches).roster := by decide +kernel
  refine ⟨h, report, answer, state, validated, failures, ?_⟩
  exact (agrees ⟨1⟩ known (.text "s") ⟨rfl, rfl⟩).mp
    ⟨(⟨0⟩, ⟨1⟩), by rw [pairs]; exact List.mem_cons_self,
      by rw [lacks]; exact List.mem_cons_self, bound⟩

end Audit

end Schematic
