import Schematic.Proofs.PassThrough.History

/-! Inference adds exactly the ports that bindings need. -/

namespace Schematic.Graph

def IsNew (g h : Graph) (k : ComponentKey) (q : PortKey) : Prop := q ∈ h.portsOf k ∧ q ∉ g.portsOf k

/-- A driver and a receiver such that the way between their owners crosses a component. -/
structure CrossesAt (g : Graph) (k : ComponentKey) (d r : PortKey) (a b : ComponentKey) : Prop
    extends g.Joins d r where
  start : g.owner d = .ok a
  goal : g.owner r = .ok b
  crosses : g.Crosses k a b

/-- A port that passes a binding on at a component: an output like a driver below it whose receiver
is elsewhere, or an input like a receiver below it whose driver is elsewhere. -/
structure IsPassThrough (g : Graph) (k : ComponentKey) (p : Port) : Prop where
  synthesized : p.synthesized = true
  signal : p.signal = .null
  name : p.name = .text ((g.component k).name.plain ++ "." ++ p.basename.plain)
  source : ∃ d r a b, g.CrossesAt k d r a b ∧ p.identity = (g.port r).identity ∧
    (p.direction = .output ∧ p.basename = (g.port d).basename ∧
        p.typeName = (g.port d).typeName ∧ g.Encloses k a ∧ ¬ g.Encloses k b ∨
      p.direction = .input ∧ p.basename = (g.port r).basename ∧
        p.typeName = (g.port r).typeName ∧ g.Encloses k b ∧ ¬ g.Encloses k a)

/-- The second graph is the first one with the ports that its bindings need, and nothing else. -/
structure AddsExactly (g h : Graph) : Prop extends g.Extends h where
  coherent : h.Coherent
  needed : ∀ k ∈ g.roster, ∀ identity : Value, identity.IsIdentity →
    ((∃ q, g.IsNew h k q ∧ (h.port q).identity.equal identity = true) ↔
      (∀ q ∈ g.portsOf k, (g.port q).identity.equal identity = false) ∧
        ∃ d r a b, g.CrossesAt k d r a b ∧ (g.port r).identity.equal identity = true)
  single : ∀ k ∈ g.roster, ∀ p q, g.IsNew h k p → g.IsNew h k q →
    (h.port p).identity.equal (h.port q).identity = true → p = q
  made : ∀ k ∈ g.roster, ∀ q, g.IsNew h k q → g.IsPassThrough k (h.port q)
  none_at_root : ∀ k, g.register.root = some k → h.portsOf k = g.portsOf k

variable {g h : Graph} {a b k : ComponentKey} {d p q r : PortKey} {added : List Demand}

theorem links_iff (hg : g.Coherent) :
    g.Links d r a b ↔ g.Joins d r ∧ g.owner d = .ok a ∧ g.owner r = .ok b := by
  constructor
  · intro links
    exact ⟨links.toJoins, hg.owner_eq links.start links.drives,
      hg.owner_eq links.goal links.receives⟩
  · rintro ⟨joins, start, goal⟩
    obtain ⟨a', b', links⟩ := joins.exists_links hg
    rw [hg.owner_eq links.start links.drives] at start
    rw [hg.owner_eq links.goal links.receives] at goal
    cases start
    cases goal
    exact links

theorem crossesAt_iff (hg : g.Coherent) :
    g.CrossesAt k d r a b ↔ g.Links d r a b ∧ ∃ upwards, g.IsCrossing a b ⟨k, upwards⟩ := by
  constructor
  · intro h
    have links := (links_iff hg).mpr ⟨h.toJoins, h.start, h.goal⟩
    exact ⟨links, (hg.exists_crossing links.start links.goal).mpr h.crosses⟩
  · rintro ⟨links, crossing⟩
    obtain ⟨joins, start, goal⟩ := (links_iff hg).mp links
    exact ⟨joins, start, goal, (hg.exists_crossing links.start links.goal).mp crossing⟩

namespace Inferred

theorem new_ports (run : g.Inferred h added) (hg : g.Coherent) (hk : k ∈ g.roster) :
    ∃ new, h.portsOf k = g.portsOf k ++ new ∧ (∀ q, g.IsNew h k q ↔ q ∈ new) ∧
      new.map (fun q => (h.port q).facts) =
        (added.filter fun x => x.component = k).map Demand.facts := by
  obtain ⟨new, split⟩ := run.follows.portsOf k
  have distinct := run.follows.coherent.ports_nodup (run.follows.roster ▸ hk)
  rw [← split] at distinct
  have apart := (List.nodup_append.mp distinct).2.2
  refine ⟨new, split.symm, fun q => ?_, ?_⟩
  · rw [IsNew, ← split, List.mem_append]
    refine ⟨fun fresh => fresh.1.resolve_left fresh.2, fun hq => ⟨.inr hq, fun old => ?_⟩⟩
    exact apart q old q hq rfl
  · have old : (g.portsOf k).map (fun q => (h.port q).facts) = g.factsOf k := by
      refine List.map_congr_left fun q hq => ?_
      rw [run.follows.port (hg.port_index_lt (hg.owned hk hq).1)]
    have all := factsOf_insertAll hg run.fits hk
    rw [← run.inserted, factsOf, ← split, List.map_append, old] at all
    exact List.append_cancel_left all

theorem demand_of_new (run : g.Inferred h added) (hg : g.Coherent) (hk : k ∈ g.roster)
    (new : g.IsNew h k q) : ∃ y ∈ added, y.component = k ∧ y.facts = (h.port q).facts := by
  obtain ⟨ports, -, listed, same⟩ := run.new_ports hg hk
  have member : (h.port q).facts ∈ ports.map fun q => (h.port q).facts :=
    List.mem_map_of_mem ((listed q).mp new)
  rw [same] at member
  obtain ⟨y, hy, facts⟩ := List.mem_map.mp member
  obtain ⟨hy, here⟩ := List.mem_filter.mp hy
  exact ⟨y, hy, of_decide_eq_true here, facts⟩

theorem new_of_demand (run : g.Inferred h added) (hg : g.Coherent) {y : Demand} (hy : y ∈ added) :
    ∃ q, g.IsNew h y.component q ∧ (h.port q).facts = y.facts := by
  obtain ⟨ports, -, listed, same⟩ := run.new_ports hg (run.fits y hy).inside
  have member : y.facts ∈ (added.filter fun x => x.component = y.component).map Demand.facts :=
    List.mem_map_of_mem (List.mem_filter.mpr ⟨hy, decide_eq_true rfl⟩)
  rw [← same] at member
  obtain ⟨q, hq, facts⟩ := List.mem_map.mp member
  exact ⟨q, (listed q).mpr hq, facts⟩

theorem isPassThrough (run : g.Inferred h added) (hg : g.Sound) (hk : k ∈ g.roster)
    (new : g.IsNew h k q) : g.IsPassThrough k (h.port q) := by
  obtain ⟨y, hy, rfl, facts⟩ := run.demand_of_new hg.coherent hk new
  obtain ⟨d, r, a, b, crumb, links, crossing, rfl⟩ :=
    (Graph.mem_demands hg.coherent hg.ordinary).mp (run.supply.mem hy)
  have at_crossing : g.CrossesAt crumb.component d r a b :=
    (crossesAt_iff hg.coherent).mpr ⟨links, crumb.upwards, crossing⟩
  -- the record of the port field by field, as the demand has it
  have field {α : Type} (f : PortFacts → α) :
      f (h.port q).facts = f (g.demandAt d r crumb).facts := congrArg f facts.symm
  refine ⟨field PortFacts.synthesized, field PortFacts.signal, ?_, d, r, a, b, at_crossing,
    field PortFacts.identity, ?_⟩
  · have basename := field PortFacts.basename
    have name := field PortFacts.name
    simp only [Port.facts, demandAt] at basename name ⊢
    rw [name, basename]
  · have direction := field PortFacts.direction
    have basename := field PortFacts.basename
    have typeName := field PortFacts.typeName
    obtain ⟨-, -, side⟩ := crossing
    simp only [Port.facts, demandAt] at direction basename typeName side ⊢
    split at side
    · next up =>
      simp only [up, if_true] at direction basename typeName
      exact .inl ⟨direction, basename, typeName, side⟩
    · next down =>
      simp only [down, if_false, Bool.false_eq_true] at direction basename typeName
      exact .inr ⟨direction, basename, typeName, side⟩

theorem single (run : g.Inferred h added) (hg : g.Sound) (hk : k ∈ g.roster)
    (hp : g.IsNew h k p) (hq : g.IsNew h k q)
    (same : (h.port p).identity.equal (h.port q).identity = true) : p = q := by
  obtain ⟨ports, -, listed, facts⟩ := run.new_ports hg.coherent hk
  have here : k ∈ h.roster := run.follows.roster ▸ hk
  have meaning := (Value.equal_iff (run.ordinary.identified k here p hp.1)
    (run.ordinary.identified k here q hq.1)).mp same
  have distinct : (ports.map fun q => (h.port q).identity.meaning).Nodup := by
    have made : (ports.map fun q => (h.port q).identity.meaning) =
        (added.filter fun x => x.component = k).map fun x => x.facts.identity.meaning := by
      have meanings := congrArg (List.map fun f => f.identity.meaning) facts
      rwa [List.map_map, List.map_map] at meanings
    rw [made, List.Nodup, List.pairwise_map]
    refine (run.supply.distinct.filter _).imp_of_mem ?_
    intro x y hx hy other clash
    have hx := of_decide_eq_true (List.mem_filter.mp hx).2
    have hy := of_decide_eq_true (List.mem_filter.mp hy).2
    exact other (Prod.ext (hx.trans hy.symm) clash)
  exact List.inj_on_of_nodup_map distinct ((listed p).mp hp) ((listed q).mp hq) meaning

theorem needed (run : g.Inferred h added) (hg : g.Sound) (hk : k ∈ g.roster) {identity : Value}
    (proper : identity.IsIdentity) :
    (∃ q, g.IsNew h k q ∧ (h.port q).identity.equal identity = true) ↔
      (∀ q ∈ g.portsOf k, (g.port q).identity.equal identity = false) ∧
        ∃ d r a b, g.CrossesAt k d r a b ∧ (g.port r).identity.equal identity = true := by
  have free : (∀ q ∈ g.portsOf k, (g.port q).identity.equal identity = false) ↔
      ¬ g.Owns k identity.meaning := by
    simp only [Owns, not_exists, not_and]
    refine forall₂_congr fun q hq => ?_
    rw [← Value.equal_iff (hg.ordinary.identified k hk q hq) proper, Bool.not_eq_true]
  -- a new port is as some demand says, and a demand that nothing met before is met by a new port
  constructor
  · rintro ⟨q, new, same⟩
    obtain ⟨y, hy, rfl, facts⟩ := run.demand_of_new hg.coherent hk new
    have identical : (h.port q).identity = y.facts.identity :=
      congrArg PortFacts.identity facts.symm
    have known : y.facts.identity.meaning = identity.meaning := by
      rw [identical] at same
      exact (Value.equal_iff (run.fits y hy).proper proper).mp same
    obtain ⟨d, r, a, b, crumb, links, crossing, rfl⟩ :=
      (Graph.mem_demands hg.coherent hg.ordinary).mp (run.supply.mem hy)
    refine ⟨free.mpr fun own => run.supply.unmet _ hy ?_, d, r, a, b,
      (crossesAt_iff hg.coherent).mpr ⟨links, crumb.upwards, crossing⟩, ?_⟩
    · rw [Meets, Demand.place, known]
      exact own
    · rw [identical] at same
      exact same
  · rintro ⟨absent, d, r, a, b, at_crossing, same⟩
    obtain ⟨links, upwards, crossing⟩ := (crossesAt_iff hg.coherent).mp at_crossing
    have receiver := hg.ordinary.identified b links.goal r links.receives
    have known := (Value.equal_iff receiver proper).mp same
    have demanded : g.demandAt d r ⟨k, upwards⟩ ∈ g.demands :=
      (Graph.mem_demands hg.coherent hg.ordinary).mpr ⟨d, r, a, b, _, links, crossing, rfl⟩
    rcases run.supply.complete _ demanded with met | ⟨y, hy, place⟩
    · exact absurd (known ▸ met) (free.mp absent)
    · obtain ⟨here, meaning⟩ := Prod.mk.inj place
      obtain ⟨q, new, facts⟩ := run.new_of_demand hg.coherent hy
      have identical : (h.port q).identity = y.facts.identity := congrArg PortFacts.identity facts
      have spot : y.component = k := here
      refine ⟨q, spot ▸ new, ?_⟩
      rw [identical]
      exact (Value.equal_iff (run.fits y hy).proper proper).mpr (meaning.trans known)

theorem none_at_root (run : g.Inferred h added) (hg : g.Sound) (hr : g.register.root = some k) :
    h.portsOf k = g.portsOf k := by
  have hk := hg.coherent.root_mem hr
  obtain ⟨ports, split, listed, -⟩ := run.new_ports hg.coherent hk
  have none : ports = [] := by
    refine List.eq_nil_iff_forall_not_mem.mpr fun q hq => ?_
    obtain ⟨y, hy, rfl, -⟩ := run.demand_of_new hg.coherent hk ((listed q).mpr hq)
    obtain ⟨d, r, a, b, crumb, links, crossing, rfl⟩ :=
      (Graph.mem_demands hg.coherent hg.ordinary).mp (run.supply.mem hy)
    obtain ⟨-, -, side⟩ := crossing
    split at side
    · exact side.2 (hg.coherent.root_encloses hr links.goal)
    · exact side.2 (hg.coherent.root_encloses hr links.start)
  rw [split, none, List.append_nil]

theorem addsExactly (run : g.Inferred h added) (hg : g.Sound) : g.AddsExactly h where
  toExtends := run.follows.toExtends
  coherent := run.follows.coherent
  needed := fun _ hk _ proper => run.needed hg hk proper
  single := fun _ hk _ _ hp hq same => run.single hg hk hp hq same
  made := fun _ hk _ new => run.isPassThrough hg hk new
  none_at_root := fun _ hr => run.none_at_root hg hr

theorem lastId_eq (run : g.Inferred h added) : h.lastId = g.lastId + added.length := by
  rw [run.inserted, lastId_insertAll]

theorem ports_length (run : g.Inferred h added) (hg : g.Coherent) :
    h.ports.length = g.ports.length + added.length := by
  rw [run.follows.coherent.ports_perm.length_eq, hg.ports_perm.length_eq, run.inserted,
    portRoster_insertAll]

end Inferred

/-- On every graph that additions have made, inference answers with the number of ports that it
adds, and adds exactly those that bindings need. -/
theorem inference_adds_exactly (additions : List Addition)
    (ordinary : ∀ a ∈ additions, a.IsOrdinary) :
    let g := ({} : Graph).grow additions
    ∃ n h, (addPassThroughs.on g).answer = .ok n ∧ (addPassThroughs.on g).state = h ∧
      g.AddsExactly h ∧ h.lastId = g.lastId + n ∧ h.ports.length = g.ports.length + n := by
  intro g
  have hg : g.Sound := sound_empty.grow ordinary
  obtain ⟨h, added, run, -⟩ := hg.exists_inferred
  exact ⟨added.length, h, run.answer, run.state, run.addsExactly hg, run.lastId_eq,
    run.ports_length hg.coherent⟩

theorem inference_adds_exactly_between_branches :
    (∀ a ∈ twoBranches, a.IsOrdinary) ∧
      let g := ({} : Graph).grow twoBranches
      ∃ n h, (addPassThroughs.on g).answer = .ok n ∧ (addPassThroughs.on g).state = h ∧
        g.AddsExactly h ∧ h.lastId = g.lastId + n ∧ h.ports.length = g.ports.length + n :=
  ⟨twoBranches_ordinary, inference_adds_exactly twoBranches twoBranches_ordinary⟩

-- the child around the driver gets an output, the root none
example : (addPassThroughs.on (({} : Graph).grow twoBranches)).answer.toOption = some 1 := by
  decide +kernel

end Schematic.Graph
