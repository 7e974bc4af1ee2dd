import Schematic.Proofs.Graph.Rebound
import Schematic.Proofs.PassThrough.History

/-! Bindings do not influence each other. All of them share one pass over the graph, its lists of
ports and its counter of ids, but a demand is met or not by the ports of its own binding only. So a
binding gets the ports that it gets on the graph where no other one is bound, and in whatever order
the bindings take their turns. -/

namespace Schematic

section Lists

variable {α β : Type} {f : α → List β} {p : β → Bool} {q : α → Bool}

/-- A condition that all or none of what a member yields meets can be put to the members. -/
theorem filter_flatMap_of_mark {xs : List α} (mark : ∀ x ∈ xs, ∀ y ∈ f x, p y = q x) :
    (xs.flatMap f).filter p = (xs.filter q).flatMap f := by
  induction xs with
  | nil => rfl
  | cons x xs ih =>
    rw [List.forall_mem_cons] at mark
    rw [List.flatMap_cons, List.filter_append, ih mark.2]
    by_cases kept : q x = true
    · have all : (f x).filter p = f x :=
        List.filter_eq_self.mpr fun y hy => (mark.1 y hy).trans kept
      rw [all, List.filter_cons_of_pos kept, List.flatMap_cons]
    · have none : (f x).filter p = [] :=
        List.filter_eq_nil_iff.mpr fun y hy hit => kept ((mark.1 y hy).symm.trans hit)
      rw [none, List.filter_cons_of_neg kept, List.nil_append]

end Lists

def Demand.isOf (identity : Value) (x : Demand) : Bool := x.facts.identity.equal identity

theorem Demand.Fits.isOf_iff {g : Graph} {x : Demand} {identity : Value} (fit : x.Fits g)
    (proper : identity.IsIdentity) : x.isOf identity = true ↔ x.place.2 = identity.meaning :=
  Value.equal_iff fit.proper proper

namespace Graph

structure Placement where
  owner : Except Error ComponentKey
  facts : PortFacts

def isOf (g : Graph) (identity : Value) (q : PortKey) : Bool :=
  (g.port q).identity.equal identity

def Placement.isOf (identity : Value) (s : Placement) : Bool := s.facts.identity.equal identity

def placement (g : Graph) (q : PortKey) : Placement := ⟨g.owner q, (g.port q).facts⟩

/-- The ports that a graph has beyond those of another one, in the order of their making. -/
def gained (g h : Graph) : List Placement :=
  (h.portRoster.drop g.portRoster.length).map h.placement

/-- Two graphs that have grown from one differ at most in the ids of the ports that they gained from
different bindings, and in the order of these ports. -/
structure GainAlike (g h i : Graph) : Prop where
  first : g.Extends h
  second : g.Extends i
  lastId : h.lastId = i.lastId
  listed : ∀ k ∈ g.roster, (h.factsOf k).Perm (i.factsOf k)
  gained : ∀ identity : Value, identity.IsIdentity →
    (g.gained h).filter (Placement.isOf identity) = (g.gained i).filter (Placement.isOf identity)

variable {g h : Graph} {bs bs' : List Binding} {d q r : PortKey} {x : Demand}
  {xs added added' : List Demand} {identity : Value}

/-- The port that is made for a demand is where the demand is, and carries what it asks for. -/
theorem placement_insertDemand (hg : g.Coherent) (fit : x.Fits g)
    (later : (g.insertDemand x).Follows h) :
    h.placement g.freshPort = ⟨.ok x.component, x.facts⟩ := by
  have first := follows_insertDemand hg fit
  have hosted : x.component ∈ (g.insertDemand x).roster := first.roster ▸ fit.inside
  have fresh : g.freshPort ∈ (g.insertDemand x).portsOf x.component := by
    rw [insertDemand, portsOf_insertPort (hg.index_lt fit.inside), if_pos rfl]
    exact List.mem_append_right _ List.mem_cons_self
  have owner : h.owner g.freshPort = .ok x.component :=
    (later.owner_eq first.coherent later.coherent hosted fresh).trans
      (first.coherent.owner_eq hosted fresh)
  have port : h.port g.freshPort = (g.insertDemand x).port g.freshPort :=
    later.port (first.coherent.port_index_lt (first.coherent.owned hosted fresh).1)
  have facts : ((g.insertDemand x).port g.freshPort).facts = x.facts := by
    rw [insertDemand, port_insertPort_new]
    exact fit.kept
  rw [placement, owner, port, facts]

theorem exists_new_portRoster (hg : g.Coherent) (fit : ∀ x ∈ xs, x.Fits g) :
    ∃ new, (g.insertAll xs).portRoster = g.portRoster ++ new ∧
      new.map (g.insertAll xs).placement = xs.map fun x => ⟨.ok x.component, x.facts⟩ := by
  induction xs generalizing g with
  | nil => exact ⟨[], (List.append_nil _).symm, rfl⟩
  | cons x xs ih =>
    have here := fit x List.mem_cons_self
    have first := follows_insertDemand hg here
    have rest := fits_tail hg fit
    obtain ⟨new, roster, placed⟩ := ih first.coherent rest
    refine ⟨g.freshPort :: new, roster.trans ?_, List.cons_eq_cons.mpr ⟨?_, placed⟩⟩
    · rw [insertDemand, portRoster_insertPort, List.append_assoc, List.singleton_append]
    · exact placement_insertDemand hg here (follows_insertAll first.coherent rest)

/-- Demands that are met one after the other get ports in their order. -/
theorem gained_insertAll (hg : g.Coherent) (fit : ∀ x ∈ xs, x.Fits g) :
    g.gained (g.insertAll xs) = xs.map fun x => ⟨.ok x.component, x.facts⟩ := by
  obtain ⟨new, roster, placed⟩ := exists_new_portRoster hg fit
  rw [gained, roster, List.drop_left, placed]

theorem filter_gained_insertAll (hg : g.Coherent) (fit : ∀ x ∈ xs, x.Fits g) :
    (g.gained (g.insertAll xs)).filter (Placement.isOf identity) =
      (xs.filter (Demand.isOf identity)).map fun x => ⟨.ok x.component, x.facts⟩ := by
  rw [gained_insertAll hg fit, List.filter_map]
  rfl

theorem identity_of_mem_demandsOf (hx : x ∈ g.demandsOf (d, r)) :
    x.facts.identity = (g.port r).identity := by
  unfold demandsOf at hx
  split at hx
  · split at hx
    · obtain ⟨crumb, -, rfl⟩ := List.mem_map.mp hx
      rfl
    · cases hx
  · cases hx

namespace Sound

theorem isOf_iff (hg : g.Sound) (proper : identity.IsIdentity) (hq : q ∈ g.ports) :
    g.isOf identity q = true ↔ g.bond q = identity.meaning := by
  obtain ⟨k, hk, listed⟩ := hg.coherent.mem_ports.mp hq
  exact Value.equal_iff (hg.ordinary.identified k hk q listed) proper

theorem bridged_fit (hg : g.Sound) (sorted : g.IsSorted g.boundPorts bs) :
    ∀ x ∈ (bs.flatMap fun b => b.pairs g).flatMap g.demandsOf, x.Fits g := by
  intro x hx
  obtain ⟨⟨d, r⟩, hends, hx⟩ := List.mem_flatMap.mp hx
  have joins : g.Joins d r := (sorted.mem_pairs (hg.ordinary.hashable hg.coherent)).mp hends
  have listed : (d, r) ∈ g.endPairs := (mem_endPairs hg.coherent hg.ordinary).mpr joins
  exact demands_fit hg.coherent hg.ordinary x (List.mem_flatMap.mpr ⟨(d, r), listed, hx⟩)

/-- The demands of one binding, whatever its place in the table. -/
theorem filter_demands (hg : g.Sound) (sorted : g.IsSorted g.boundPorts bs)
    (proper : identity.IsIdentity) :
    ((bs.flatMap fun b => b.pairs g).flatMap g.demandsOf).filter (Demand.isOf identity) =
      ((⟨identity, g.boundPorts.filter (g.isOf identity)⟩ : Binding).pairs g).flatMap
        g.demandsOf := by
  have known (q : PortKey) (hq : q ∈ g.boundPorts) : q ∈ g.ports := (List.mem_filter.mp hq).1
  have mark : ∀ ends ∈ bs.flatMap fun b => b.pairs g, ∀ x ∈ g.demandsOf ends,
      x.isOf identity = g.isOf identity ends.2 := fun ends _ x hx => by
    rw [Demand.isOf, identity_of_mem_demandsOf (d := ends.1) (r := ends.2) hx, isOf]
  rw [filter_flatMap_of_mark mark, sorted.filter_pairs
    (fun q hq => hg.ordinary.hashable hg.coherent q (known q hq))
    (fun q hq => hg.isOf_iff proper (known q hq)) identity]

theorem filter_selection (hg : g.Sound) (sorted : g.IsSorted g.boundPorts bs)
    (selects : Selects g.Meets ((bs.flatMap fun b => b.pairs g).flatMap g.demandsOf) added)
    (proper : identity.IsIdentity) :
    Selects g.Meets (((⟨identity, g.boundPorts.filter (g.isOf identity)⟩ : Binding).pairs g).flatMap
      g.demandsOf) (added.filter (Demand.isOf identity)) := by
  have fit := hg.bridged_fit sorted
  rw [← hg.filter_demands sorted proper]
  refine selects.filter fun x hx y hy same => ?_
  rw [Bool.eq_iff_iff, (fit x hx).isOf_iff proper, (fit y hy).isOf_iff proper, same]

theorem exists_bridged (hg : g.Sound) (sorted : g.IsSorted g.boundPorts bs) :
    ∃ added, (bridgeAll g bs g).answer = .ok added.length ∧
      (bridgeAll g bs g).state = g.insertAll added ∧ (∀ y ∈ added, y.Fits g) ∧
      Selects g.Meets ((bs.flatMap fun b => b.pairs g).flatMap g.demandsOf) added := by
  have run := (hg.ordinary.canPass hg.coherent).bridgeAll_supplies hg.coherent sorted
  have fit := hg.bridged_fit sorted
  obtain ⟨added, answer, state, selects⟩ := run.exists_selection hg.coherent hg.ordinary fit
  exact ⟨added, answer, state, fun y hy => fit y (selects.sublist.subset hy), selects⟩

end Sound

/-- Demands are the same but for their order if each identity has the same ones. -/
theorem perm_of_filters (fit : ∀ y ∈ added, y.Fits g) (fit' : ∀ y ∈ added', y.Fits g)
    (distinct : added.Nodup) (distinct' : added'.Nodup)
    (same : ∀ identity : Value, identity.IsIdentity →
      added.filter (Demand.isOf identity) = added'.filter (Demand.isOf identity)) :
    added.Perm added' := by
  have own {y : Demand} (fit : y.Fits g) : y.isOf y.facts.identity = true :=
    (fit.isOf_iff fit.proper).mpr rfl
  refine (List.perm_ext_iff_of_nodup distinct distinct').mpr fun y => ⟨fun hy => ?_, fun hy => ?_⟩
  · have kept := List.mem_filter.mpr ⟨hy, own (fit y hy)⟩
    rw [same _ (fit y hy).proper] at kept
    exact (List.mem_filter.mp kept).1
  · have kept := List.mem_filter.mpr ⟨hy, own (fit' y hy)⟩
    rw [← same _ (fit' y hy).proper] at kept
    exact (List.mem_filter.mp kept).1

theorem gainAlike_insertAll (hg : g.Coherent) (fit : ∀ y ∈ added, y.Fits g)
    (fit' : ∀ y ∈ added', y.Fits g) (perm : added.Perm added')
    (same : ∀ identity : Value, identity.IsIdentity →
      added.filter (Demand.isOf identity) = added'.filter (Demand.isOf identity)) :
    g.GainAlike (g.insertAll added) (g.insertAll added') where
  first := (follows_insertAll hg fit).toExtends
  second := (follows_insertAll hg fit').toExtends
  lastId := by rw [lastId_insertAll, lastId_insertAll, perm.length_eq]
  listed := by
    intro k hk
    rw [factsOf_insertAll hg fit hk, factsOf_insertAll hg fit' hk]
    exact ((perm.filter _).map _).append_left _
  gained := by
    intro identity proper
    rw [filter_gained_insertAll hg fit, filter_gained_insertAll hg fit', same identity proper]

section Unbound

variable (identity)

theorem port_boundOnlyTo (q : PortKey) : (g.boundOnlyTo identity).port q =
    (g.port q).withIdentity (Value.keptFor identity) :=
  port_withIdentities (Value.keptFor_null identity) q

theorem Sound.boundOnlyTo (hg : g.Sound) : (g.boundOnlyTo identity).Sound where
  coherent := hg.coherent.withIdentities (Value.keptFor_null identity)
  ordinary := hg.ordinary.withIdentities (Value.keptFor_null identity) fun v proper => by
    rw [Value.keptFor]
    split
    · exact proper
    · exact ⟨rfl, rfl⟩

variable {identity}

theorem identity_boundOnlyTo (hq : g.isOf identity q = true) :
    ((g.boundOnlyTo identity).port q).identity = (g.port q).identity := by
  rw [port_boundOnlyTo]
  exact if_pos hq

theorem unbound_boundOnlyTo (hq : g.isOf identity q = false) :
    ((g.boundOnlyTo identity).port q).identity = .null := by
  rw [port_boundOnlyTo]
  exact if_neg (Bool.eq_false_iff.mp hq)

theorem boundPorts_boundOnlyTo :
    (g.boundOnlyTo identity).boundPorts = g.boundPorts.filter (g.isOf identity) := by
  have known : (g.boundOnlyTo identity).ports = g.ports := ports_withIdentities _ g
  rw [boundPorts, known, boundPorts, List.filter_filter]
  refine List.filter_congr fun q _ => ?_
  cases hq : g.isOf identity q with
  | true => rw [Port.isBound, identity_boundOnlyTo hq, Bool.true_and, Port.isBound]
  | false =>
    rw [Port.isBound, unbound_boundOnlyTo hq, Bool.false_and]
    rfl

theorem demandsOf_boundOnlyTo (hr : g.isOf identity r = true) :
    (g.boundOnlyTo identity).demandsOf (d, r) = g.demandsOf (d, r) := by
  have needs : (g.boundOnlyTo identity).demandAt d r = g.demandAt d r := by
    funext crumb
    rw [demandAt, demandAt, identity_boundOnlyTo hr, port_boundOnlyTo]
    rfl
  have owner (q : PortKey) : (g.boundOnlyTo identity).owner q = g.owner q :=
    owner_withIdentities (Value.keptFor_null identity) q
  have trail (a b : ComponentKey) : (g.boundOnlyTo identity).trail a b = g.trail a b :=
    trail_withIdentities _ g a b
  simp only [demandsOf, owner, trail, needs]

theorem isOf_boundOnlyTo (hq : q ∈ (g.boundOnlyTo identity).boundPorts) :
    g.isOf identity q = true ∧ (g.boundOnlyTo identity).isOf identity q = true := by
  rw [boundPorts_boundOnlyTo] at hq
  have on : g.isOf identity q = true := (List.mem_filter.mp hq).2
  refine ⟨on, ?_⟩
  rwa [isOf, identity_boundOnlyTo on]

theorem pairs_boundOnlyTo (b : Binding) : b.pairs (g.boundOnlyTo identity) = b.pairs g := by
  simp only [Binding.pairs, Binding.drivers, Binding.receivers, port_boundOnlyTo]
  rfl

theorem isOf_of_mem_demands (sorted : (g.boundOnlyTo identity).IsSorted
      (g.boundOnlyTo identity).boundPorts bs)
    (hx : x ∈ (bs.flatMap fun b => b.pairs (g.boundOnlyTo identity)).flatMap
      (g.boundOnlyTo identity).demandsOf) : x.isOf identity = true := by
  obtain ⟨⟨d, r⟩, hends, hx⟩ := List.mem_flatMap.mp hx
  obtain ⟨b, hb, hends⟩ := List.mem_flatMap.mp hends
  have listed : r ∈ b.ports := (mem_bindingPairs.mp hends).2.1
  rw [sorted.ports b hb] at listed
  rw [Demand.isOf, identity_of_mem_demandsOf hx]
  exact (isOf_boundOnlyTo (List.mem_filter.mp listed).1).2

theorem Sound.meets_boundOnlyTo (hg : g.Sound) (proper : identity.IsIdentity) (fit : x.Fits g)
    (hx : x.isOf identity = true) : (g.boundOnlyTo identity).Meets x.place ↔ g.Meets x.place := by
  have known : x.place.2 = identity.meaning := (fit.isOf_iff proper).mp hx
  refine exists_congr fun q => and_congr_right fun hq => ?_
  cases on : g.isOf identity q with
  | true => rw [identity_boundOnlyTo on]
  | false =>
    have own := hg.ordinary.identified x.component fit.inside q hq
    rw [unbound_boundOnlyTo on]
    refine iff_of_false (fun null => fit.place_ne_null null.symm) fun same => ?_
    rw [isOf, Bool.eq_false_iff, Ne, Value.equal_iff own proper] at on
    exact on (same.trans known)

/-- On the graph where only one identity is bound, what is selected is selected for this one. -/
theorem Sound.selects_boundOnlyTo (hg : g.Sound) (proper : identity.IsIdentity)
    (sorted : g.IsSorted g.boundPorts bs)
    (sorted' : (g.boundOnlyTo identity).IsSorted (g.boundOnlyTo identity).boundPorts bs')
    (selects : Selects (g.boundOnlyTo identity).Meets
      ((bs'.flatMap fun b => b.pairs (g.boundOnlyTo identity)).flatMap
        (g.boundOnlyTo identity).demandsOf) added) :
    Selects g.Meets (((⟨identity, g.boundPorts.filter (g.isOf identity)⟩ : Binding).pairs g).flatMap
      g.demandsOf) added := by
  have kept := (hg.boundOnlyTo identity).filter_selection sorted' selects proper
  have all : added.filter (Demand.isOf identity) = added :=
    List.filter_eq_self.mpr fun y hy => isOf_of_mem_demands sorted' (selects.sublist.subset hy)
  have ports : (g.boundOnlyTo identity).boundPorts.filter
      ((g.boundOnlyTo identity).isOf identity) = g.boundPorts.filter (g.isOf identity) :=
    (List.filter_eq_self.mpr fun _ hq => (isOf_boundOnlyTo hq).2).trans boundPorts_boundOnlyTo
  have needs : ∀ ends ∈ (⟨identity, g.boundPorts.filter (g.isOf identity)⟩ : Binding).pairs g,
      (g.boundOnlyTo identity).demandsOf ends = g.demandsOf ends := by
    rintro ⟨d, r⟩ hends
    exact demandsOf_boundOnlyTo (List.mem_filter.mp (mem_bindingPairs.mp hends).2.1).2
  rw [all, ports, pairs_boundOnlyTo, List.flatMap_congr needs] at kept
  refine kept.congr fun x hx => ?_
  rw [← hg.filter_demands sorted proper] at hx
  obtain ⟨listed, on⟩ := List.mem_filter.mp hx
  exact hg.meets_boundOnlyTo proper (hg.bridged_fit sorted x listed) on

end Unbound

/-- In whatever order the bindings are taken, each gets the same ports. -/
theorem Sound.gainAlike_of_order (hg : g.Sound) (sorted : g.IsSorted g.boundPorts bs)
    (sorted' : g.IsSorted g.boundPorts bs') :
    (bridgeAll g bs g).answer = (bridgeAll g bs' g).answer ∧
      g.GainAlike (bridgeAll g bs g).state (bridgeAll g bs' g).state := by
  obtain ⟨added, answer, state, fit, selects⟩ := hg.exists_bridged sorted
  obtain ⟨added', answer', state', fit', selects'⟩ := hg.exists_bridged sorted'
  have same (identity : Value) (proper : identity.IsIdentity) :
      added.filter (Demand.isOf identity) = added'.filter (Demand.isOf identity) :=
    (hg.filter_selection sorted selects proper).unique
      (hg.filter_selection sorted' selects' proper)
  have perm : added.Perm added' := perm_of_filters fit fit' selects.nodup selects'.nodup same
  rw [answer, answer', state, state', perm.length_eq]
  exact ⟨rfl, gainAlike_insertAll hg.coherent fit fit' perm same⟩

/-- A binding gets the ports that it gets where no other one is bound. -/
theorem Sound.gained_boundOnlyTo (hg : g.Sound) (proper : identity.IsIdentity)
    (sorted : g.IsSorted g.boundPorts bs)
    (sorted' : (g.boundOnlyTo identity).IsSorted (g.boundOnlyTo identity).boundPorts bs') :
    (g.boundOnlyTo identity).gained
        (bridgeAll (g.boundOnlyTo identity) bs' (g.boundOnlyTo identity)).state =
      (g.gained (bridgeAll g bs g).state).filter (Placement.isOf identity) := by
  have sound : (g.boundOnlyTo identity).Sound := hg.boundOnlyTo identity
  obtain ⟨added, -, state, fit, selects⟩ := hg.exists_bridged sorted
  obtain ⟨added', -, state', fit', selects'⟩ := sound.exists_bridged sorted'
  have same : added' = added.filter (Demand.isOf identity) :=
    (hg.selects_boundOnlyTo proper sorted sorted' selects').unique
      (hg.filter_selection sorted selects proper)
  rw [state, state', filter_gained_insertAll hg.coherent fit,
    gained_insertAll sound.coherent fit', same]

/-- Bindings do not influence each other. On every graph that additions have made, inference makes
for each identity the ports, in their order, that it makes on the graph in which the ports of all
other identities are unbound. Whatever the order in which it takes the bindings, only the ids of
the new ports and their order in the lists of ports depend on it. -/
theorem bindings_are_independent (additions : List Addition)
    (ordinary : ∀ a ∈ additions, a.IsOrdinary) :
    let g := ({} : Graph).grow additions
    ∃ n h bs, (addPassThroughs.on g).answer = .ok n ∧ (addPassThroughs.on g).state = h ∧
      g.bindings = .ok bs ∧ ((bridgeAll g bs).on g).answer = .ok n ∧
      ((bridgeAll g bs).on g).state = h ∧
      (∀ identity : Value, identity.IsIdentity → ∃ m i,
        (addPassThroughs.on (g.boundOnlyTo identity)).answer = .ok m ∧
          (addPassThroughs.on (g.boundOnlyTo identity)).state = i ∧
          (g.boundOnlyTo identity).gained i =
            (g.gained h).filter (Placement.isOf identity)) ∧
      ∀ bs', bs'.Perm bs → ((bridgeAll g bs').on g).answer = .ok n ∧
        g.GainAlike h ((bridgeAll g bs').on g).state := by
  intro g
  have hg : g.Sound := sound_empty.grow ordinary
  obtain ⟨bs, made, -, sorted⟩ := exists_bindings hg.coherent hg.ordinary
  obtain ⟨added, answer, state, -, -⟩ := hg.exists_bridged sorted
  obtain ⟨sameAnswer, sameState⟩ := addPassThroughs_eq_bridgeAll made
  refine ⟨added.length, (bridgeAll g bs g).state, bs, sameAnswer.trans answer, sameState, made,
    answer, rfl, fun identity proper => ?_, fun bs' perm => ?_⟩
  · have sound : (g.boundOnlyTo identity).Sound := hg.boundOnlyTo identity
    obtain ⟨bs', made', -, sorted'⟩ := exists_bindings sound.coherent sound.ordinary
    obtain ⟨added', answer', -, -, -⟩ := sound.exists_bridged sorted'
    obtain ⟨sameAnswer', sameState'⟩ := addPassThroughs_eq_bridgeAll made'
    exact ⟨added'.length, _, sameAnswer'.trans answer', sameState',
      hg.gained_boundOnlyTo proper sorted sorted'⟩
  · obtain ⟨equal, alike⟩ := hg.gainAlike_of_order sorted (sorted.perm perm)
    exact ⟨equal.symm.trans answer, alike⟩

/-- The additions of two branches, with a second binding that leads from the child of the root into
the other one. -/
def twoBindings : List Addition :=
  twoBranches ++
    [.port ⟨2⟩
      { name := .text "top.a.b.j", basename := .text "j", direction := .input
        typeName := .text "sc_in", identity := .text "t" },
    .port ⟨3⟩
      { name := .text "top.c.q", basename := .text "q", direction := .output
        typeName := .text "sc_out", identity := .text "t" }]

theorem bindings_are_independent_between_branches :
    (∀ a ∈ twoBindings, a.IsOrdinary) ∧
      let g := ({} : Graph).grow twoBindings
      ∃ h i bs, (addPassThroughs.on g).answer = .ok 2 ∧ (addPassThroughs.on g).state = h ∧
        (addPassThroughs.on (g.boundOnlyTo (.text "s"))).answer = .ok 1 ∧
        (addPassThroughs.on (g.boundOnlyTo (.text "s"))).state = i ∧
        (g.boundOnlyTo (.text "s")).gained i =
          (g.gained h).filter (Placement.isOf (.text "s")) ∧
        g.bindings = .ok bs ∧ g.GainAlike h ((bridgeAll g bs.reverse).on g).state := by
  have ordinary : ∀ a ∈ twoBindings, a.IsOrdinary := by
    simp [twoBindings, twoBranches, Addition.IsOrdinary, Value.IsIdentity, Value.isHashable,
      Value.isNotANumber]
  have both : (addPassThroughs.on (({} : Graph).grow twoBindings)).answer.toOption = some 2 := by
    decide +kernel
  have one : (addPassThroughs.on
      ((({} : Graph).grow twoBindings).boundOnlyTo (.text "s"))).answer.toOption = some 1 := by
    decide +kernel
  obtain ⟨n, h, bs, answer, state, made, -, -, alone, reordered⟩ :=
    bindings_are_independent twoBindings ordinary
  obtain ⟨m, i, answer', state', gained⟩ := alone (.text "s") ⟨rfl, rfl⟩
  rw [answer] at both
  rw [answer'] at one
  cases both
  cases one
  exact ⟨ordinary, h, i, bs, answer, state, answer', state', gained, made,
    (reordered bs.reverse bs.reverse_perm).2⟩

-- taken in the other order, the two ports that one child gains change places
example : ((({} : Graph).grow twoBindings).bindings.toOption.map fun bs =>
    [bs, bs.reverse].map fun bs =>
      (((bridgeAll (({} : Graph).grow twoBindings) bs).on
        (({} : Graph).grow twoBindings)).state.factsOf ⟨1⟩).map PortFacts.direction) =
    some [[.output, .input], [.input, .output]] := by
  decide +kernel

end Graph

end Schematic
