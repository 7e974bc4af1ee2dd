import Schematic.Proofs.Graph.Wires
import Schematic.Proofs.PassThrough.Exactness

/-! How far inference makes each binding a chain of wires. Along the way from a driver to a receiver
every component is joined with the next one below or above it. Where the way turns, the wire between
the two children is there if the first of them offers an output and the second an input. -/

namespace Schematic

def IsFirst {α : Type} (P : α → Prop) (list : List α) (a : α) : Prop :=
  ∃ before after, list = before ++ a :: after ∧ P a ∧ ∀ b ∈ before, ¬ P b

namespace IsFirst

variable {α β : Type} {P : α → Prop} {list : List α} {a b : α}

theorem unique (h : IsFirst P list a) (h' : IsFirst P list b) : a = b := by
  obtain ⟨before, after, rfl, ha, earlier⟩ := h
  obtain ⟨before', after', split, hb, earlier'⟩ := h'
  induction before generalizing before' with
  | nil =>
    cases before' with
    | nil => exact (List.cons.inj split).1
    | cons c rest =>
      have same : a = c := (List.cons.inj split).1
      exact absurd (same ▸ ha) (earlier' c List.mem_cons_self)
  | cons c before ih =>
    cases before' with
    | nil =>
      have same : c = b := (List.cons.inj split).1
      exact absurd (same ▸ hb) (earlier c List.mem_cons_self)
    | cons c' rest =>
      exact ih (fun e he => earlier e (List.mem_cons_of_mem _ he)) rest (List.cons.inj split).2
        fun e he => earlier' e (List.mem_cons_of_mem _ he)

/-- The first hit in what the members of a list yield comes from the first member that yields one.
-/
theorem of_flatMap {f : α → List β} {Q : β → Prop} {y : β} (h : IsFirst Q (list.flatMap f) y) :
    ∃ a, y ∈ f a ∧ IsFirst (fun a => ∃ z ∈ f a, Q z) list a := by
  obtain ⟨before, after, split, hy, earlier⟩ := h
  induction list generalizing before with
  | nil => simp at split
  | cons c list ih =>
    rw [List.flatMap_cons] at split
    -- nothing before the first hit is one, so it lies in the first member that has any
    by_cases here : ∃ z ∈ f c, Q z
    · refine ⟨c, ?_, [], list, rfl, here, nofun⟩
      obtain ⟨z, hz, hit⟩ := here
      rcases List.append_eq_append_iff.mp split with ⟨more, rfl, -⟩ | ⟨more, whole, rest⟩
      · exact absurd hit (earlier z (List.mem_append_left _ hz))
      · cases more with
        | nil =>
          rw [List.append_nil] at whole
          exact absurd hit (earlier z (whole ▸ hz))
        | cons y' more =>
          cases (List.cons.inj rest).1
          exact whole ▸ List.mem_append_right _ List.mem_cons_self
    · have later : ∃ before', list.flatMap f = before' ++ y :: after ∧ ∀ z ∈ before', ¬ Q z := by
        rcases List.append_eq_append_iff.mp split with ⟨more, rfl, rest⟩ | ⟨more, whole, rest⟩
        · exact ⟨more, rest, fun z hz => earlier z (List.mem_append_right _ hz)⟩
        · cases more with
          | nil => exact ⟨[], rest.symm, nofun⟩
          | cons y' more =>
            cases (List.cons.inj rest).1
            exact absurd ⟨y, whole ▸ List.mem_append_right _ List.mem_cons_self, hy⟩ here
      obtain ⟨before', split', earlier'⟩ := later
      obtain ⟨e, he, front, back, rfl, hit, none⟩ := ih before' split' earlier'
      refine ⟨e, he, c :: front, back, rfl, hit, fun d hd => ?_⟩
      rcases List.mem_cons.mp hd with rfl | hd
      · exact here
      · exact none d hd

end IsFirst

namespace Graph

/-- Whether a driver and a receiver of a binding have a component between their owners that they
cross. -/
def CrossedBy (g : Graph) (identity : Value) (k : ComponentKey) (ends : PortKey × PortKey) : Prop :=
  (g.port ends.2).identity.equal identity = true ∧ ∃ a b, g.CrossesAt k ends.1 ends.2 a b

/-- Whether a component offers a port of a binding in a direction: it has one, or it has none of the
binding at all and gets one of this direction from the first pair that crosses it, which is an
output when the driver of the pair is below and an input when the receiver is. -/
def Offers (g : Graph) (direction : Direction) (identity : Value) (k : ComponentKey) : Prop :=
  (∃ p ∈ g.portsOf k, (g.port p).direction = direction ∧
    (g.port p).identity.equal identity = true) ∨
  g.portFor k identity = none ∧ ∃ d r a b, IsFirst (g.CrossedBy identity k) g.endPairs (d, r) ∧
    g.CrossesAt k d r a b ∧ g.Encloses k (if direction = .output then a else b)

/-- Whether there is a wire of a kind inside a component, from one owner to another and with both
ports in a binding. -/
def HasWire (g : Graph) (identity : Value) (k : ComponentKey) (kind : WireKind)
    (x y : ComponentKey) : Prop :=
  ∃ w ∈ g.wires k, w.kind = kind ∧ w.source = x ∧ w.target = y ∧
    (g.port w.sourcePort).identity.equal identity = true ∧
    (g.port w.targetPort).identity.equal identity = true

variable {g h : Graph} {a b k t x y : ComponentKey} {d p q r : PortKey} {added : List Demand}
  {identity : Value} {direction : Direction}

theorem connects_of_equal (hp : (g.port p).identity.IsIdentity)
    (hq : (g.port q).identity.IsIdentity) (proper : identity.IsIdentity)
    (bound : identity.isNull = false) (same : (g.port p).identity.equal identity = true)
    (same' : (g.port q).identity.equal identity = true) :
    (g.port p).connects (g.port q) = true := by
  rw [Value.equal_iff hp proper] at same
  rw [Value.equal_iff hq proper] at same'
  have known : identity.meaning ≠ .null := fun null => by
    rw [(Value.isNull_iff proper.1).mpr null] at bound
    cases bound
  have left : (g.port p).isBound = true := by
    rw [Port.isBound, Bool.not_eq_true', Bool.eq_false_iff, Ne, Value.isNull_iff hp.1, same]
    exact known
  have right : (g.port q).isBound = true := by
    rw [Port.isBound, Bool.not_eq_true', Bool.eq_false_iff, Ne, Value.isNull_iff hq.1, same']
    exact known
  rw [Port.connects, left, right, Bool.true_and, Bool.true_and, Value.equal_iff hp hq, same, same']

theorem hasWire_parentChild (hg : g.Sound) (step : g.IsParent x y) (proper : identity.IsIdentity)
    (bound : identity.isNull = false) (hx : g.Owns x identity.meaning)
    (hy : g.Owns y identity.meaning) : g.HasWire identity x .parentChild x y := by
  obtain ⟨p, hp, same⟩ := hx
  obtain ⟨q, hq, same'⟩ := hy
  have left := hg.ordinary.identified x step.1 p hp
  have right := hg.ordinary.identified y (hg.coherent.child_mem step) q hq
  rw [← Value.equal_iff left proper] at same
  rw [← Value.equal_iff right proper] at same'
  refine ⟨⟨x, p, y, q, .parentChild⟩, List.mem_append_left _ ?_, rfl, rfl, rfl, same, same'⟩
  refine List.mem_flatMap.mpr ⟨p, hp, List.mem_flatMap.mpr ⟨y, step.2, ?_⟩⟩
  refine List.mem_map_of_mem (List.mem_filter.mpr ⟨hq, ?_⟩)
  exact connects_of_equal left right proper bound same same'

theorem hasWire_childChild_iff (hg : g.Sound) (hx : g.IsParent t x) (hy : g.IsParent t y)
    (other : x ≠ y) (proper : identity.IsIdentity) (bound : identity.isNull = false) :
    g.HasWire identity t .childChild x y ↔
      (∃ p ∈ g.portsOf x, (g.port p).direction = .output ∧
        (g.port p).identity.equal identity = true) ∧
      (∃ q ∈ g.portsOf y, (g.port q).direction = .input ∧
        (g.port q).identity.equal identity = true) := by
  constructor
  · rintro ⟨w, hw, kind, rfl, rfl, same, same'⟩
    rcases List.mem_append.mp hw with border | inner
    · obtain ⟨_, _, _, _, _, _, _, rfl⟩ := mem_boundaryWires.mp border
      cases kind
    · obtain ⟨x, -, p, hp, y, -, q, hq, -, -, out, into, -, rfl⟩ := mem_innerWires.mp inner
      exact ⟨⟨p, hp, (isInput_eq_false_iff _).mp out, same⟩,
        ⟨q, hq, (isInput_iff _).mp into, same'⟩⟩
  · rintro ⟨⟨p, hp, out, same⟩, ⟨q, hq, into, same'⟩⟩
    have left := hg.ordinary.identified x (hg.coherent.child_mem hx) p hp
    have right := hg.ordinary.identified y (hg.coherent.child_mem hy) q hq
    have joined := connects_of_equal left right proper bound same same'
    have different : q ≠ p := fun clash => by
      rw [clash, out] at into
      cases into
    refine ⟨⟨x, p, y, q, .childChild⟩, List.mem_append_right _ ?_, rfl, rfl, rfl, same, same'⟩
    exact mem_innerWires.mpr ⟨x, hx.2, p, hp, y, hy.2, q, hq, other.symm, different,
      (isInput_eq_false_iff _).mpr out, (isInput_iff _).mpr into, joined, rfl⟩

theorem crossedBy_iff (hg : g.Sound) (proper : identity.IsIdentity) (hd : (d, r) ∈ g.endPairs) :
    g.CrossedBy identity k (d, r) ↔
      ∃ z ∈ g.demandsOf (d, r), z.place = (k, identity.meaning) := by
  obtain ⟨a, b, links⟩ := ((mem_endPairs hg.coherent hg.ordinary).mp hd).exists_links hg.coherent
  have receiver := hg.ordinary.identified b links.goal r links.receives
  rw [CrossedBy, Value.equal_iff receiver proper]
  constructor
  · rintro ⟨same, a', b', at_crossing⟩
    obtain ⟨links', upwards, crossing⟩ := (crossesAt_iff hg.coherent).mp at_crossing
    exact ⟨_, (links'.mem_demandsOf hg.coherent).mpr ⟨_, crossing, rfl⟩, Prod.ext rfl same⟩
  · rintro ⟨z, hz, place⟩
    obtain ⟨crumb, crossing, rfl⟩ := (links.mem_demandsOf hg.coherent).mp hz
    obtain ⟨rfl, same⟩ := Prod.mk.inj place
    exact ⟨same, a, b, (crossesAt_iff hg.coherent).mpr ⟨links, crumb.upwards, crossing⟩⟩

/-- An added port is made for the first driver and receiver that cross its component. -/
theorem Inferred.first_pair (run : g.Inferred h added) (hg : g.Sound) {y : Demand} (hy : y ∈ added)
    (proper : identity.IsIdentity) (same : y.facts.identity.meaning = identity.meaning) :
    ∃ d r a b crumb, IsFirst (g.CrossedBy identity y.component) g.endPairs (d, r) ∧
      g.Links d r a b ∧ g.IsCrossing a b crumb ∧ y = g.demandAt d r crumb := by
  obtain ⟨before, after, all, earlier⟩ := run.supply.first y hy
  have first : IsFirst (fun z : Demand => z.place = y.place) g.demands y :=
    ⟨before, after, all, rfl, earlier⟩
  obtain ⟨⟨d, r⟩, member, front, back, pairs, hit, none⟩ := first.of_flatMap
  have inside : ∀ e ∈ front, e ∈ g.endPairs := fun e he => pairs ▸ List.mem_append_left _ he
  have here : (d, r) ∈ g.endPairs := pairs ▸ List.mem_append_right _ List.mem_cons_self
  have place : y.place = (y.component, identity.meaning) := Prod.ext rfl same
  obtain ⟨a, b, links⟩ := ((mem_endPairs hg.coherent hg.ordinary).mp here).exists_links hg.coherent
  obtain ⟨crumb, crossing, made⟩ := (links.mem_demandsOf hg.coherent).mp member
  refine ⟨d, r, a, b, crumb, ⟨front, back, pairs, ?_, fun e he => ?_⟩, links, crossing, made⟩
  · exact (crossedBy_iff hg proper here).mpr (place ▸ hit)
  · rw [crossedBy_iff hg proper (inside e he), ← place]
    exact none e he

theorem Inferred.offers_of_new (run : g.Inferred h added) (hg : g.Sound) (hk : k ∈ g.roster)
    (proper : identity.IsIdentity) (bound : identity.isNull = false) (new : g.IsNew h k p)
    (facing : (h.port p).direction = direction)
    (same : (h.port p).identity.equal identity = true) : g.Offers direction identity k := by
  obtain ⟨y, hy, rfl, facts⟩ := run.demand_of_new hg.coherent hk new
  have own := run.ordinary.identified _ (run.follows.roster ▸ hk) p new.1
  have meaning : y.facts.identity.meaning = identity.meaning := by
    rw [facts]
    exact (Value.equal_iff own proper).mp same
  obtain ⟨d, r, a, b, crumb, first, links, crossing, rfl⟩ := run.first_pair hg hy proper meaning
  have none : g.portFor (g.demandAt d r crumb).component identity = none := by
    refine (portFor_eq_none_iff hg.ordinary.identified hk proper bound).mpr fun owned => ?_
    refine run.supply.unmet _ hy ?_
    rw [Meets, Demand.place, meaning]
    exact owned
  refine .inr ⟨none, d, r, a, b, first,
    (crossesAt_iff hg.coherent).mpr ⟨links, crumb.upwards, crossing⟩, ?_⟩
  refine (crossing.direction_iff d r).mp ?_
  rw [facts]
  exact facing

/-- What the first pair that crosses a component without a port of the binding calls for is
added. -/
theorem Inferred.exists_offered (run : g.Inferred h added) (hg : g.Sound) (hk : k ∈ g.roster)
    (proper : identity.IsIdentity) (bound : identity.isNull = false)
    (none : g.portFor k identity = none)
    (first : IsFirst (g.CrossedBy identity k) g.endPairs (d, r))
    (at_crossing : g.CrossesAt k d r a b)
    (side : g.Encloses k (if direction = .output then a else b)) :
    ∃ p ∈ h.portsOf k, (h.port p).direction = direction ∧
      (h.port p).identity.equal identity = true := by
  obtain ⟨front, back, pairs, crossed, -⟩ := id first
  have here : (d, r) ∈ g.endPairs := pairs ▸ List.mem_append_right _ List.mem_cons_self
  obtain ⟨z, hz, place⟩ := (crossedBy_iff hg proper here).mp crossed
  rcases run.supply.complete z (List.mem_flatMap.mpr ⟨_, here, hz⟩) with met | ⟨y, hy, spot⟩
  · rw [place] at met
    exact absurd met ((portFor_eq_none_iff hg.ordinary.identified hk proper bound).mp none)
  · obtain ⟨rfl, meaning⟩ := Prod.mk.inj (spot.trans place)
    obtain ⟨d', r', a', b', crumb, first', links, crossing, made⟩ :=
      run.first_pair hg hy proper meaning
    cases first.unique first'
    obtain ⟨links', -⟩ := (crossesAt_iff hg.coherent).mp at_crossing
    cases hg.coherent.owner_unique links.start links'.start links.drives links'.drives
    cases hg.coherent.owner_unique links.goal links'.goal links.receives links'.receives
    obtain ⟨p, new, facts⟩ := run.new_of_demand hg.coherent hy
    refine ⟨p, new.1, ?_, ?_⟩
    · have facing : (h.port p).direction = y.facts.direction := congrArg PortFacts.direction facts
      rw [facing, made, crossing.direction_iff]
      rw [made] at side
      exact side
    · have identical : (h.port p).identity = y.facts.identity := congrArg PortFacts.identity facts
      rw [identical, Value.equal_iff (run.fits y hy).proper proper]
      exact meaning

theorem Inferred.offers_iff (run : g.Inferred h added) (hg : g.Sound) (hk : k ∈ g.roster)
    (proper : identity.IsIdentity) (bound : identity.isNull = false) :
    (∃ p ∈ h.portsOf k, (h.port p).direction = direction ∧
      (h.port p).identity.equal identity = true) ↔ g.Offers direction identity k := by
  have old : ∀ p ∈ g.portsOf k, h.port p = g.port p := fun p hp =>
    run.follows.port (hg.coherent.port_index_lt (hg.coherent.owned hk hp).1)
  constructor
  · rintro ⟨p, hp, facing, same⟩
    by_cases known : p ∈ g.portsOf k
    · exact .inl ⟨p, known, old p known ▸ facing, old p known ▸ same⟩
    · exact run.offers_of_new hg hk proper bound ⟨hp, known⟩ facing same
  · rintro (⟨p, hp, facing, same⟩ | ⟨none, d, r, a, b, first, at_crossing, side⟩)
    · refine ⟨p, (run.follows.portsOf k).subset hp, ?_⟩
      rw [old p hp]
      exact ⟨facing, same⟩
    · exact run.exists_offered hg hk proper bound none first at_crossing side

/-- Two neighbours on the way from a driver to a receiver after inference, without the turning
point: a parent and its child with a wire between them, or two children of the turning point. The
wire between these is there exactly when, before inference, the first offered an output of the
binding and the second an input. -/
def AreLinked (g h : Graph) (identity : Value) (t x y : ComponentKey) : Prop :=
  h.IsParent x y ∧ h.HasWire identity x .parentChild x y ∨
    h.IsParent y x ∧ h.HasWire identity y .parentChild y x ∨
      h.IsParent t x ∧ h.IsParent t y ∧
        (h.HasWire identity t .childChild x y ↔
          g.Offers .output identity x ∧ g.Offers .input identity y)

/-- Each driver is linked along the way with each receiver of its binding that is elsewhere. -/
def IsChained (g h : Graph) : Prop :=
  ∀ d r a b, h.Joins d r → h.owner d = .ok a → h.owner r = .ok b → a ≠ b →
    ∃ path t, h.IsWay a b path ∧ h.IsNearestCommon t a b ∧
      (if t = a ∨ t = b then path else path.erase t).IsChain
        (g.AreLinked h (h.port r).identity t)

/-- On every graph that additions have made, inference leaves chains of wires between all drivers
and receivers, later ones included, but for the links at turning points that lack an output on the
one side or an input on the other. -/
theorem inference_makes_chains (additions : List Addition)
    (ordinary : ∀ a ∈ additions, a.IsOrdinary) :
    (∃ n, (addPassThroughs.on (({} : Graph).grow additions)).answer = .ok n) ∧
      (({} : Graph).grow additions).IsChained
        (addPassThroughs.on (({} : Graph).grow additions)).state := by
  have hg : (({} : Graph).grow additions).Sound := sound_empty.grow ordinary
  obtain ⟨h, added, run, hh⟩ := hg.exists_inferred
  have left : (addPassThroughs.on (({} : Graph).grow additions)).state = h := run.state
  rw [left]
  refine ⟨⟨_, run.answer⟩, fun d r a b joins start goal _ => ?_⟩
  have links := (links_iff hh.coherent).mpr ⟨joins, start, goal⟩
  obtain ⟨trail, route⟩ := hh.coherent.exists_route links.start links.goal
  obtain ⟨t, turn⟩ := hh.coherent.exists_nearest route
  have way := hh.coherent.route_isWay route
  refine ⟨_, t, way, turn, ?_⟩
  have proper := hh.ordinary.identified b links.goal r links.receives
  have bound : (h.port r).identity.isNull = false :=
    Bool.eq_false_iff.mpr fun null => joins.bound ((Value.isNull_iff proper.1).mp null)
  obtain ⟨carried, carried'⟩ := links.carried
  have owned : ∀ m ∈ (if t = a ∨ t = b then trail.map Crumb.component
      else (trail.map Crumb.component).erase t), h.Owns m (h.port r).identity.meaning := by
    intro m hm
    refine (carriers_owns.mp ?_).2
    rcases hh.coherent.mem_neighbours way turn hm with rfl | rfl | crosses
    · exact .inl carried
    · exact .inr carried'
    · obtain ⟨upwards, crossing⟩ := (hh.coherent.exists_crossing links.start links.goal).mpr crosses
      refine run.closed hg.coherent joins.bound ?_
      exact (exists_demand_iff hh.coherent hh.ordinary joins.bound).mp
        ⟨_, (mem_demands hh.coherent hh.ordinary).mpr ⟨d, r, a, b, _, links, crossing, rfl⟩, rfl⟩
  refine List.IsChain.imp_of_mem_imp ?_ (hh.coherent.neighbours way turn)
  intro x y hx hy near
  rcases near with down | up | ⟨above, above', other, -, -⟩
  · exact .inl ⟨down, hasWire_parentChild hh down proper bound (owned x hx) (owned y hy)⟩
  · exact .inr (.inl ⟨up, hasWire_parentChild hh up proper bound (owned y hy) (owned x hx)⟩)
  · refine .inr (.inr ⟨above, above', ?_⟩)
    have inside (m : ComponentKey) (step : h.IsParent t m) :
        m ∈ (({} : Graph).grow additions).roster :=
      run.follows.roster ▸ hh.coherent.child_mem step
    rw [hasWire_childChild_iff hh above above' other proper bound,
      run.offers_iff hg (inside x above) proper bound,
      run.offers_iff hg (inside y above') proper bound]

theorem inference_makes_chains_between_branches :
    (∀ a ∈ twoBranches, a.IsOrdinary) ∧
      (∃ n, (addPassThroughs.on (({} : Graph).grow twoBranches)).answer = .ok n) ∧
        (({} : Graph).grow twoBranches).IsChained
          (addPassThroughs.on (({} : Graph).grow twoBranches)).state :=
  ⟨twoBranches_ordinary, inference_makes_chains twoBranches twoBranches_ordinary⟩

-- an input of its own keeps the child around the driver from getting an output, and the wire at
-- the root is missing
example : ((addPassThroughs.on (({} : Graph).grow (twoBranches ++
    [.port ⟨1⟩
      { name := .text "top.a.i", basename := .text "i", direction := .input
        typeName := .text "sc_in", identity := .text "s" }]))).state.wires ⟨0⟩) = [] := by
  decide +kernel

end Graph

end Schematic
