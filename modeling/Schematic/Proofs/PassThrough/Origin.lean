import Schematic.Proofs.Graph.Keys
import Schematic.Proofs.Graph.Wiring
import Schematic.Proofs.PassThrough.Exactness

/-! Where the wires of a graph after inference come from. An added port serves all pairs of its
binding, not only the one that it was made for; but it faces the way of a port of the graph below
it, so a wire between two children still leads from below a driver to above a receiver. -/

namespace Schematic.Graph

/-- A wire between two children of a component is drawn for a driver and a receiver: it joins their
binding, they are inside its two ends, and the way from the one to the other turns at the component
between these ends. -/
structure IsDrawnFor (g h : Graph) (k : ComponentKey) (w : Wire) (d r : PortKey)
    (a b : ComponentKey) : Prop extends g.Joins d r where
  start : g.owner d = .ok a
  goal : g.owner r = .ok b
  source : (g.port d).identity.equal (h.port w.sourcePort).identity = true
  target : (g.port r).identity.equal (h.port w.targetPort).identity = true
  below : h.Encloses w.source a
  above : h.Encloses w.target b
  turn : h.IsNearestCommon k a b
  way : ∃ before after, h.IsWay a b (before ++ w.source :: k :: w.target :: after)

variable {g h : Graph} {c k m : ComponentKey} {o p : PortKey} {w : Wire} {added : List Demand}

theorem Lies.bond_eq (lies : h.Lies k w) (hh : h.Sound) :
    h.bond w.sourcePort = h.bond w.targetPort ∧ h.bond w.targetPort ≠ .null := by
  have keyed := hh.ordinary.isKeyed
  obtain ⟨source, target⟩ := lies.ends hh.coherent
  obtain ⟨-, bound, together, -⟩ := keyed.of_connects hh.coherent source target lies.joined
  exact ⟨together, ((mem_boundPorts (keyed.bound hh.coherent bound)).mp bound).2⟩

theorem equal_of_bond (hg : g.Sound) (hh : h.Sound) (hc : c ∈ g.roster) (ho : o ∈ g.portsOf c)
    (hm : m ∈ h.roster) (hp : p ∈ h.portsOf m) (same : g.bond o = h.bond p) :
    (g.port o).identity.equal (h.port p).identity = true := by
  have left : (g.port o).identity.IsIdentity := hg.ordinary.identified c hc o ho
  have right : (h.port p).identity.IsIdentity := hh.ordinary.identified m hm p hp
  exact (Value.equal_iff left right).mpr same

namespace Inferred

/-- Whatever bound port a component has after inference, the graph had one of the same binding and
direction at it or below it. -/
theorem exists_origin (run : g.Inferred h added) (hg : g.Sound) (hk : k ∈ g.roster)
    (hp : p ∈ h.portsOf k) : ∃ c ∈ g.roster, ∃ o ∈ g.portsOf c, g.Encloses k c ∧
      (g.port o).direction = (h.port p).direction ∧ g.bond o = h.bond p := by
  by_cases old : p ∈ g.portsOf k
  · have same : h.port p = g.port p :=
      run.follows.port (hg.coherent.port_index_lt (hg.coherent.owned hk old).1)
    exact ⟨k, hk, p, old, .refl k, by rw [same], by rw [bond, bond, same]⟩
  · obtain ⟨d, r, a, b, crossing, identical, side⟩ :=
      (run.isPassThrough hg hk ⟨hp, old⟩).source
    have links := ((crossesAt_iff hg.coherent).mp crossing).1
    have joined : h.bond p = g.bond r := congrArg Value.meaning identical
    rcases side with ⟨out, -, -, below, -⟩ | ⟨into, -, -, below, -⟩
    · have facing : (g.port d).direction = .output := (isInput_eq_false_iff _).mp links.output
      exact ⟨a, links.start, d, links.drives, below, facing.trans out.symm,
        links.bond.trans joined.symm⟩
    · have facing : (g.port r).direction = .input := (isInput_iff _).mp links.input
      exact ⟨b, links.goal, r, links.receives, below, facing.trans into.symm, joined.symm⟩

theorem exists_drawnFor (run : g.Inferred h added) (hg : g.Sound) (hh : h.Sound)
    (hk : k ∈ h.roster) (hw : w ∈ h.wires k) (inner : w.kind = .childChild) :
    ∃ d r a b, g.IsDrawnFor h k w d r a b := by
  have lies := hh.coherent.lies hk hw
  obtain ⟨-, near⟩ := (hh.coherent.exists_wire_iff hk).mp
    ⟨w, hw, Wire.leads_iff.mpr ⟨rfl, rfl⟩, inner⟩
  cases near with
  | @childChild x y hx hy other hp hq out into =>
    have left : h.IsParent k x := ⟨hk, hx⟩
    have right : h.IsParent k y := ⟨hk, hy⟩
    have inside (m : ComponentKey) (step : h.IsParent k m) : m ∈ g.roster :=
      run.follows.roster ▸ hh.coherent.child_mem step
    have source : w.source = x :=
      hh.coherent.owner_unique lies.source (hh.coherent.child_mem left) lies.leaves hp
    have target : w.target = y := hh.coherent.owner_unique (hh.coherent.child_mem lies.target)
      (hh.coherent.child_mem right) lies.enters hq
    subst source target
    -- each of the two ports was there before or was made for one further down
    obtain ⟨a, ha, d, hd, below, output, driver⟩ := run.exists_origin hg (inside _ left) hp
    obtain ⟨b, hb, r, hr, above, input, receiver⟩ := run.exists_origin hg (inside _ right) hq
    obtain ⟨together, bound⟩ := lies.bond_eq hh
    have joins : g.Joins d r :=
      { driver := hg.coherent.mem_ports.mpr ⟨a, ha, hd⟩
        receiver := hg.coherent.mem_ports.mpr ⟨b, hb, hr⟩
        output := (isInput_eq_false_iff _).mpr (output.trans out)
        input := (isInput_iff _).mpr (input.trans into)
        bound := receiver ▸ bound
        bond := (driver.trans together).trans receiver.symm }
    rw [← run.follows.encloses] at below above
    obtain ⟨trail, route⟩ := hh.coherent.exists_route (run.follows.roster ▸ ha)
      (run.follows.roster ▸ hb)
    exact ⟨d, r, a, b,
      { toJoins := joins
        start := hg.coherent.owner_eq ha hd
        goal := hg.coherent.owner_eq hb hr
        source := equal_of_bond hg hh ha hd lies.source hp driver
        target := equal_of_bond hg hh hb hr (hh.coherent.child_mem right) hq receiver
        below
        above
        turn := hh.coherent.nearest_of_children left right other below above
        way := by
          obtain ⟨before, after, path⟩ := hh.coherent.way_between (hh.coherent.route_isWay route)
            left right other below above
          exact ⟨before, after, path ▸ hh.coherent.route_isWay route⟩ }⟩

end Inferred

/-- No wire is drawn for nothing. On every graph that additions have made, each wire between two
children of a component that is there after inference is drawn for a driver and a receiver that were
there before. -/
theorem inner_wires_are_drawn_for_pairs (additions : List Addition)
    (ordinary : ∀ a ∈ additions, a.IsOrdinary) :
    let g := ({} : Graph).grow additions
    ∃ n h, (addPassThroughs.on g).answer = .ok n ∧ (addPassThroughs.on g).state = h ∧
      g.Extends h ∧ ∀ k ∈ h.components, ∀ w ∈ h.wires k, w.kind = .childChild →
        ∃ d r a b, g.IsDrawnFor h k w d r a b := by
  intro g
  have hg : g.Sound := sound_empty.grow ordinary
  obtain ⟨h, added, run, hh⟩ := hg.exists_inferred
  refine ⟨added.length, h, run.answer, run.state, run.follows.toExtends, fun k hk w hw inner => ?_⟩
  exact run.exists_drawnFor hg hh (hh.coherent.mem_components.mp hk) hw inner

theorem inner_wires_are_drawn_for_pairs_between_branches :
    (∀ a ∈ twoBranches, a.IsOrdinary) ∧
      let g := ({} : Graph).grow twoBranches
      ∃ h, (addPassThroughs.on g).state = h ∧
        h.wires ⟨0⟩ = [⟨⟨1⟩, ⟨2⟩, ⟨3⟩, ⟨1⟩, .childChild⟩] ∧
        ∃ d r a b, g.IsDrawnFor h ⟨0⟩ ⟨⟨1⟩, ⟨2⟩, ⟨3⟩, ⟨1⟩, .childChild⟩ d r a b := by
  have wires : ((addPassThroughs.on (({} : Graph).grow twoBranches)).state.wires ⟨0⟩) =
      [⟨⟨1⟩, ⟨2⟩, ⟨3⟩, ⟨1⟩, .childChild⟩] := by
    decide +kernel
  have known : (⟨0⟩ : ComponentKey) ∈
      (addPassThroughs.on (({} : Graph).grow twoBranches)).state.components := by
    decide +kernel
  obtain ⟨n, h, -, state, -, drawn⟩ :=
    inner_wires_are_drawn_for_pairs twoBranches twoBranches_ordinary
  rw [state] at wires known
  exact ⟨twoBranches_ordinary, h, state, wires,
    drawn ⟨0⟩ known _ (by rw [wires]; exact List.mem_cons_self) rfl⟩

end Schematic.Graph
