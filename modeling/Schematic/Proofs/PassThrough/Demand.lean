import Schematic.Proofs.Graph.Extension
import Schematic.Proofs.PassThrough.Crossing

/-! What inference does to a graph. Every crossing demands a port. All demands can be read off the
graph before the first port is added, since added ports change neither the tree nor the ends of a
binding; what they change is which demands are met by then. -/

namespace Schematic

structure Demand where
  component : ComponentKey
  facts : Graph.PortFacts

namespace Demand

/-- What a demand asks for: some port of the component, with an identity that stands for this. -/
def place (x : Demand) : ComponentKey × Meaning := (x.component, x.facts.identity.meaning)

end Demand

namespace Graph

def demandAt (g : Graph) (driver receiver : PortKey) (crumb : Crumb) : Demand :=
  let source := g.port (if crumb.upwards then driver else receiver)
  { component := crumb.component
    facts :=
      { name := .text ((g.component crumb.component).name.plain ++ "." ++ source.basename.plain)
        basename := source.basename
        direction := if crumb.upwards then .output else .input
        typeName := source.typeName
        identity := (g.port receiver).identity
        synthesized := true } }

/-- The demands of a driver and a receiver, in the order in which they are looked at. -/
def demandsOf (g : Graph) (ends : PortKey × PortKey) : List Demand :=
  match g.owner ends.1, g.owner ends.2 with
  | .ok start, .ok goal =>
    match g.trail start goal with
    | .ok (some trail) => (crossings trail).map (g.demandAt ends.1 ends.2)
    | _ => []
  | _, _ => []

/-- The drivers and receivers of all bindings, in the order in which inference joins them. -/
def endPairs (g : Graph) : List (PortKey × PortKey) :=
  match g.bindings with
  | .ok bindings => bindings.flatMap fun b => b.pairs g
  | .error _ => []

def demands (g : Graph) : List Demand := g.endPairs.flatMap g.demandsOf

def insertDemand (g : Graph) (x : Demand) : Graph := (g.insertPort x.component x.facts).2

def insertAll (g : Graph) (xs : List Demand) : Graph := xs.foldl insertDemand g

def supply (g : Graph) (x : Demand) : Graph :=
  if (g.portFor x.component x.facts.identity).isSome then g else g.insertDemand x

def supplyAll (g : Graph) (xs : List Demand) : Graph := xs.foldl supply g

/-- The outcome of a step that meets some demands and counts the ports that this takes. -/
structure Supplies (g : Graph) (xs : List Demand) (o : Outcome Graph Nat) : Prop where
  state : o.state = g.supplyAll xs
  answer : ∃ n, o.answer = .ok n ∧ (g.supplyAll xs).lastId = g.lastId + n

variable {g h : Graph} {a b k : ComponentKey} {d r : PortKey} {crumb : Crumb} {x : Demand}
  {xs ys : List Demand}

theorem supplyAll_append : g.supplyAll (xs ++ ys) = (g.supplyAll xs).supplyAll ys :=
  List.foldl_append

/-- A graph that has the tree and the old ports of another, and agrees with itself. -/
structure Follows (g h : Graph) : Prop extends g.Extends h where
  coherent : h.Coherent

theorem Follows.supply (f : g.Follows h) (hx : x.component ∈ g.roster) :
    g.Follows (h.supply x) := by
  rw [Graph.supply]
  split
  · exact f
  · have hosted : x.component ∈ h.roster := f.roster ▸ hx
    exact ⟨f.toExtends.trans (.insertPort (f.coherent.index_lt hosted) _),
      f.coherent.insertPort hosted⟩

theorem Follows.supplyAll (f : g.Follows h) (hxs : ∀ x ∈ xs, x.component ∈ g.roster) :
    g.Follows (h.supplyAll xs) := by
  induction xs generalizing h with
  | nil => exact f
  | cons x xs ih =>
    exact ih (f.supply (hxs x List.mem_cons_self)) fun y hy => hxs y (List.mem_cons_of_mem _ hy)

theorem total_supplies {α : Type} {act : α → Action Graph Nat} {need : α → List Demand}
    {items : List α} (inside : ∀ i ∈ items, ∀ x ∈ need i, x.component ∈ g.roster)
    (acts : ∀ i ∈ items, ∀ h, g.Follows h → h.Supplies (need i) (act i h)) (f : g.Follows h) :
    h.Supplies (items.flatMap need) (total act items h) := by
  induction items generalizing h with
  | nil => exact ⟨rfl, 0, rfl, rfl⟩
  | cons i items ih =>
    have here := List.mem_cons_self (a := i) (l := items)
    have first := acts i here h f
    obtain ⟨n, hn, count⟩ := first.answer
    have rest := ih (fun j hj => inside j (List.mem_cons_of_mem _ hj))
      (fun j hj => acts j (List.mem_cons_of_mem _ hj)) (f.supplyAll (inside i here))
    obtain ⟨m, hm, more⟩ := rest.answer
    have run : act i h = ⟨.ok n, h.supplyAll (need i), (act i h).log⟩ := by
      rw [← hn, ← first.state]
    rw [total, Action.bind_apply_ok run, List.flatMap_cons]
    have split : total act items (h.supplyAll (need i)) =
        ⟨.ok m, (h.supplyAll (need i)).supplyAll (items.flatMap need),
          (total act items (h.supplyAll (need i))).log⟩ := by
      rw [← hm, ← rest.state]
    rw [Action.bind_apply_ok split]
    refine ⟨supplyAll_append.symm, n + m, rfl, ?_⟩
    rw [supplyAll_append, more, count]
    omega

theorem written_eq {v : Value} (h : v.isWritable = true) : v.written = .ok v.plain := by
  simp [Value.written, h]

theorem passThroughFacts_eq (name : (g.component crumb.component).name.isWritable = true)
    (hd : (g.port d).basename.isWritable = true) (hr : (g.port r).basename.isWritable = true) :
    g.passThroughFacts d r crumb = .ok (g.demandAt d r crumb).facts := by
  have source : (g.port (if crumb.upwards then d else r)).basename.isWritable = true := by
    split
    · exact hd
    · exact hr
  simp only [passThroughFacts, written_eq name, written_eq source]
  rfl

theorem passThroughAt_supplies (registered : g.registers crumb.component = true)
    (facts : g.passThroughFacts d r crumb = .ok (g.demandAt d r crumb).facts) :
    g.Supplies [g.demandAt d r crumb] (passThroughAt d r crumb g) := by
  have place : g.portFor crumb.component (g.port r).identity =
    g.portFor (g.demandAt d r crumb).component (g.demandAt d r crumb).facts.identity := rfl
  cases met : g.portFor crumb.component (g.port r).identity with
  | some p =>
    have same : g.supplyAll [g.demandAt d r crumb] = g := by
      simp [supplyAll, supply, ← place, met]
    have run : passThroughAt d r crumb g = ⟨.ok 0, g, []⟩ := by
      simp [passThroughAt, Action.bind_apply, Action.state, met]
    rw [run]
    exact ⟨same.symm, 0, rfl, by rw [same, Nat.add_zero]⟩
  | none =>
    have added : g.supplyAll [g.demandAt d r crumb] = g.insertDemand (g.demandAt d r crumb) := by
      simp [supplyAll, supply, ← place, met]
    have run : (passThroughAt d r crumb g).answer = .ok 1 ∧
        (passThroughAt d r crumb g).state = g.insertDemand (g.demandAt d r crumb) := by
      simp only [passThroughAt, Action.bind_apply, Action.state, met, Action.of, facts, addPort,
        registered, if_true, Action.update, Action.note, Action.pure_apply]
      exact ⟨trivial, rfl⟩
    exact ⟨run.2.trans added.symm, 1, run.1, by rw [added]; rfl⟩

theorem Extends.demandAt_eq (e : g.Extends h) (hd : d.index < g.arena.ports.size)
    (hr : r.index < g.arena.ports.size) (crumb : Crumb) :
    h.demandAt d r crumb = g.demandAt d r crumb := by
  have source : h.port (if crumb.upwards then d else r) =
      g.port (if crumb.upwards then d else r) := by
    split
    · exact e.port hd
    · exact e.port hr
  simp only [demandAt, source, e.port hr, e.component crumb.component]

theorem demandsOf_eq (hg : g.Coherent) (ha : a ∈ g.roster) (hb : b ∈ g.roster)
    (hd : d ∈ g.portsOf a) (hr : r ∈ g.portsOf b) {trail : List Crumb}
    (found : g.trail a b = .ok (some trail)) :
    g.demandsOf (d, r) = (crossings trail).map (g.demandAt d r) := by
  simp only [demandsOf, hg.owner_eq ha hd, hg.owner_eq hb hr, found]

theorem IsCrossing.mem_roster (h : g.IsCrossing a b crumb) (ha : a ∈ g.roster) (hb : b ∈ g.roster) :
    crumb.component ∈ g.roster := by
  obtain ⟨_, _, side⟩ := h
  split at side
  · exact side.1.mem ha
  · exact side.1.mem hb

/-- What inference needs of a graph: names that can be written, and identities that tables can
hold. -/
structure CanPass (g : Graph) : Prop where
  name : ∀ k ∈ g.roster, (g.component k).name.isWritable = true
  basename : ∀ k ∈ g.roster, ∀ q ∈ g.portsOf k, (g.port q).basename.isWritable = true
  hashable : ∀ q ∈ g.ports, (g.port q).identity.isHashable = true

theorem Ordinary.canPass (ord : g.Ordinary) (hg : g.Coherent) : g.CanPass where
  name := ord.name
  basename := fun _ hk _ hq => ord.basename_written hk hq
  hashable := ord.hashable hg

theorem bridge_supplies (hg : g.Coherent) (can : g.CanPass) (ha : a ∈ g.roster)
    (hb : b ∈ g.roster) (hd : d ∈ g.portsOf a) (hr : r ∈ g.portsOf b) (f : g.Follows h) :
    h.Supplies (g.demandsOf (d, r)) (bridge d r h) := by
  obtain ⟨trail, found, route⟩ := hg.trail_eq ha hb
  have needs := demandsOf_eq hg ha hb hd hr found
  have start := (f.owner_eq hg f.coherent ha hd).trans (hg.owner_eq ha hd)
  have goal := (f.owner_eq hg f.coherent hb hr).trans (hg.owner_eq hb hr)
  by_cases same : a = b
  · subst same
    have none : crossings trail = [] := by
      rw [hg.route_unique route .here]
      rfl
    have run : bridge d r h = ⟨.ok 0, h, []⟩ := by
      simp [bridge, Action.bind_apply, Action.state, Action.of, start, goal]
    rw [needs, none, run]
    exact ⟨rfl, 0, rfl, rfl⟩
  -- the trail is looked for in the graph of now, where it is the same as in the first one
  · have run : bridge d r h = total (passThroughAt d r) (crossings trail) h := by
      have known := (f.trail_eq hg f.coherent ha hb).trans found
      simp [bridge, Action.bind_apply, Action.state, Action.of, start, goal, same, known]
    have driver := hg.port_index_lt (hg.owned ha hd).1
    have receiver := hg.port_index_lt (hg.owned hb hr).1
    have old (i : Graph) (fi : g.Follows i) (crumb : Crumb) := fi.demandAt_eq driver receiver crumb
    have inside : ∀ crumb ∈ crossings trail, crumb.component ∈ g.roster := fun crumb hc =>
      ((hg.mem_crossings route).mp hc).mem_roster ha hb
    rw [needs, run, ← List.flatMap_pure_eq_map]
    refine total_supplies (g := g) ?_ ?_ f
    · intro crumb hc x hx
      cases List.mem_singleton.mp hx
      exact inside crumb hc
    · intro crumb hc i fi
      have registered : i.registers crumb.component = true :=
        fi.coherent.registers_iff.mpr (fi.roster ▸ inside crumb hc)
      have name : (i.component crumb.component).name.isWritable = true := by
        rw [fi.component]
        exact can.name _ (inside crumb hc)
      have driver : (i.port d).basename.isWritable = true := by
        rw [fi.port (hg.port_index_lt (hg.owned ha hd).1)]
        exact can.basename a ha d hd
      have receiver : (i.port r).basename.isWritable = true := by
        rw [fi.port (hg.port_index_lt (hg.owned hb hr).1)]
        exact can.basename b hb r hr
      have step := passThroughAt_supplies registered (passThroughFacts_eq name driver receiver)
      rw [old i fi crumb] at step
      exact step

structure Links (g : Graph) (d r : PortKey) (a b : ComponentKey) : Prop extends g.Joins d r where
  start : a ∈ g.roster
  goal : b ∈ g.roster
  drives : d ∈ g.portsOf a
  receives : r ∈ g.portsOf b

theorem Joins.exists_links (hg : g.Coherent) (joins : g.Joins d r) : ∃ a b, g.Links d r a b := by
  obtain ⟨a, ha, hd⟩ := hg.mem_ports.mp joins.driver
  obtain ⟨b, hb, hr⟩ := hg.mem_ports.mp joins.receiver
  exact ⟨a, b, joins, ha, hb, hd, hr⟩

namespace CanPass

theorem exists_bindings (can : g.CanPass) :
    ∃ bs, g.bindings = .ok bs ∧ g.endPairs = (bs.flatMap fun b => b.pairs g) ∧
      g.IsSorted g.boundPorts bs := by
  obtain ⟨bs, made, sorted⟩ := bindings_sorted fun q hq =>
    can.hashable q (List.mem_filter.mp hq).1
  exact ⟨bs, made, by rw [endPairs, made], sorted⟩

theorem mem_endPairs (can : g.CanPass) : (d, r) ∈ g.endPairs ↔ g.Joins d r := by
  obtain ⟨bs, -, pairs, sorted⟩ := can.exists_bindings
  rw [pairs, sorted.mem_pairs can.hashable]

end CanPass

theorem exists_bindings (hg : g.Coherent) (ord : g.Ordinary) :
    ∃ bs, g.bindings = .ok bs ∧ g.endPairs = (bs.flatMap fun b => b.pairs g) ∧
      g.IsSorted g.boundPorts bs :=
  (ord.canPass hg).exists_bindings

theorem mem_endPairs (hg : g.Coherent) (ord : g.Ordinary) : (d, r) ∈ g.endPairs ↔ g.Joins d r :=
  (ord.canPass hg).mem_endPairs

theorem Links.demandsOf_eq (links : g.Links d r a b) (hg : g.Coherent) :
    ∃ trail, g.Route b a true trail ∧
      g.demandsOf (d, r) = (crossings trail).map (g.demandAt d r) := by
  obtain ⟨trail, found, route⟩ := hg.trail_eq links.start links.goal
  exact ⟨trail, route,
    Graph.demandsOf_eq hg links.start links.goal links.drives links.receives found⟩

theorem Links.mem_demandsOf (links : g.Links d r a b) (hg : g.Coherent) :
    x ∈ g.demandsOf (d, r) ↔ ∃ crumb, g.IsCrossing a b crumb ∧ x = g.demandAt d r crumb := by
  obtain ⟨trail, route, needs⟩ := links.demandsOf_eq hg
  simp only [needs, List.mem_map, hg.mem_crossings route, eq_comm]

theorem CanPass.mem_demands (can : g.CanPass) (hg : g.Coherent) :
    x ∈ g.demands ↔ ∃ d r a b crumb, g.Links d r a b ∧ g.IsCrossing a b crumb ∧
      x = g.demandAt d r crumb := by
  simp only [demands, List.mem_flatMap, Prod.exists, can.mem_endPairs]
  constructor
  · rintro ⟨d, r, joins, hx⟩
    obtain ⟨a, b, links⟩ := joins.exists_links hg
    obtain ⟨crumb, crossing, rfl⟩ := (links.mem_demandsOf hg).mp hx
    exact ⟨d, r, a, b, crumb, links, crossing, rfl⟩
  · rintro ⟨d, r, a, b, crumb, links, crossing, rfl⟩
    exact ⟨d, r, links.toJoins, (links.mem_demandsOf hg).mpr ⟨crumb, crossing, rfl⟩⟩

theorem mem_demands (hg : g.Coherent) (ord : g.Ordinary) :
    x ∈ g.demands ↔ ∃ d r a b crumb, g.Links d r a b ∧ g.IsCrossing a b crumb ∧
      x = g.demandAt d r crumb :=
  (ord.canPass hg).mem_demands hg

theorem CanPass.demands_inside (can : g.CanPass) (hg : g.Coherent) :
    ∀ x ∈ g.demands, x.component ∈ g.roster := by
  intro x hx
  obtain ⟨d, r, a, b, crumb, links, crossing, rfl⟩ := (can.mem_demands hg).mp hx
  exact crossing.mem_roster links.start links.goal

def bridgeAll (g : Graph) (bs : List Binding) : Action Graph Nat :=
  total (fun ends => bridge ends.1 ends.2) (bs.flatMap fun b => b.pairs g)

/-- Inference takes the bindings in the order of the table. -/
theorem addPassThroughs_eq_bridgeAll {bs : List Binding} (made : g.bindings = .ok bs) :
    (addPassThroughs g).answer = (bridgeAll g bs g).answer ∧
      (addPassThroughs g).state = (bridgeAll g bs g).state := by
  have same : bridgeAll g bs g =
      total (fun ends => bridge ends.1 ends.2) (bs.flatMap fun b => b.pairs g) g := rfl
  rcases run : bridgeAll g bs g with ⟨answer, state, log⟩
  rw [run] at same
  cases answer <;>
    simp [addPassThroughs, Action.bind_apply, Action.state, Action.of, made, ← same, Action.note]

/-- Joining the drivers and receivers of some bindings, one pair after the other, meets their
demands. -/
theorem CanPass.bridgeAll_supplies (can : g.CanPass) (hg : g.Coherent) {bs : List Binding}
    (sorted : g.IsSorted g.boundPorts bs) :
    g.Supplies ((bs.flatMap fun b => b.pairs g).flatMap g.demandsOf) (bridgeAll g bs g) := by
  refine total_supplies (g := g) ?_ ?_ ⟨.refl g, hg⟩
  · rintro ⟨d, r⟩ hends x hx
    have joins : g.Joins d r := (sorted.mem_pairs can.hashable).mp hends
    exact can.demands_inside hg x
      (List.mem_flatMap.mpr ⟨(d, r), can.mem_endPairs.mpr joins, hx⟩)
  · rintro ⟨d, r⟩ hends h f
    have joins : g.Joins d r := (sorted.mem_pairs can.hashable).mp hends
    obtain ⟨a, b, links⟩ := joins.exists_links hg
    exact bridge_supplies hg can links.start links.goal links.drives links.receives f

/-- Inference answers, and what it adds are the demands that are not met when their turn comes. -/
theorem addPassThroughs_supplies (hg : g.Coherent) (can : g.CanPass) :
    g.Supplies g.demands (addPassThroughs g) := by
  obtain ⟨bs, made, pairs, sorted⟩ := can.exists_bindings
  obtain ⟨answer, state⟩ := addPassThroughs_eq_bridgeAll made
  have all := can.bridgeAll_supplies hg sorted
  rw [demands, pairs]
  exact ⟨state.trans all.state, answer ▸ all.answer⟩

end Graph

end Schematic
