import Schematic.Graph.Wire
import Schematic.Proofs.Graph.Preorder

/-! What the wires of a component join: ports of a binding whose owners are on neighbouring
levels, or on one level with the first a driver and the second a receiver. -/

namespace Schematic.Graph

variable {g : Graph} {k : ComponentKey} {w : Wire}

theorem isInput_iff (p : Port) : p.isInput = true ↔ p.direction = .input := by
  simp [Port.isInput]

theorem isInput_eq_false_iff (p : Port) : p.isInput = false ↔ p.direction = .output := by
  cases h : p.direction <;> simp [Port.isInput, h]

theorem mem_boundaryWires : w ∈ g.boundaryWires k ↔ ∃ p ∈ g.portsOf k, ∃ c ∈ g.childrenOf k,
    ∃ q ∈ g.portsOf c, (g.port p).connects (g.port q) = true ∧
      w = ⟨k, p, c, q, .parentChild⟩ := by
  simp only [boundaryWires, List.mem_flatMap, List.mem_map, List.mem_filter, and_assoc, eq_comm]

theorem mem_innerWires : w ∈ g.innerWires k ↔ ∃ a ∈ g.childrenOf k, ∃ p ∈ g.portsOf a,
    ∃ b ∈ g.childrenOf k, ∃ q ∈ g.portsOf b, b ≠ a ∧ q ≠ p ∧ (g.port p).isInput = false ∧
      (g.port q).isInput = true ∧ (g.port p).connects (g.port q) = true ∧
        w = ⟨a, p, b, q, .childChild⟩ := by
  have bound {p q : Port} (joined : p.connects q = true) : p.isBound = true := by
    simp only [Port.connects, Bool.and_eq_true] at joined
    exact joined.1.1
  simp only [innerWires, List.mem_flatMap, List.mem_map, List.mem_filter, Bool.and_eq_true,
    bne_iff_ne, Bool.not_eq_true']
  constructor
  · rintro ⟨a, ha, p, ⟨hp, out, -⟩, b, ⟨hb, other⟩, q, ⟨hq, ⟨into, joined⟩, apart⟩, rfl⟩
    exact ⟨a, ha, p, hp, b, hb, q, hq, other, apart, out, into, joined, rfl⟩
  · rintro ⟨a, ha, p, hp, b, hb, q, hq, other, apart, out, into, joined, rfl⟩
    exact ⟨a, ha, p, ⟨hp, out, bound joined⟩, b, ⟨hb, other⟩, q, ⟨hq, ⟨into, joined⟩, apart⟩, rfl⟩

/-- A wire inside a component: its ports are of one binding, its ends own them, and they are the
component and a child of it or two of its children. -/
structure Lies (g : Graph) (k : ComponentKey) (w : Wire) : Prop where
  source : w.source ∈ g.roster
  target : g.IsParent k w.target
  leaves : w.sourcePort ∈ g.portsOf w.source
  enters : w.targetPort ∈ g.portsOf w.target
  joined : (g.port w.sourcePort).connects (g.port w.targetPort) = true
  side : w.source = k ∧ w.kind = .parentChild ∨ g.IsParent k w.source ∧ w.kind = .childChild
  apart : w.sourcePort ≠ w.targetPort

theorem Coherent.lies (hg : g.Coherent) (hk : k ∈ g.roster) (hw : w ∈ g.wires k) :
    g.Lies k w := by
  rcases List.mem_append.mp hw with outer | inner
  · obtain ⟨p, hp, c, hc, q, hq, joined, rfl⟩ := mem_boundaryWires.mp outer
    refine ⟨hk, ⟨hk, hc⟩, hp, hq, joined, .inl ⟨rfl, rfl⟩, fun same => ?_⟩
    have step : g.IsParent k c := ⟨hk, hc⟩
    cases same
    cases hg.owner_unique hk (hg.child_mem step) hp hq
    exact hg.not_encloses_parent step (.refl k)
  · obtain ⟨a, ha, p, hp, b, hb, q, hq, -, apart, -, -, joined, rfl⟩ := mem_innerWires.mp inner
    exact ⟨hg.child_mem ⟨hk, ha⟩, ⟨hk, hb⟩, hp, hq, joined, .inr ⟨⟨hk, ha⟩, rfl⟩, apart.symm⟩

theorem Lies.ends (lies : g.Lies k w) (hg : g.Coherent) :
    w.sourcePort ∈ g.ports ∧ w.targetPort ∈ g.ports :=
  ⟨hg.mem_ports.mpr ⟨_, lies.source, lies.leaves⟩,
    hg.mem_ports.mpr ⟨_, hg.child_mem lies.target, lies.enters⟩⟩

/-- The ports that a wire joins tell which wire it is. -/
theorem Lies.eq_of_ports {m : ComponentKey} {w' : Wire} (lies : g.Lies k w) (lies' : g.Lies m w')
    (hg : g.Coherent) (source : w.sourcePort = w'.sourcePort)
    (target : w.targetPort = w'.targetPort) : w = w' := by
  have start : w.source = w'.source :=
    hg.owner_unique lies.source lies'.source lies.leaves (source ▸ lies'.leaves)
  have goal : w.target = w'.target := hg.owner_unique (hg.child_mem lies.target)
    (hg.child_mem lies'.target) lies.enters (target ▸ lies'.enters)
  have around : k = m := hg.parent_unique lies.target (goal ▸ lies'.target)
  have kind : w.kind = w'.kind := by
    subst around
    rcases lies.side with ⟨here, outer⟩ | ⟨inside, inner⟩ <;>
      rcases lies'.side with ⟨here', outer'⟩ | ⟨inside', inner'⟩
    · rw [outer, outer']
    · rw [← start, here] at inside'
      exact absurd (.refl k) (hg.not_encloses_parent inside')
    · rw [start, here'] at inside
      exact absurd (.refl k) (hg.not_encloses_parent inside)
    · rw [inner, inner']
  cases w
  cases w'
  simp_all

end Schematic.Graph
