import Schematic.Proofs.Graph.Extension
import Mathlib.Data.List.Find

/-! What belongs to a binding. The table of bindings finds a port by its identity as a table key,
while wires and the search for a port of a component compare identities by themselves. On identities
that can be keys the two agree but for not-a-number, which a table finds again and which equals
nothing. -/

namespace Schematic.Graph

/-- All identities in the graph can be table keys. -/
def IsKeyed (g : Graph) : Prop := ∀ k ∈ g.roster, ∀ f ∈ g.factsOf k, f.identity.isHashable = true

variable {g : Graph} {k : ComponentKey} {p q x : PortKey} {bs : List Binding} {b : Binding}

theorem Ordinary.isKeyed (ord : g.Ordinary) : g.IsKeyed := fun k hk f hf =>
  (ord.identity k hk f hf).1

theorem bond_eq_iff : g.bond p = g.bond q ↔
    (g.bond p = g.bond q ∧ (g.port p).identity.isNotANumber = false) ∨
      ∃ n, (g.port p).identity = .nan n ∧ (g.port q).identity = .nan n := by
  constructor
  · intro same
    cases odd : (g.port p).identity.isNotANumber with
    | false => exact .inl ⟨same, rfl⟩
    | true =>
      obtain ⟨n, known⟩ := Value.isNotANumber_iff.mp odd
      refine .inr ⟨n, Value.meaning_eq_notANumber.mp known, ?_⟩
      exact Value.meaning_eq_notANumber.mp (same.symm.trans known)
  · rintro (⟨same, -⟩ | ⟨n, left, right⟩)
    · exact same
    · rw [bond, bond, left, right]

namespace IsKeyed

theorem ofPort (keyed : g.IsKeyed) (hk : k ∈ g.roster) (hp : p ∈ g.portsOf k) :
    (g.port p).identity.isHashable = true :=
  keyed k hk (g.port p).facts (List.mem_map_of_mem hp)

theorem bound (keyed : g.IsKeyed) (hg : g.Coherent) (hp : p ∈ g.boundPorts) :
    (g.port p).identity.isHashable = true := by
  obtain ⟨k, hk, listed⟩ := hg.mem_ports.mp (List.mem_filter.mp hp).1
  exact keyed.ofPort hk listed

/-- Two bound ports are listed together if their identities stand for the same. -/
theorem together_iff (keyed : g.IsKeyed) (hg : g.Coherent) (sorted : g.IsSorted g.boundPorts bs)
    (hp : p ∈ g.boundPorts) (hq : q ∈ g.boundPorts) :
    (∃ b ∈ bs, p ∈ b.ports ∧ q ∈ b.ports) ↔ g.bond p = g.bond q := by
  have keys : ∀ x ∈ g.boundPorts, (g.port x).identity.isHashable = true := fun x hx =>
    keyed.bound hg hx
  constructor
  · rintro ⟨b, hb, left, right⟩
    rw [sorted.mem_ports hb keys] at left right
    exact left.2.symm.trans right.2
  · intro same
    obtain ⟨b, hb, known⟩ := sorted.complete p hp
    refine ⟨b, hb, (sorted.mem_ports hb keys).mpr ⟨hp, known⟩, ?_⟩
    exact (sorted.mem_ports hb keys).mpr ⟨hq, known.trans same⟩

theorem connects_iff (keyed : g.IsKeyed) (hg : g.Coherent) (hp : p ∈ g.boundPorts)
    (hq : q ∈ g.boundPorts) : (g.port p).connects (g.port q) = true ↔
      g.bond p = g.bond q ∧ (g.port p).identity.isNotANumber = false := by
  have left : (g.port p).isBound = true := (List.mem_filter.mp hp).2
  have right : (g.port q).isBound = true := (List.mem_filter.mp hq).2
  rw [Port.connects, left, right, Bool.true_and, Bool.true_and]
  exact Value.equal_iff_of_keys (keyed.bound hg hp) (keyed.bound hg hq)

theorem of_connects (keyed : g.IsKeyed) (hg : g.Coherent) (hp : p ∈ g.ports) (hq : q ∈ g.ports)
    (joined : (g.port p).connects (g.port q) = true) : p ∈ g.boundPorts ∧ q ∈ g.boundPorts ∧
      g.bond p = g.bond q ∧ (g.port p).identity.isNotANumber = false := by
  have bound := joined
  simp only [Port.connects, Bool.and_eq_true] at bound
  have left : p ∈ g.boundPorts := List.mem_filter.mpr ⟨hp, bound.1.1⟩
  have right : q ∈ g.boundPorts := List.mem_filter.mpr ⟨hq, bound.1.2⟩
  exact ⟨left, right, (keyed.connects_iff hg left right).mp joined⟩

theorem connects_symm (keyed : g.IsKeyed) (hg : g.Coherent) (hp : p ∈ g.ports) (hq : q ∈ g.ports)
    (joined : (g.port p).connects (g.port q) = true) :
    (g.port q).connects (g.port p) = true := by
  obtain ⟨left, right, same, proper⟩ := keyed.of_connects hg hp hq joined
  exact (keyed.connects_iff hg right left).mpr
    ⟨same.symm, (Value.isNotANumber_congr same.symm).trans proper⟩

theorem connects_trans (keyed : g.IsKeyed) (hg : g.Coherent) (hp : p ∈ g.ports) (hq : q ∈ g.ports)
    (hx : x ∈ g.ports) (joined : (g.port p).connects (g.port q) = true)
    (joined' : (g.port q).connects (g.port x) = true) :
    (g.port p).connects (g.port x) = true := by
  obtain ⟨left, -, same, proper⟩ := keyed.of_connects hg hp hq joined
  obtain ⟨-, right, same', -⟩ := keyed.of_connects hg hq hx joined'
  exact (keyed.connects_iff hg left right).mpr ⟨same.trans same', proper⟩

theorem isSome_portFor_iff (keyed : g.IsKeyed) (hk : k ∈ g.roster) (hp : p ∈ g.portsOf k)
    (bound : (g.port p).isBound = true) :
    (g.portFor k (g.port p).identity).isSome = true ↔
      (g.port p).identity.isNotANumber = false := by
  have key := keyed.ofPort hk hp
  rw [portFor, if_neg (by simpa [Port.isBound] using bound), List.find?_isSome]
  constructor
  · rintro ⟨q, hq, found⟩
    obtain ⟨same, proper⟩ := (Value.equal_iff_of_keys (keyed.ofPort hk hq) key).mp found
    exact (Value.isNotANumber_congr same).symm.trans proper
  · exact fun proper => ⟨p, hp, (Value.equal_iff_of_keys key key).mpr ⟨rfl, proper⟩⟩

/-- A component without a port of a binding has none with an identity that stands for the same. -/
theorem free_of_portFor (keyed : g.IsKeyed) (hk : k ∈ g.roster) {identity : Value}
    (key : identity.isHashable = true) (bound : identity.isNull = false)
    (free : g.portFor k identity = none) : ∀ f ∈ g.factsOf k,
      f.identity.meaning = identity.meaning → f.identity.isNotANumber = true := by
  intro f hf same
  obtain ⟨q, hq, rfl⟩ := List.mem_map.mp hf
  rw [portFor, if_neg (Bool.eq_false_iff.mp bound), List.find?_eq_none] at free
  by_contra proper
  exact free q hq ((Value.equal_iff_of_keys (keyed.ofPort hk hq) key).mpr
    ⟨same, Bool.not_eq_true _ ▸ proper⟩)

theorem insertPort (keyed : g.IsKeyed) (hg : g.Coherent) (ho : k ∈ g.roster) {facts : PortFacts}
    (key : facts.identity.isHashable = true) : (g.insertPort k facts).2.IsKeyed := by
  intro m hm f hf
  obtain ⟨hm, old | rfl⟩ := mem_factsOf_insertPort hg ho hm hf
  · exact keyed m hm f old
  · exact key

theorem portFor_eq (keyed : g.IsKeyed) (hk : k ∈ g.roster) {v w : Value}
    (hv : v.isHashable = true) (hw : w.isHashable = true) (same : v.meaning = w.meaning) :
    g.portFor k v = g.portFor k w := by
  have null : v.isNull = w.isNull := by
    rw [Bool.eq_iff_iff, Value.isNull_iff hv, Value.isNull_iff hw, same]
  rw [portFor, portFor, null]
  split
  · rfl
  · refine List.find?_congr fun q hq => ?_
    have key := keyed.ofPort hk hq
    rw [Bool.eq_iff_iff, Value.equal_iff_of_keys key hv, Value.equal_iff_of_keys key hw, same]

end IsKeyed

end Schematic.Graph
