import Schematic.Proofs.Graph.Wires
import Schematic.Proofs.PassThrough.History

/-! Each wire is drawn once. In a graph that additions have made, the wires inside a component join
exactly those connected ports that lie next to each other in it, and no two wires of the graph join
the same two ports. -/

namespace Schematic

section Lists

variable {α β : Type} {list : List α} {f : α → List β} {p : α → Bool}

/-- What several members yield is listed once if each of them lists it once and no two of them list
the same. -/
theorem nodup_flatMap_of_source (distinct : list.Nodup) (each : ∀ a ∈ list, (f a).Nodup)
    (source : ∀ a ∈ list, ∀ a' ∈ list, ∀ b, b ∈ f a → b ∈ f a' → a = a') :
    (list.flatMap f).Nodup := by
  apply List.nodup_flatMap.mpr
  refine ⟨each, distinct.imp_of_mem ?_⟩
  intro a a' ha ha' other b hb hb'
  exact other (source a ha a' ha' b hb hb')

theorem countP_le_one (distinct : list.Nodup)
    (only : ∀ a ∈ list, ∀ b ∈ list, p a = true → p b = true → a = b) : list.countP p ≤ 1 := by
  simp only [List.countP_eq_length_filter]
  have left : (list.filter p).Nodup := distinct.filter p
  cases found : list.filter p with
  | nil => simp
  | cons a rest =>
    cases rest with
    | nil => simp
    | cons b rest =>
      have hits : ∀ c ∈ list.filter p, c ∈ list ∧ p c = true := fun c hc => List.mem_filter.mp hc
      simp only [found, List.forall_mem_cons] at hits
      have same : a = b := only a hits.1.1 b hits.2.1.1 hits.1.2 hits.2.1.2
      simp [found, same] at left

end Lists

def Wire.leads (w : Wire) (p q : PortKey) : Bool := w.sourcePort == p && w.targetPort == q

theorem Wire.leads_iff {w : Wire} {p q : PortKey} :
    w.leads p q = true ↔ w.sourcePort = p ∧ w.targetPort = q := by
  simp [Wire.leads]

structure Port.ShareIdentity (p q : Port) : Prop where
  left : p.identity.isNull = false
  right : q.identity.isNull = false
  equal : p.identity.equal q.identity = true

theorem Port.connects_iff {p q : Port} : p.connects q = true ↔ p.ShareIdentity q := by
  simp only [Port.connects, Port.isBound, Bool.and_eq_true, Bool.not_eq_true']
  constructor
  · rintro ⟨⟨left, right⟩, equal⟩
    exact ⟨left, right, equal⟩
  · rintro ⟨left, right, equal⟩
    exact ⟨⟨left, right⟩, equal⟩

namespace Graph

/-- How two ports lie in a component for a wire of a kind: the first is its own and the second that
of a child, or they are an output and an input of two of its children. -/
inductive AreNext (g : Graph) (k : ComponentKey) (p q : PortKey) : WireKind → Prop where
  | parentChild {c : ComponentKey} : p ∈ g.portsOf k → c ∈ g.childrenOf k → q ∈ g.portsOf c →
      AreNext g k p q .parentChild
  | childChild {a b : ComponentKey} : a ∈ g.childrenOf k → b ∈ g.childrenOf k → a ≠ b →
      p ∈ g.portsOf a → q ∈ g.portsOf b → (g.port p).direction = .output →
      (g.port q).direction = .input → AreNext g k p q .childChild

/-- The wires of a graph are right: they join what is to be joined, each once. -/
structure DrawsExactly (g : Graph) : Prop where
  drawn : ∀ k ∈ g.components, ∀ p q kind, (∃ w ∈ g.wires k, w.leads p q = true ∧ w.kind = kind) ↔
    (g.port p).ShareIdentity (g.port q) ∧ g.AreNext k p q kind
  owned : ∀ k ∈ g.components, ∀ w ∈ g.wires k,
    w.sourcePort ∈ g.portsOf w.source ∧ w.targetPort ∈ g.portsOf w.target
  once : ∀ k ∈ g.components, ∀ p q kind, (g.port p).ShareIdentity (g.port q) →
    g.AreNext k p q kind → (g.wires k).countP (fun w => w.leads p q) = 1
  single : ∀ p q,
    (g.components.flatMap g.wires).countP (fun w => w.leads p q || w.leads q p) ≤ 1
  apart : ∀ k ∈ g.components, ∀ w ∈ g.wires k, w.sourcePort ≠ w.targetPort

variable {g : Graph} {k m : ComponentKey} {p q : PortKey} {w w' : Wire} {kind : WireKind}

namespace Coherent

theorem exists_wire_iff (hg : g.Coherent) (hk : k ∈ g.roster) :
    (∃ w ∈ g.wires k, w.leads p q = true ∧ w.kind = kind) ↔
      (g.port p).connects (g.port q) = true ∧ g.AreNext k p q kind := by
  constructor
  · rintro ⟨w, hw, leads, rfl⟩
    obtain ⟨rfl, rfl⟩ := Wire.leads_iff.mp leads
    rcases List.mem_append.mp hw with outer | inner
    · obtain ⟨p, hp, c, hc, q, hq, joined, rfl⟩ := mem_boundaryWires.mp outer
      exact ⟨joined, .parentChild hp hc hq⟩
    · obtain ⟨a, ha, p, hp, b, hb, q, hq, other, -, out, into, joined, rfl⟩ :=
        mem_innerWires.mp inner
      exact ⟨joined, .childChild ha hb other.symm hp hq ((isInput_eq_false_iff _).mp out)
        ((isInput_iff _).mp into)⟩
  · rintro ⟨joined, near⟩
    cases near with
    | @parentChild c hp hc hq =>
      refine ⟨⟨k, p, c, q, .parentChild⟩, List.mem_append_left _ ?_, by simp [Wire.leads], rfl⟩
      exact mem_boundaryWires.mpr ⟨p, hp, c, hc, q, hq, joined, rfl⟩
    | @childChild a b ha hb other hp hq out into =>
      -- a port is not at two children
      have apart : q ≠ p := fun same =>
        other (hg.owner_unique (hg.child_mem ⟨hk, ha⟩) (hg.child_mem ⟨hk, hb⟩) hp (same ▸ hq))
      refine ⟨⟨a, p, b, q, .childChild⟩, List.mem_append_right _ ?_, by simp [Wire.leads], rfl⟩
      exact mem_innerWires.mpr ⟨a, ha, p, hp, b, hb, q, hq, other.symm, apart,
        (isInput_eq_false_iff _).mpr out, (isInput_iff _).mpr into, joined, rfl⟩

theorem boundaryWires_nodup (hg : g.Coherent) (hk : k ∈ g.roster) : (g.boundaryWires k).Nodup := by
  apply nodup_flatMap_of_source (hg.ports_nodup hk)
  · intro p _
    apply nodup_flatMap_of_source (hg.children_nodup hk)
    · intro c hc
      have ports : (g.portsOf c).Nodup := hg.ports_nodup (hg.child_mem ⟨hk, hc⟩)
      exact (ports.filter _).map fun q q' same => (Wire.mk.inj same).2.2.2.1
    · intro c _ c' _ w hw hw'
      obtain ⟨q, -, rfl⟩ := List.mem_map.mp hw
      obtain ⟨q', -, same⟩ := List.mem_map.mp hw'
      exact (Wire.mk.inj same).2.2.1.symm
  · intro p _ p' _ w hw hw'
    simp only [List.mem_flatMap, List.mem_map] at hw hw'
    obtain ⟨c, -, q, -, rfl⟩ := hw
    obtain ⟨c', -, q', -, same⟩ := hw'
    exact (Wire.mk.inj same).2.1.symm

theorem innerWires_nodup (hg : g.Coherent) (hk : k ∈ g.roster) : (g.innerWires k).Nodup := by
  have ports (c : ComponentKey) (hc : c ∈ g.childrenOf k) : (g.portsOf c).Nodup :=
    hg.ports_nodup (hg.child_mem ⟨hk, hc⟩)
  -- each of the four nested lists is told by one field of the wire
  apply nodup_flatMap_of_source (hg.children_nodup hk)
  · intro a ha
    apply nodup_flatMap_of_source ((ports a ha).filter _)
    · intro p _
      apply nodup_flatMap_of_source ((hg.children_nodup hk).filter _)
      · intro b hb
        have listed : b ∈ g.childrenOf k := (List.mem_filter.mp hb).1
        exact ((ports b listed).filter _).map fun q q' same => (Wire.mk.inj same).2.2.2.1
      · intro b _ b' _ w hw hw'
        obtain ⟨q, -, rfl⟩ := List.mem_map.mp hw
        obtain ⟨q', -, same⟩ := List.mem_map.mp hw'
        exact (Wire.mk.inj same).2.2.1.symm
    · intro p _ p' _ w hw hw'
      simp only [List.mem_flatMap, List.mem_map] at hw hw'
      obtain ⟨b, -, q, -, rfl⟩ := hw
      obtain ⟨b', -, q', -, same⟩ := hw'
      exact (Wire.mk.inj same).2.1.symm
  · intro a _ a' _ w hw hw'
    simp only [List.mem_flatMap, List.mem_map] at hw hw'
    obtain ⟨p, -, b, -, q, -, rfl⟩ := hw
    obtain ⟨p', -, b', -, q', -, same⟩ := hw'
    exact (Wire.mk.inj same).1.symm

theorem wires_nodup (hg : g.Coherent) (hk : k ∈ g.roster) : (g.wires k).Nodup := by
  refine List.nodup_append.mpr ⟨hg.boundaryWires_nodup hk, hg.innerWires_nodup hk, ?_⟩
  intro w outer w' inner same
  obtain ⟨p, -, c, -, q, -, -, rfl⟩ := mem_boundaryWires.mp outer
  obtain ⟨a, -, p', -, b, -, q', -, -, -, -, -, -, rfl⟩ := mem_innerWires.mp inner
  cases same

/-- A wire lies inside one component only, the parent of its target. -/
theorem allWires_nodup (hg : g.Coherent) : (g.components.flatMap g.wires).Nodup := by
  apply nodup_flatMap_of_source hg.components_nodup
  · intro k hk
    exact hg.wires_nodup (hg.mem_components.mp hk)
  · intro k hk m hm w hw hw'
    have inside := (hg.lies (hg.mem_components.mp hk) hw).target
    have inside' := (hg.lies (hg.mem_components.mp hm) hw').target
    exact hg.parent_unique inside inside'

/-- No wire leads back from where another one leads to. Between a parent and its child wires lead
down, and between two children from an output to an input. -/
theorem not_reversed (hg : g.Coherent) (hk : k ∈ g.roster) (hm : m ∈ g.roster)
    (hw : w ∈ g.wires k) (hw' : w' ∈ g.wires m) (source : w.sourcePort = w'.targetPort) :
    w.targetPort ≠ w'.sourcePort := by
  intro target
  have lies := hg.lies hk hw
  have lies' := hg.lies hm hw'
  have first : w.source = w'.target := hg.owner_unique lies.source (hg.child_mem lies'.target)
    lies.leaves (source ▸ lies'.enters)
  have last : w.target = w'.source := hg.owner_unique (hg.child_mem lies.target) lies'.source
    lies.enters (target ▸ lies'.leaves)
  have down : g.IsParent k w'.source := last ▸ lies.target
  have down' : g.IsParent m w.source := first ▸ lies'.target
  rcases lies.side with ⟨here, -⟩ | ⟨inside, inner⟩
  · rcases lies'.side with ⟨here', -⟩ | ⟨inside', -⟩
    · exact hg.not_encloses_parent down (here' ▸ here ▸ down'.encloses)
    · cases hg.parent_unique down inside'
      exact hg.not_encloses_parent down' (here ▸ .refl _)
  · cases hg.parent_unique inside down'
    rcases lies'.side with ⟨here', -⟩ | ⟨-, inner'⟩
    · exact hg.not_encloses_parent down (here' ▸ .refl _)
    · have out := ((hg.exists_wire_iff hk).mp ⟨w, hw, Wire.leads_iff.mpr ⟨rfl, rfl⟩, inner⟩).2
      have out' :=
        ((hg.exists_wire_iff hk).mp ⟨w', hw', Wire.leads_iff.mpr ⟨rfl, rfl⟩, inner'⟩).2
      cases out with
      | childChild _ _ _ _ _ output _ =>
        cases out' with
        | childChild _ _ _ _ _ _ input =>
          rw [source, input] at output
          cases output

/-- Two wires of the graph with the same two ports, in either direction, are one. -/
theorem wire_unique (hg : g.Coherent) (hw : w ∈ g.components.flatMap g.wires)
    (hw' : w' ∈ g.components.flatMap g.wires) (joins : (w.leads p q || w.leads q p) = true)
    (joins' : (w'.leads p q || w'.leads q p) = true) : w = w' := by
  obtain ⟨k, hk, hw⟩ := List.mem_flatMap.mp hw
  obtain ⟨m, hm, hw'⟩ := List.mem_flatMap.mp hw'
  rw [hg.mem_components] at hk hm
  have lies := hg.lies hk hw
  have lies' := hg.lies hm hw'
  simp only [Bool.or_eq_true, Wire.leads_iff] at joins joins'
  rcases joins with ⟨rfl, rfl⟩ | ⟨rfl, rfl⟩ <;>
    rcases joins' with ⟨source, target⟩ | ⟨source, target⟩
  · exact lies.eq_of_ports lies' hg source.symm target.symm
  · exact absurd source.symm (hg.not_reversed hk hm hw hw' target.symm)
  · exact absurd source.symm (hg.not_reversed hk hm hw hw' target.symm)
  · exact lies.eq_of_ports lies' hg source.symm target.symm

theorem drawsExactly (hg : g.Coherent) : g.DrawsExactly where
  drawn := fun k hk p q kind => by
    rw [hg.exists_wire_iff (hg.mem_components.mp hk), Port.connects_iff]
  owned := fun k hk w hw =>
    have lies := hg.lies (hg.mem_components.mp hk) hw
    ⟨lies.leaves, lies.enters⟩
  once := by
    intro k hk p q kind joined near
    have inside : k ∈ g.roster := hg.mem_components.mp hk
    obtain ⟨w, hw, leads, -⟩ :=
      (hg.exists_wire_iff inside).mpr ⟨Port.connects_iff.mpr joined, near⟩
    have some : 0 < (g.wires k).countP fun w => w.leads p q :=
      List.countP_pos_iff.mpr ⟨w, hw, leads⟩
    have most : (g.wires k).countP (fun w => w.leads p q) ≤ 1 := by
      apply countP_le_one (hg.wires_nodup inside)
      intro w hw w' hw' leads leads'
      have joins : (w.leads p q || w.leads q p) = true := by simp [leads]
      have joins' : (w'.leads p q || w'.leads q p) = true := by simp [leads']
      exact hg.wire_unique (List.mem_flatMap.mpr ⟨k, hk, hw⟩) (List.mem_flatMap.mpr ⟨k, hk, hw'⟩)
        joins joins'
    omega
  single := fun p q => countP_le_one hg.allWires_nodup fun w hw w' hw' joins joins' =>
    hg.wire_unique hw hw' joins joins'
  apart := fun k hk w hw => (hg.lies (hg.mem_components.mp hk) hw).apart

end Coherent

/-- In every graph that additions have made, a wire leads from one port to another inside a
component exactly if the ports share an identity and lie next to each other there. There is one
such wire then, no other one in the graph joins the two ports, and none joins a port with
itself. -/
theorem wires_are_exact (additions : List Addition) :
    (({} : Graph).grow additions).DrawsExactly :=
  (IsBuilt.empty.grow additions).coherent.drawsExactly

-- of a binding with a port at the root and at both children, the input of the first child gets no
-- wire to the other child
example : ((({} : Graph).grow (twoBranches ++
    [.port ⟨0⟩
      { name := .text "top.i", basename := .text "i", direction := .input
        typeName := .text "sc_in", identity := .text "s" },
    .port ⟨1⟩
      { name := .text "top.a.i", basename := .text "i", direction := .input
        typeName := .text "sc_in", identity := .text "s" }])).wires ⟨0⟩) =
    [⟨⟨0⟩, ⟨2⟩, ⟨1⟩, ⟨3⟩, .parentChild⟩, ⟨⟨0⟩, ⟨2⟩, ⟨3⟩, ⟨1⟩, .parentChild⟩] := by
  decide +kernel

end Graph

end Schematic
