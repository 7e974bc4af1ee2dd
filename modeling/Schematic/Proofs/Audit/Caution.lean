import Schematic.Proofs.Audit.Agreement
import Schematic.Proofs.Graph.Wiring
import Schematic.Proofs.PassThrough.Chain

/-! What becomes of a binding that the validator warns of. Without a driver or a receiver nothing is
drawn for it between two children of a component, but between a component and its child wires ask
for no direction, so it is drawn wherever both own a port of it. -/

namespace Schematic

namespace Graph

def HasFamily (g : Graph) (identity : Value) : Prop :=
  ∃ k c, g.IsParent k c ∧ (∃ p ∈ g.portsOf k, (g.port p).identity.equal identity = true) ∧
    ∃ q ∈ g.portsOf c, (g.port q).identity.equal identity = true

/-- How an identity without a driver or a receiver is drawn: wires lead from the ports of a
component to those of its children, so that there are none exactly if no family has it. -/
structure LeadsDown (g : Graph) (identity : Value) : Prop where
  drawn : ∀ k ∈ g.components, ∀ p q kind, (g.port p).identity.equal identity = true →
    (g.port q).identity.equal identity = true →
      ((∃ w ∈ g.wires k, w.leads p q = true ∧ w.kind = kind) ↔
        kind = .parentChild ∧ p ∈ g.portsOf k ∧ ∃ c ∈ g.childrenOf k, q ∈ g.portsOf c)
  undrawn : (∀ k ∈ g.components, ∀ w ∈ g.wires k,
      ¬ ((g.port w.sourcePort).identity.equal identity = true ∧
        (g.port w.targetPort).identity.equal identity = true)) ↔ ¬ g.HasFamily identity

variable {g : Graph} {bs : List Binding} {b : Binding} {k : ComponentKey} {d p q r : PortKey}
  {kind : WireKind}

/-- A binding goes by the identity of a port that is bound. -/
theorem Sound.binding_proper (hg : g.Sound) (made : g.bindings = .ok bs) (hb : b ∈ bs) :
    b.identity.IsIdentity ∧ b.identity.isNull = false := by
  rcases bindingsOf_identity made b hb with ⟨c, hc, -⟩ | ⟨p, hp, same⟩
  · cases hc
  · obtain ⟨known, bound⟩ := List.mem_filter.mp hp
    obtain ⟨k, hk, owned⟩ := hg.coherent.mem_ports.mp known
    have proper : (g.port p).identity.IsIdentity := hg.ordinary.identified k hk p owned
    simp only [Port.isBound, Bool.not_eq_true'] at bound
    exact ⟨same ▸ proper, same ▸ bound⟩

theorem IsOneSided.not_both (lone : g.IsOneSided b) (hd : d ∈ b.ports) (hr : r ∈ b.ports)
    (out : (g.port d).direction = .output) : (g.port r).direction ≠ .input := by
  intro into
  rcases lone.2 with none | none
  · have driver : d ∈ b.drivers g :=
      List.mem_filter.mpr ⟨hd, by simp [(isInput_eq_false_iff _).mpr out]⟩
    simp [List.length_eq_zero_iff.mp none] at driver
  · have receiver : r ∈ b.receivers g :=
      List.mem_filter.mpr ⟨hr, (isInput_iff _).mpr into⟩
    simp [List.length_eq_zero_iff.mp none] at receiver

theorem Sound.mem_binding_ports (hg : g.Sound) (made : g.bindings = .ok bs) (hb : b ∈ bs)
    (hk : k ∈ g.roster) (hp : p ∈ g.portsOf k)
    (same : (g.port p).identity.equal b.identity = true) : p ∈ b.ports := by
  obtain ⟨bs', made', -, sorted⟩ := exists_bindings hg.coherent hg.ordinary
  cases made.symm.trans made'
  have keyed := hg.ordinary.isKeyed
  obtain ⟨proper, bound⟩ := hg.binding_proper made hb
  have own : (g.port p).identity.IsIdentity := hg.ordinary.identified k hk p hp
  rw [Value.equal_iff own proper] at same
  have known : p ∈ g.ports := hg.coherent.mem_ports.mpr ⟨k, hk, hp⟩
  refine (sorted.mem_ports hb fun q hq => keyed.bound hg.coherent hq).mpr ⟨?_, same.symm⟩
  refine (mem_boundPorts (keyed.ofPort hk hp)).mpr ⟨known, fun null => ?_⟩
  rw [(Value.isNull_iff proper.1).mpr (same ▸ null)] at bound
  cases bound

/-- Between two ports of a one-sided binding there is a wire exactly if the first is at a component
and the second at a child of it. -/
theorem Sound.drawn_iff (hg : g.Sound) (made : g.bindings = .ok bs) (hb : b ∈ bs)
    (lone : g.IsOneSided b) (hk : k ∈ g.roster) (left : (g.port p).identity.equal b.identity = true)
    (right : (g.port q).identity.equal b.identity = true) :
    (∃ w ∈ g.wires k, w.leads p q = true ∧ w.kind = kind) ↔
      kind = .parentChild ∧ p ∈ g.portsOf k ∧ ∃ c ∈ g.childrenOf k, q ∈ g.portsOf c := by
  rw [hg.coherent.exists_wire_iff hk]
  constructor
  · rintro ⟨-, near⟩
    cases near with
    | parentChild hp hc hq => exact ⟨rfl, hp, _, hc, hq⟩
    | childChild ha hc other hp hq out into =>
      -- the binding would have a driver and a receiver
      have driver : p ∈ b.ports :=
        hg.mem_binding_ports made hb (hg.coherent.child_mem ⟨hk, ha⟩) hp left
      have receiver : q ∈ b.ports :=
        hg.mem_binding_ports made hb (hg.coherent.child_mem ⟨hk, hc⟩) hq right
      exact absurd into (lone.not_both driver receiver out)
  · rintro ⟨rfl, hp, c, hc, hq⟩
    obtain ⟨proper, bound⟩ := hg.binding_proper made hb
    have own : (g.port p).identity.IsIdentity := hg.ordinary.identified k hk p hp
    have other : (g.port q).identity.IsIdentity :=
      hg.ordinary.identified c (hg.coherent.child_mem ⟨hk, hc⟩) q hq
    exact ⟨connects_of_equal own other proper bound left right, .parentChild hp hc hq⟩

theorem Sound.leadsDown (hg : g.Sound) (made : g.bindings = .ok bs) (hb : b ∈ bs)
    (lone : g.IsOneSided b) : g.LeadsDown b.identity := by
  have inside {k : ComponentKey} : k ∈ g.components ↔ k ∈ g.roster := hg.coherent.mem_components
  refine ⟨fun k hk p q kind left right => hg.drawn_iff made hb lone (inside.mp hk) left right,
    not_iff_not.mp ?_⟩
  simp only [not_forall, not_not]
  constructor
  · rintro ⟨k, hk, w, hw, left, right⟩
    have leads : w.leads w.sourcePort w.targetPort = true := Wire.leads_iff.mpr ⟨rfl, rfl⟩
    obtain ⟨-, hp, c, hc, hq⟩ :=
      (hg.drawn_iff made hb lone (inside.mp hk) left right).mp ⟨w, hw, leads, rfl⟩
    exact ⟨k, c, ⟨inside.mp hk, hc⟩, ⟨_, hp, left⟩, _, hq, right⟩
  · rintro ⟨k, c, step, ⟨p, hp, left⟩, q, hq, right⟩
    obtain ⟨w, hw, leads, -⟩ :=
      (hg.drawn_iff made hb lone step.1 left right).mpr ⟨rfl, hp, c, step.2, hq⟩
    obtain ⟨rfl, rfl⟩ := Wire.leads_iff.mp leads
    exact ⟨k, inside.mpr step.1, w, hw, left, right⟩

end Graph

namespace Audit

open Schematic.Graph

variable {g : Graph} {σ : Type}

theorem flatMap_cautions (bs : List Binding) :
    bs.flatMap (cautions g) = (bs.filter fun b => g.IsOneSided b).map (caution g) := by
  induction bs with
  | nil => rfl
  | cons b bs ih =>
    by_cases lone : g.IsOneSided b <;> simp [cautions, lone, ih]

/-- On every graph with a root that additions have made, with texts as names, the validator warns of
exactly the bindings of several ports that lack a driver or a receiver, unless the identity of one
of them is too long to be written. Such a binding is drawn from components down to their children
only, and nothing is drawn for it exactly if no component and child of it both own a port of it. -/
theorem warned_bindings_lead_down (additions : List Addition)
    (spelled : ∀ a ∈ additions, a.IsSpelled) {root : ComponentKey}
    (rooted : (({} : Graph).grow additions).register.root = some root) (s : σ) :
    let g := ({} : Graph).grow additions
    (validate g).Needs s g.CanWarn fun report _ => ∃ bs, g.bindings = .ok bs ∧
      report.warnings = (bs.filter fun b => g.IsOneSided b).map (caution g) ∧
      ∀ b ∈ bs, g.IsOneSided b → g.LeadsDown b.identity := by
  intro g
  have hg : g.IsSpelled := isSpelled_grow spelled
  refine (needs_validate_warnings hg.toSound rooted (canReport_of_spelled hg) s).weaken ?_
  intro report _ warned
  obtain ⟨bs, made, warnings⟩ := warned
  refine ⟨bs, made, warnings.trans (flatMap_cautions bs), fun b hb lone => ?_⟩
  exact hg.toSound.leadsDown made hb lone

/-- Two inputs of one binding, at the root and at its child. -/
def nestedInputs : List Addition :=
  [.component (.text "top") (.text "top") (.text "Top") none,
    .component (.text "top.a") (.text "a") (.text "A") (some ⟨0⟩),
    .port ⟨0⟩
      { name := .text "top.i", basename := .text "i", direction := .input
        typeName := .text "sc_in", identity := .text "s" },
    .port ⟨1⟩
      { name := .text "top.a.j", basename := .text "j", direction := .input
        typeName := .text "sc_in", identity := .text "s" }]

theorem warned_bindings_lead_down_to_child :
    (∀ a ∈ nestedInputs, a.IsSpelled) ∧
      (({} : Graph).grow nestedInputs).register.root = some ⟨0⟩ ∧
      let g := ({} : Graph).grow nestedInputs
      ∃ report b, (validate g ()).answer = .ok report ∧ report.warnings = [caution g b] ∧
        b.ports = [⟨0⟩, ⟨1⟩] ∧ g.LeadsDown b.identity ∧
        g.wires ⟨0⟩ = [⟨⟨0⟩, ⟨0⟩, ⟨1⟩, ⟨1⟩, .parentChild⟩] := by
  have spelled : ∀ a ∈ nestedInputs, a.IsSpelled := by
    simp only [nestedInputs, List.forall_mem_cons, Addition.IsSpelled]
    exact ⟨⟨_, rfl⟩, ⟨_, rfl⟩, ⟨⟨_, rfl⟩, ⟨_, rfl⟩, rfl, rfl⟩, ⟨⟨_, rfl⟩, ⟨_, rfl⟩, rfl, rfl⟩,
      List.forall_mem_nil _⟩
  have rooted : (({} : Graph).grow nestedInputs).register.root = some ⟨0⟩ := by decide +kernel
  have writable : (({} : Graph).grow nestedInputs).bindings.toOption.all
      (fun bs => bs.all fun b => b.identity.isWritable) = true := by
    decide +kernel
  have listed : ((({} : Graph).grow nestedInputs).bindings.toOption.map
      fun bs => bs.map Binding.ports) = some [[⟨0⟩, ⟨1⟩]] := by
    decide +kernel
  have inputs : ((({} : Graph).grow nestedInputs).port ⟨0⟩).isInput = true ∧
      ((({} : Graph).grow nestedInputs).port ⟨1⟩).isInput = true := by
    decide +kernel
  have drawn : (({} : Graph).grow nestedInputs).wires ⟨0⟩ =
      [⟨⟨0⟩, ⟨0⟩, ⟨1⟩, ⟨1⟩, .parentChild⟩] := by
    decide +kernel
  refine ⟨spelled, rooted, ?_⟩
  obtain ⟨report, validated, bs, made, warnings, down⟩ :=
    (warned_bindings_lead_down nestedInputs spelled rooted ()).answers fun bs made b hb _ => by
      rw [made] at writable
      exact List.all_eq_true.mp writable b hb
  rw [made] at listed
  obtain ⟨b, rfl, ports⟩ : ∃ b, bs = [b] ∧ b.ports = [⟨0⟩, ⟨1⟩] := by
    simpa [Except.toOption, List.map_eq_cons_iff] using listed
  have lone : (({} : Graph).grow nestedInputs).IsOneSided b := by
    simp [IsOneSided, Binding.drivers, ports, inputs]
  rw [List.filter_cons_of_pos (by simpa using lone)] at warnings
  exact ⟨report, b, validated, warnings, ports, down b List.mem_cons_self lone, drawn⟩

end Audit

end Schematic
