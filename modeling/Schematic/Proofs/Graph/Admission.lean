import Schematic.Proofs.Graph.Attachment
import Schematic.Proofs.Graph.Nesting

/-! Which additions a coherent graph admits, and what they leave. A refused addition leaves the
graph as it was. -/

namespace Schematic.Graph

variable {g : Graph} {parent : Option ComponentKey} {owner : ComponentKey}

theorem addComponent_granted (hg : g.Coherent) (host : g.CanHost parent)
    (name basename typeName : Value) :
    ∃ log, addComponent name basename typeName parent g =
      ⟨.ok g.freshComponent, (g.insertComponent name basename typeName parent).2, log⟩ := by
  cases parent with
  | none =>
    have empty : g.register.root = none := host
    simp [addComponent, Action.bind_apply, Action.state, empty, Action.note, Action.update]
  | some p =>
    have known : g.registers p = true := hg.registers_iff.mpr host
    simp [addComponent, Action.bind_apply, Action.state, known, Action.note, Action.update]

theorem addComponent_refused (hg : g.Coherent) (strange : ¬ g.CanHost parent)
    (name basename typeName : Value) :
    ∃ e, addComponent name basename typeName parent g = ⟨.error e, g, []⟩ := by
  cases parent with
  | none =>
    obtain ⟨r, root⟩ := Option.ne_none_iff_exists'.mp strange
    simp [addComponent, Action.bind_apply, Action.state, root, Action.fail]
  | some p =>
    have unknown : g.registers p = false :=
      Bool.eq_false_iff.mpr fun known => strange (hg.registers_iff.mp known)
    simp [addComponent, Action.bind_apply, Action.state, unknown, Action.fail]

theorem addPort_granted (hg : g.Coherent) (ho : owner ∈ g.roster) (facts : PortFacts) :
    addPort owner facts g = ⟨.ok g.freshPort, (g.insertPort owner facts).2, []⟩ := by
  have known : g.registers owner = true := hg.registers_iff.mpr ho
  simp [addPort, Action.bind_apply, Action.state, known, Action.update]

theorem addPort_refused (hg : g.Coherent) (strange : owner ∉ g.roster) (facts : PortFacts) :
    ∃ e, addPort owner facts g = ⟨.error e, g, []⟩ := by
  have unknown : g.registers owner = false :=
    Bool.eq_false_iff.mpr fun known => strange (hg.registers_iff.mp known)
  simp [addPort, Action.bind_apply, Action.state, unknown, Action.fail]

end Schematic.Graph
