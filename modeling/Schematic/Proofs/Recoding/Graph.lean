import Schematic.Proofs.Graph.Rebound
import Schematic.Proofs.Recoding.Basic
import Schematic.Proofs.Recoding.Carry

/-! Graphs with other identities. Only the questions whether two ports are of one binding, and
whether a port is of any, look at identities, and these are answered as before. Steps on such graphs
therefore do the same. -/

namespace Schematic

namespace Graph

open Schematic.Action

variable {c : Recoding} {g : Graph} {k : ComponentKey} {facts : PortFacts}

def IsKnown (c : Recoding) (g : Graph) : Prop := ∀ p ∈ g.arena.ports, c.Knows p.identity

abbrev Recodes {α : Type} (c : Recoding) (act act' : Action Graph α) (g : Graph) : Prop :=
  Carries (Graph.recoded c) (IsKnown c) act act' g

@[simp] theorem component_recoded (c : Recoding) (g : Graph) (k : ComponentKey) :
    (g.recoded c).component k = g.component k := rfl

@[simp] theorem register_recoded (c : Recoding) (g : Graph) :
    (g.recoded c).register = g.register := rfl

@[simp] theorem port_recoded (c : Recoding) (g : Graph) (q : PortKey) :
    (g.recoded c).port q = (g.port q).recoded c :=
  port_withIdentities (f := c.apply) rfl q

theorem IsKnown.port (known : g.IsKnown c) (q : PortKey) : c.Knows (g.port q).identity := by
  rw [Graph.port, Arena.port, Array.getD_eq_getD_getElem?]
  cases found : g.arena.ports[q.index]? with
  | none => exact .inl rfl
  | some p => exact known p (Array.mem_of_getElem? found)

theorem insertPort_recoded (c : Recoding) (g : Graph) (k : ComponentKey) (facts : PortFacts) :
    (g.recoded c).insertPort k (facts.recoded c) =
      ((g.insertPort k facts).1, (g.insertPort k facts).2.recoded c) := by
  simp only [insertPort, takeId, recoded, Arena.pushPort, Arena.changeComponent, Array.size_map,
    Array.map_push]
  rfl

theorem IsKnown.insertPort (known : g.IsKnown c) (new : c.Knows facts.identity)
    (k : ComponentKey) : (g.insertPort k facts).2.IsKnown c := by
  intro p hp
  rcases Array.mem_push.mp hp with old | rfl
  · exact known p old
  · exact new

theorem insertComponent_recoded (c : Recoding) (g : Graph) (name basename typeName : Value)
    (parent : Option ComponentKey) :
    (g.recoded c).insertComponent name basename typeName parent =
      ((g.insertComponent name basename typeName parent).1,
        (g.insertComponent name basename typeName parent).2.recoded c) := by
  cases parent <;> rfl

theorem IsKnown.insertComponent (known : g.IsKnown c) (name basename typeName : Value)
    (parent : Option ComponentKey) :
    (g.insertComponent name basename typeName parent).2.IsKnown c := by
  cases parent <;> exact known

theorem recodes_addComponent (known : g.IsKnown c) (name basename typeName : Value)
    (parent : Option ComponentKey) :
    g.Recodes c (addComponent name basename typeName parent)
      (addComponent name basename typeName parent) := by
  have added (message : Text) {h : Graph} (known : h.IsKnown c) :
      let addition : Action Graph ComponentKey := do
        Action.note .debug .graph message
        Action.update fun g => g.insertComponent name basename typeName parent
      h.Recodes c addition addition :=
    .bind (carries_note known) fun _ i known => carries_update
      (insertComponent_recoded c i name basename typeName parent)
      (known.insertComponent name basename typeName parent)
  unfold addComponent
  refine .look ?_
  rw [register_recoded]
  cases parent with
  | none =>
    cases g.register.root with
    | none => exact added _ known
    | some root => exact .bind (carries_fail _ known) fun _ _ known => added _ known
  | some p =>
    have same : (g.recoded c).registers p = g.registers p := rfl
    simp only [same]
    cases g.registers p with
    | true => exact added _ known
    | false => exact .bind (carries_fail _ known) fun _ _ known => added _ known

theorem recodes_addPort (known : g.IsKnown c) (k : ComponentKey) (new : c.Knows facts.identity) :
    g.Recodes c (addPort k facts) (addPort k (facts.recoded c)) := by
  unfold addPort
  refine .look ?_
  have same : (g.recoded c).registers k = g.registers k := rfl
  rw [same]
  cases g.registers k with
  | true => exact carries_update (insertPort_recoded c g k facts) (known.insertPort new k)
  | false => exact carries_fail _ known

section Reading

variable (c : Recoding) (g : Graph)

theorem outline_recoded : (g.recoded c).outline = g.outline := outline_withIdentities c.apply g

theorem ports_recoded : (g.recoded c).ports = g.ports := ports_withIdentities c.apply g

theorem owner_recoded (p : PortKey) : (g.recoded c).owner p = g.owner p :=
  owner_withIdentities (f := c.apply) rfl p

theorem trail_recoded (start goal : ComponentKey) :
    (g.recoded c).trail start goal = g.trail start goal :=
  trail_withIdentities c.apply g start goal

end Reading

end Graph

end Schematic
