import Schematic.Proofs.Graph.Extension

/-! Graphs with other identities. Identities stand on ports and nowhere else, so whatever a map
makes of them, the tree of a graph, its owners and its trails stay as they are. -/

namespace Schematic

def Value.keptFor (identity v : Value) : Value := if v.equal identity then v else .null

theorem Value.keptFor_null (identity : Value) : keptFor identity .null = .null := ite_self _

def Port.withIdentity (f : Value → Value) (p : Port) : Port := { p with identity := f p.identity }

namespace Graph

def withIdentities (f : Value → Value) (g : Graph) : Graph :=
  { g with arena := { g.arena with ports := g.arena.ports.map (Port.withIdentity f) } }

/-- The graph in which the ports of one identity are bound and no others. -/
def boundOnlyTo (identity : Value) (g : Graph) : Graph :=
  g.withIdentities (Value.keptFor identity)

variable {f : Value → Value} {g : Graph}

theorem port_withIdentities (null : f .null = .null) (q : PortKey) :
    (g.withIdentities f).port q = (g.port q).withIdentity f := by
  have none : (default : Port).withIdentity f = default :=
    congrArg (fun v => { (default : Port) with identity := v }) null
  simp only [port, withIdentities, Arena.port, Array.getD_eq_getD_getElem?, Array.getElem?_map]
  cases g.arena.ports[q.index]? with
  | none => exact none.symm
  | some p => rfl

section Reading

variable (f : Value → Value) (g : Graph)

@[simp] theorem component_withIdentities (k : ComponentKey) :
    (g.withIdentities f).component k = g.component k := rfl

@[simp] theorem register_withIdentities : (g.withIdentities f).register = g.register := rfl

theorem outlineTo_withIdentities (depth : Nat) :
    (g.withIdentities f).outlineTo depth = g.outlineTo depth := by
  induction depth with
  | zero => rfl
  | succ depth ih =>
    funext k
    simp only [outlineTo, childrenOf, component_withIdentities, ih]

theorem outline_withIdentities : (g.withIdentities f).outline = g.outline := by
  rw [outline, outline, register_withIdentities]
  exact congrArg (g.register.root.map ·) (outlineTo_withIdentities f g _)

theorem components_withIdentities : (g.withIdentities f).components = g.components := by
  rw [components, components, outline_withIdentities]

theorem ports_withIdentities : (g.withIdentities f).ports = g.ports := by
  rw [ports, components_withIdentities]
  rfl

theorem parent_withIdentities (k : ComponentKey) : (g.withIdentities f).parent k = g.parent k := rfl

theorem searchFrom_withIdentities (goal : ComponentKey) (depth : Nat) :
    (g.withIdentities f).searchFrom goal depth = g.searchFrom goal depth := by
  induction depth with
  | zero => rfl
  | succ depth ih =>
    funext current upwards visited
    simp only [searchFrom, childrenOf, component_withIdentities, parent_withIdentities, ih]

theorem trail_withIdentities (start goal : ComponentKey) :
    (g.withIdentities f).trail start goal = g.trail start goal := by
  rw [trail, searchFrom_withIdentities]
  rfl

end Reading

theorem owner_withIdentities (null : f .null = .null) (p : PortKey) :
    (g.withIdentities f).owner p = g.owner p := by
  rw [owner, port_withIdentities null]
  rfl

theorem Coherent.withIdentities (hg : g.Coherent) (null : f .null = .null) :
    (g.withIdentities f).Coherent :=
  { hg with
    port_entry := fun {n q} entry => by
      obtain ⟨inside, id⟩ := hg.port_entry entry
      refine ⟨(Array.size_map ..).symm ▸ inside, ?_⟩
      rw [port_withIdentities null]
      exact id
    owned := fun {k q} hk hq => by
      obtain ⟨listed, owner⟩ := hg.owned hk hq
      refine ⟨listed, ?_⟩
      rw [port_withIdentities null]
      exact owner }

theorem factsOf_withIdentities (null : f .null = .null) (k : ComponentKey) :
    (g.withIdentities f).factsOf k =
      (g.factsOf k).map fun facts => { facts with identity := f facts.identity } := by
  simp only [factsOf, List.map_map, port_withIdentities null]
  rfl

theorem Ordinary.withIdentities (ord : g.Ordinary) (null : f .null = .null)
    (proper : ∀ v : Value, v.IsIdentity → (f v).IsIdentity) : (g.withIdentities f).Ordinary where
  name := ord.name
  basename := by
    intro k hk facts hfacts
    rw [factsOf_withIdentities null, List.mem_map] at hfacts
    obtain ⟨old, listed, rfl⟩ := hfacts
    exact ord.basename k hk old listed
  identity := by
    intro k hk facts hfacts
    rw [factsOf_withIdentities null, List.mem_map] at hfacts
    obtain ⟨old, listed, rfl⟩ := hfacts
    exact proper old.identity (ord.identity k hk old listed)

end Graph

end Schematic
