import Schematic.Proofs.Graph.Extension
import Schematic.Proofs.Graph.Preorder

/-! How a graph grows at one of its components. A tree drawn without keys and identifiers tells what
a walk has added: ports behind the old ports of the component, and whole subtrees behind its old
children. What was there before stays as it is, and consecutive growths add up. -/

namespace Schematic

structure Label where
  name : Value
  basename : Value
  typeName : Value

/-- A component with its ports and what is below it, without keys and identifiers. -/
inductive Sketch where
  | unit (label : Label) (ports : List Graph.PortFacts) (below : List Sketch)

namespace Sketch

mutual

/-- The components of a sketch with their ports, each before those below it. -/
def entries : Sketch → List (Label × List Graph.PortFacts)
  | unit label ports below => (label, ports) :: entriesAmong below

def entriesAmong : List Sketch → List (Label × List Graph.PortFacts)
  | [] => []
  | t :: ts => entries t ++ entriesAmong ts

end

theorem entriesAmong_append (ts us : List Sketch) :
    entriesAmong (ts ++ us) = entriesAmong ts ++ entriesAmong us := by
  induction ts with
  | nil => rfl
  | cons t ts ih => rw [List.cons_append, entriesAmong, ih, entriesAmong, List.append_assoc]

end Sketch

namespace Graph

def label (g : Graph) (k : ComponentKey) : Label :=
  ⟨(g.component k).name, (g.component k).basename, (g.component k).typeName⟩

mutual

def sketch (g : Graph) : Outline → Sketch
  | .node k os => .unit (g.label k) (g.factsOf k) (g.sketches os)

def sketches (g : Graph) : List Outline → List Sketch
  | [] => []
  | o :: os => g.sketch o :: g.sketches os

end

def shown (g : Graph) (k : ComponentKey) : Sketch := g.sketch (g.outlineOf k)

/-- Graphs that additions make from the empty one. -/
inductive IsBuilt : Graph → Prop where
  | empty : IsBuilt {}
  | component {g : Graph} {parent : Option ComponentKey} (name basename typeName : Value)
      (before : IsBuilt g) (host : g.CanHost parent) :
      IsBuilt (g.insertComponent name basename typeName parent).2
  | port {g : Graph} {owner : ComponentKey} (facts : PortFacts) (before : IsBuilt g)
      (here : owner ∈ g.roster) : IsBuilt (g.insertPort owner facts).2

variable {g h i : Graph} {k m owner : ComponentKey} {facts : PortFacts}

theorem IsBuilt.coherent (hg : g.IsBuilt) : g.Coherent := by
  induction hg with
  | empty => exact coherent_empty
  | component name basename typeName _ host ih => exact ih.insertComponent host
  | port facts _ here ih => exact ih.insertPort here

theorem sketches_eq (g : Graph) (os : List Outline) : g.sketches os = os.map g.sketch := by
  induction os with
  | nil => rfl
  | cons o os ih => rw [sketches, ih, List.map_cons]

def entry (g : Graph) (k : ComponentKey) : Label × List PortFacts := (g.label k, g.factsOf k)

mutual

theorem entries_sketch (g : Graph) : ∀ o : Outline, (g.sketch o).entries = o.preorder.map g.entry
  | .node k os => by
    rw [sketch, Sketch.entries, entriesAmong_sketches g os, Outline.preorder, List.map_cons, entry]

theorem entriesAmong_sketches (g : Graph) : ∀ os : List Outline,
    Sketch.entriesAmong (g.sketches os) = (Outline.preorderAll os).map g.entry
  | [] => rfl
  | o :: os => by
    rw [sketches, Sketch.entriesAmong, entries_sketch g o, entriesAmong_sketches g os,
      Outline.preorderAll, List.map_append]

end

mutual

theorem sketch_congr : ∀ o : Outline,
    (∀ m ∈ o.preorder, h.label m = g.label m ∧ h.factsOf m = g.factsOf m) →
      h.sketch o = g.sketch o
  | .node k os, same => by
    rw [Outline.preorder, List.forall_mem_cons] at same
    rw [sketch, sketch, same.1.1, same.1.2, sketches_congr os same.2]

theorem sketches_congr : ∀ os : List Outline,
    (∀ m ∈ Outline.preorderAll os, h.label m = g.label m ∧ h.factsOf m = g.factsOf m) →
      h.sketches os = g.sketches os
  | [], _ => rfl
  | o :: os, same => by
    rw [Outline.preorderAll, List.forall_mem_append] at same
    rw [sketches, sketches, sketch_congr o same.1, sketches_congr os same.2]

end

theorem shown_eq (hg : g.Coherent) (hk : k ∈ g.roster) :
    g.shown k = .unit (g.label k) (g.factsOf k) ((g.childrenOf k).map g.shown) := by
  rw [shown, hg.outlineOf_eq hk, sketch, sketches_eq, List.map_map]
  rfl

theorem outlineTo_congr {n : Nat}
    (same : ∀ m ∈ (g.outlineTo n k).preorder, h.childrenOf m = g.childrenOf m) :
    h.outlineTo n k = g.outlineTo n k := by
  induction n generalizing k with
  | zero => rfl
  | succ n ih =>
    rw [preorder_outlineTo, List.forall_mem_cons] at same
    rw [outlineTo, outlineTo, same.1]
    refine congrArg (Outline.node k) (List.map_congr_left fun c hc => ?_)
    exact ih fun m hm => same.2 m (List.mem_flatMap.mpr ⟨c, hc, hm⟩)

/-- A later graph outlines a component alike if the children of all below it are the same. -/
theorem outlineOf_congr (hg : g.Coherent) (hk : k ∈ g.roster)
    (room : g.roster.length ≤ h.arena.components.size)
    (same : ∀ m ∈ g.walkFrom k, h.childrenOf m = g.childrenOf m) :
    h.outlineOf k = g.outlineOf k := by
  have few : (g.younger k).length ≤ g.roster.length := List.length_filter_le ..
  have deep : g.outlineTo h.arena.components.size k = g.outlineOf k :=
    hg.outlineTo_eq hk (few.trans room) (few.trans hg.roster_length_le)
  rw [outlineOf, ← deep]
  apply outlineTo_congr
  rw [deep]
  exact same

/-- What a component has besides its ports and children stays as it is. -/
def LabelsKept (g h : Graph) : Prop := ∀ m ∈ g.roster, h.label m = g.label m

/-- A graph and a later one: at one component ports and subtrees were added, in this order each. The
walk over the new subtrees meets the new components in the order in which they were added. -/
structure Gains (g h : Graph) (k : ComponentKey) (ports : List PortFacts) (below : List Sketch) :
    Prop where
  built : h.IsBuilt
  root : h.register.root = g.register.root
  labels : g.LabelsKept h
  elsewhere : ∀ m ∈ g.roster, m ≠ k →
    h.childrenOf m = g.childrenOf m ∧ h.factsOf m = g.factsOf m
  ports : h.factsOf k = g.factsOf k ++ ports
  below : ∃ cs, h.childrenOf k = g.childrenOf k ++ cs ∧ cs.map h.shown = below ∧
    h.roster = g.roster ++ cs.flatMap h.walkFrom

namespace Gains

variable {ports ports' : List PortFacts} {below below' : List Sketch}

theorem refl (hg : g.IsBuilt) (k : ComponentKey) : g.Gains g k [] [] where
  built := hg
  root := rfl
  labels := fun _ _ => rfl
  elsewhere := fun _ _ _ => ⟨rfl, rfl⟩
  ports := (List.append_nil _).symm
  below := ⟨[], by simp⟩

theorem roster_subset (gain : g.Gains h k ports below) : g.roster ⊆ h.roster := by
  obtain ⟨cs, -, -, roster⟩ := gain.below
  exact roster ▸ List.subset_append_left _ _

/-- What one growth added is not touched by the next one at the same component. -/
theorem shown_new (gain : g.Gains h k ports below) (next : h.Gains i k ports' below')
    (hk : k ∈ g.roster) {cs : List ComponentKey}
    (roster : h.roster = g.roster ++ cs.flatMap h.walkFrom) {c : ComponentKey} (hc : c ∈ cs) :
    i.outlineOf c = h.outlineOf c ∧ i.shown c = h.shown c := by
  have hh := gain.built.coherent
  have inside {m : ComponentKey} (hm : m ∈ h.walkFrom c) : m ∈ cs.flatMap h.walkFrom :=
    List.mem_flatMap.mpr ⟨c, hc, hm⟩
  have known {m : ComponentKey} (hm : m ∈ h.walkFrom c) : m ∈ h.roster :=
    roster ▸ List.mem_append_right _ (inside hm)
  have apart {m : ComponentKey} (hm : m ∈ h.walkFrom c) : m ≠ k := by
    have distinct := hh.roster_nodup
    rw [roster, List.nodup_append] at distinct
    exact fun same => distinct.2.2 k hk m (inside hm) same.symm
  have first : c ∈ h.walkFrom c := by
    rw [walkFrom, outlineOf]
    cases h.arena.components.size <;> exact List.mem_cons_self
  have room : h.roster.length ≤ i.arena.components.size := by
    obtain ⟨ds, -, -, grown⟩ := next.below
    have fits := next.built.coherent.roster_length_le
    rw [grown, List.length_append] at fits
    omega
  have outline : i.outlineOf c = h.outlineOf c :=
    outlineOf_congr hh (known first) room fun m hm => (next.elsewhere m (known hm) (apart hm)).1
  refine ⟨outline, ?_⟩
  rw [shown, outline, shown]
  exact sketch_congr _ fun m hm =>
    ⟨next.labels m (known hm), (next.elsewhere m (known hm) (apart hm)).2⟩

theorem trans (gain : g.Gains h k ports below) (next : h.Gains i k ports' below')
    (hk : k ∈ g.roster) : g.Gains i k (ports ++ ports') (below ++ below') where
  built := next.built
  root := next.root.trans gain.root
  labels := fun m hm => (next.labels m (gain.roster_subset hm)).trans (gain.labels m hm)
  elsewhere := by
    intro m hm other
    have first := gain.elsewhere m hm other
    have second := next.elsewhere m (gain.roster_subset hm) other
    exact ⟨second.1.trans first.1, second.2.trans first.2⟩
  ports := by rw [next.ports, gain.ports, List.append_assoc]
  below := by
    obtain ⟨cs, children, units, roster⟩ := gain.below
    obtain ⟨ds, children', units', roster'⟩ := next.below
    have same {c : ComponentKey} (hc : c ∈ cs) := gain.shown_new next hk roster hc
    refine ⟨cs ++ ds, ?_, ?_, ?_⟩
    · rw [children', children, List.append_assoc]
    · rw [List.map_append, units', ← units]
      exact congrArg (· ++ below') (List.map_congr_left fun c hc => (same hc).2)
    · have walks : cs.flatMap i.walkFrom = cs.flatMap h.walkFrom :=
        List.flatMap_congr fun c hc => congrArg Outline.preorder (same hc).1
      rw [roster', roster, List.flatMap_append, walks, List.append_assoc]

theorem insertPort (hg : g.IsBuilt) (hk : k ∈ g.roster) (facts : PortFacts) :
    g.Gains (g.insertPort k facts).2 k [facts.kept] [] where
  built := .port facts hg hk
  root := root_insertPort g k facts
  labels := by
    intro m _
    simp only [label, component_insertPort]
  elsewhere := by
    intro m hm other
    refine ⟨childrenOf_insertPort m, ?_⟩
    rw [factsOf_insertPort hg.coherent hk hm, if_neg other, List.append_nil]
  ports := by rw [factsOf_insertPort hg.coherent hk hk, if_pos rfl]
  below := ⟨[], by rw [childrenOf_insertPort, List.append_nil], rfl, by simp⟩

section Component

variable {name basename typeName : Value} {parent : Option ComponentKey}

theorem label_new (hg : g.Coherent) (host : g.CanHost parent) :
    (g.insertComponent name basename typeName parent).2.label g.freshComponent =
      ⟨name, basename, typeName⟩ := by
  rw [label, component_new host hg.toNumbered]
  rfl

theorem label_insertComponent (hg : g.Coherent) :
    g.LabelsKept (g.insertComponent name basename typeName parent).2 := by
  intro m hm
  rw [label, component_insertComponent hg.toNumbered hm, label]

theorem fresh_mem (g : Graph) (name basename typeName : Value) (parent : Option ComponentKey) :
    g.freshComponent ∈ (g.insertComponent name basename typeName parent).2.roster :=
  mem_roster_insertComponent.mpr (.inr rfl)

/-- A new component and what is added to it: the whole shows as one subtree, and the walk over it
meets all new components in the order in which they were added. -/
theorem of_new (hg : g.IsBuilt) (host : g.CanHost parent)
    (gain : (g.insertComponent name basename typeName parent).2.Gains h g.freshComponent ports
      below) :
    h.shown g.freshComponent = .unit ⟨name, basename, typeName⟩ ports below ∧
      h.roster = g.roster ++ h.walkFrom g.freshComponent := by
  have hh := gain.built.coherent
  have fresh := fresh_mem g name basename typeName parent
  have here := gain.roster_subset fresh
  have facts : h.factsOf g.freshComponent = ports := by
    rw [gain.ports, factsOf_insertComponent hg.coherent host _ fresh, if_pos rfl, List.nil_append]
  obtain ⟨cs, children, units, roster⟩ := gain.below
  rw [childrenOf_new host hg.coherent.toNumbered, List.nil_append] at children
  constructor
  · rw [shown_eq hh here, gain.labels _ fresh, label_new hg.coherent host, facts, children, units]
  · rw [roster, roster_insertComponent, hh.walkFrom_eq here, children, List.append_assoc]
    rfl

/-- Growth at a new component is growth at the component that it was added to. -/
theorem nest (hg : g.IsBuilt) (hk : k ∈ g.roster)
    (gain : (g.insertComponent name basename typeName (some k)).2.Gains h g.freshComponent ports
      below) :
    g.Gains h k [] [.unit ⟨name, basename, typeName⟩ ports below] := by
  have host : g.CanHost (some k) := hk
  have cohered := hg.coherent
  have kept {m : ComponentKey} (hm : m ∈ g.roster) :
      m ∈ (g.insertComponent name basename typeName (some k)).2.roster :=
    mem_roster_insertComponent.mpr (.inl hm)
  have apart {m : ComponentKey} (hm : m ∈ g.roster) : m ≠ g.freshComponent :=
    cohered.ne_fresh hm
  have facts {m : ComponentKey} (hm : m ∈ g.roster) : h.factsOf m = g.factsOf m := by
    rw [(gain.elsewhere m (kept hm) (apart hm)).2,
      factsOf_insertComponent cohered host m (kept hm), if_neg (apart hm)]
  have children {m : ComponentKey} (hm : m ∈ g.roster) : h.childrenOf m =
      g.childrenOf m ++ if some k = some m then [g.freshComponent] else [] := by
    rw [(gain.elsewhere m (kept hm) (apart hm)).1, childrenOf_insertComponent cohered.toNumbered hm]
  obtain ⟨seen, roster⟩ := gain.of_new hg host
  constructor
  · exact gain.built
  · exact gain.root.trans (root_insertComponent.trans (if_neg (Option.some_ne_none k)))
  · exact fun m hm => (gain.labels m (kept hm)).trans (label_insertComponent cohered m hm)
  · intro m hm other
    refine ⟨?_, facts hm⟩
    rw [children hm, if_neg fun same => other (Option.some.inj same).symm, List.append_nil]
  · rw [facts hk, List.append_nil]
  · refine ⟨[g.freshComponent], ?_, ?_, ?_⟩
    · rw [children hk, if_pos rfl]
    · rw [List.map_singleton, seen]
    · rw [roster, List.flatMap_singleton]

end Component

/-- Growth at the first component gives the whole graph, and the walk over it is the order in which
the components were added. -/
theorem whole {name basename typeName : Value}
    (gain : (insertComponent {} name basename typeName none).2.Gains h (freshComponent {}) ports
      below) :
    h.outline.map h.sketch = some (.unit ⟨name, basename, typeName⟩ ports below) ∧
      h.components = h.roster := by
  have host : CanHost {} none := rfl
  obtain ⟨seen, roster⟩ := gain.of_new .empty host
  have root : h.register.root = some (freshComponent {}) := gain.root
  constructor
  · rw [outline, root, Option.map_some, Option.map_some]
    exact congrArg some seen
  · rw [components_of_root root, roster]
    rfl

end Gains

end Graph

end Schematic
