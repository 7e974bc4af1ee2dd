import Mathlib.Data.List.Flatten
import Schematic.Proofs.Drawing.Sheet
import Schematic.Proofs.Drawing.Writing

/-! The sheets of a graph: its components, some of them left out, each with its ports and the wires
inside it. If only components are left out that have nothing inside, the sheets are local. -/

namespace Schematic

open Sheet

variable {g : Graph} {keep : ComponentKey → Bool} {k : ComponentKey} {o : Outline} {w : Wire}

/-- What a wire refers to: its ports, and the components that own them. -/
def Wire.joint (w : Wire) : Joint ComponentKey PortKey :=
  ⟨w.sourcePort, w.targetPort, some (w.source, w.target)⟩

namespace Outline

def allWires (g : Graph) (o : Outline) : List Wire := o.postorder.flatMap g.wires

def allWiresOf (g : Graph) (os : List Outline) : List Wire := (postorderAll os).flatMap g.wires

theorem allWires_node (g : Graph) (k : ComponentKey) (os : List Outline) :
    (node k os).allWires g = allWiresOf g os ++ g.wires k := by
  rw [allWires, postorder, List.flatMap_append, List.flatMap_singleton, allWiresOf]

theorem allWiresOf_cons (g : Graph) (o : Outline) (os : List Outline) :
    allWiresOf g (o :: os) = o.allWires g ++ allWiresOf g os := by
  rw [allWiresOf, postorderAll, List.flatMap_append, allWires, allWiresOf]

mutual

/-- The blocks of a tree that are kept, each with its ports and the wires inside it. -/
def sheets (g : Graph) (keep : ComponentKey → Bool) :
    Outline → List (Sheet ComponentKey PortKey Wire)
  | node k os =>
    if keep k then [.block k (g.portsOf k) (g.wires k) (sheetsAll g keep os)] else []

def sheetsAll (g : Graph) (keep : ComponentKey → Bool) :
    List Outline → List (Sheet ComponentKey PortKey Wire)
  | [] => []
  | o :: os => sheets g keep o ++ sheetsAll g keep os

end

end Outline

namespace Graph

/-- The blocks of a graph that are kept: all of them inside one, or none. -/
def sheets (g : Graph) (keep : ComponentKey → Bool) : List (Sheet ComponentKey PortKey Wire) :=
  g.outline.toList.flatMap (Outline.sheets g keep)

/-- Whether only components are left out that have nothing inside. -/
def Spares (g : Graph) (keep : ComponentKey → Bool) : Prop :=
  ∀ k, keep k = false → g.portsOf k = [] ∧ g.childrenOf k = []

theorem spares_all (g : Graph) : g.Spares fun _ => true := nofun

/-- What has nothing inside has no wires either. -/
theorem Spares.wires (spares : g.Spares keep) (left : keep k = false) : g.wires k = [] := by
  obtain ⟨ports, children⟩ := spares k left
  rw [Graph.wires, boundaryWires, innerWires, ports, children]
  rfl

theorem sheets_of_outline (outlined : g.outline = some o) : g.sheets keep = o.sheets g keep := by
  simp [sheets, outlined]

end Graph

structure Sheet.Depicts (g : Graph) (keep : ComponentKey → Bool)
    (b : Sheet ComponentKey PortKey Wire) : Prop where
  known : b.name ∈ g.roster
  ports : b.ports = g.portsOf b.name
  edges : b.edges = g.wires b.name
  inner : b.inner.map name = (g.childrenOf b.name).filter keep

namespace Outline

theorem names_sheetsAll (os : List Outline) :
    (sheetsAll g keep os).map name = (os.map key).filter keep := by
  induction os with
  | nil => rfl
  | cons o os ih =>
    obtain ⟨k, below⟩ := o
    rw [sheetsAll, List.map_append, ih, List.map_cons, key]
    cases kept : keep k <;> simp [sheets, kept, name]

mutual

theorem depicts_sheets : ∀ o : Outline, o.Unfolds g →
    ∀ b ∈ blocksAll (o.sheets g keep), b.Depicts g keep
  | node k os, ⟨known, children, unfold⟩, b, hb => by
    cases kept : keep k with
    | false => simp [sheets, kept, blocksAll] at hb
    | true =>
      simp only [sheets, kept, if_true, blocksAll, blocks, List.append_nil, List.mem_cons] at hb
      rcases hb with rfl | hb
      · exact ⟨known, rfl, rfl, by rw [name, ← children]; exact names_sheetsAll os⟩
      · exact depicts_sheetsAll os unfold b hb

theorem depicts_sheetsAll : ∀ os : List Outline, UnfoldAll g os →
    ∀ b ∈ blocksAll (sheetsAll g keep os), b.Depicts g keep
  | [], _, b, hb => by simp [sheetsAll, blocksAll] at hb
  | o :: os, ⟨first, rest⟩, b, hb => by
    rw [sheetsAll, blocksAll_append, List.mem_append] at hb
    rcases hb with hb | hb
    · exact depicts_sheets o first b hb
    · exact depicts_sheetsAll os rest b hb

end

mutual

theorem names_blocks (spares : g.Spares keep) : ∀ o : Outline, o.Unfolds g →
    (blocksAll (o.sheets g keep)).map name = o.preorder.filter keep
  | node k os, ⟨_, children, unfold⟩ => by
    cases kept : keep k with
    | false =>
      have leaf : os = [] := by simpa [(spares k kept).2] using children
      simp [sheets, kept, leaf, blocksAll, preorder, preorderAll]
    | true =>
      simp [sheets, kept, blocksAll, blocks, preorder, name, names_blocksAll spares os unfold]

theorem names_blocksAll (spares : g.Spares keep) : ∀ os : List Outline, UnfoldAll g os →
    (blocksAll (sheetsAll g keep os)).map name = (preorderAll os).filter keep
  | [], _ => rfl
  | o :: os, ⟨first, rest⟩ => by
    rw [sheetsAll, blocksAll_append, List.map_append, names_blocks spares o first,
      names_blocksAll spares os rest, preorderAll, List.filter_append]

end

mutual

theorem stated_sheets (spares : g.Spares keep) : ∀ o : Outline, o.Unfolds g →
    stated (o.sheets g keep) = o.allWires g
  | node k os, ⟨_, children, unfold⟩ => by
    rw [allWires_node]
    cases kept : keep k with
    | false =>
      have leaf : os = [] := by simpa [(spares k kept).2] using children
      simp [sheets, kept, leaf, spares.wires kept, stated, marksAll, allWiresOf, postorderAll]
    | true => rw [sheets, if_pos kept, stated_block, stated_sheetsAll spares os unfold]

theorem stated_sheetsAll (spares : g.Spares keep) : ∀ os : List Outline, UnfoldAll g os →
    stated (sheetsAll g keep os) = allWiresOf g os
  | [], _ => rfl
  | o :: os, ⟨first, rest⟩ => by
    rw [sheetsAll, stated_append, stated_sheets spares o first, stated_sheetsAll spares os rest,
      allWiresOf_cons]

end

end Outline

namespace Graph.Coherent

theorem owners_apart (hg : g.Coherent) (hk : k ∈ g.roster) (hw : w ∈ g.wires k) :
    w.source ≠ w.target := by
  rcases List.mem_append.mp hw with outer | inner
  · obtain ⟨p, -, c, hc, q, -, -, rfl⟩ := mem_boundaryWires.mp outer
    rintro (rfl : k = c)
    exact hg.not_encloses_parent ⟨hk, hc⟩ (.refl k)
  · obtain ⟨a, -, p, -, b, -, q, -, other, -, -, -, -, rfl⟩ := mem_innerWires.mp inner
    exact other.symm

theorem names_sheets (hg : g.Coherent) (spares : g.Spares keep) :
    (blocksAll (g.sheets keep)).map name = g.components.filter keep := by
  cases outlined : g.outline with
  | none => simp [sheets, components, outlined, blocksAll]
  | some o =>
    rw [sheets_of_outline outlined, Outline.names_blocks spares o (hg.unfolds outlined), components,
      outlined]

theorem depicts_sheets (hg : g.Coherent) : ∀ b ∈ blocksAll (g.sheets keep), b.Depicts g keep := by
  cases outlined : g.outline with
  | none => simp [sheets, outlined, blocksAll]
  | some o =>
    rw [sheets_of_outline outlined]
    exact Outline.depicts_sheets o (hg.unfolds outlined)

/-- What is gathered from the blocks that are kept is gathered from their components. -/
theorem flatMap_blocks {α : Type} (hg : g.Coherent) (spares : g.Spares keep)
    (gather : ComponentKey → List PortKey → List α) :
    (blocksAll (g.sheets keep)).flatMap (fun b => gather b.name b.ports) =
      (g.components.filter keep).flatMap fun k => gather k (g.portsOf k) := by
  rw [← hg.names_sheets spares, List.flatMap_map]
  apply List.flatMap_congr
  intro b hb
  rw [(hg.depicts_sheets b hb).ports]

theorem declarations_sheets (hg : g.Coherent) (spares : g.Spares keep) :
    declarations (g.sheets keep) =
      (g.components.filter keep).flatMap fun k => (g.portsOf k).map fun q => (k, q) :=
  hg.flatMap_blocks spares fun k qs => qs.map fun q => (k, q)

theorem stated_sheets (hg : g.Coherent) (spares : g.Spares keep) :
    stated (g.sheets keep) = g.allWires := by
  cases outlined : g.outline with
  | none => simp [sheets, allWires, outlined, stated, marksAll]
  | some o =>
    rw [sheets_of_outline outlined, Outline.stated_sheets spares o (hg.unfolds outlined), allWires,
      outlined, Outline.allWires]

theorem mem_declarations (hg : g.Coherent) (spares : g.Spares keep) (hk : k ∈ g.roster)
    {q : PortKey} (hq : q ∈ g.portsOf k) : (k, q) ∈ declarations (g.sheets keep) := by
  have kept : keep k = true := by
    by_contra left
    have none := (spares k (Bool.eq_false_iff.mpr left)).1
    simp [none] at hq
  rw [hg.declarations_sheets spares]
  simp [kept, hk, hq, hg.mem_components]

theorem declared_sublist (hg : g.Coherent) (spares : g.Spares keep) :
    ((declarations (g.sheets keep)).map Prod.snd).Sublist g.ports := by
  rw [hg.declarations_sheets spares, List.map_flatMap, ports]
  simp only [List.map_map, Function.comp_def, List.map_id']
  exact List.filter_sublist.flatMap _

/-- The wires of a graph join neighbours on its sheets. -/
theorem sheets_local (hg : g.Coherent) (spares : g.Spares keep) :
    AreLocal Wire.joint (g.sheets keep) where
  shownOnce := by
    rw [hg.names_sheets spares]
    exact hg.components_nodup.filter _
  declaredOnce := hg.walk_nodup.sublist (hg.declared_sublist spares)
  joins := by
    intro b hb w hw
    obtain ⟨hk, -, edges, inner⟩ := hg.depicts_sheets b hb
    rw [edges] at hw
    have lies := hg.lies hk hw
    have inside {c : ComponentKey} {q : PortKey} (step : g.IsParent b.name c)
        (hq : q ∈ g.portsOf c) : c ∈ b.inner.map name := by
      have kept : keep c = true := by
        by_contra left
        have none := (spares c (Bool.eq_false_iff.mpr left)).1
        simp [none] at hq
      rw [inner]
      exact List.mem_filter.mpr ⟨step.2, kept⟩
    refine ⟨w.source, w.target, lies.apart, hg.mem_declarations spares lies.source lies.leaves,
      hg.mem_declarations spares (hg.child_mem lies.target) lies.enters,
      inside lies.target lies.enters, ?_, ?_⟩
    · rcases lies.side with ⟨same, -⟩ | ⟨step, -⟩
      · exact .inl same
      · exact .inr ⟨inside step lies.leaves, hg.owners_apart hk hw⟩
    · rintro named ⟨⟩
      rfl

end Graph.Coherent

end Schematic
