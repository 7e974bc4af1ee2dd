import Schematic.Graph.Outline
import Schematic.Proofs.Graph.Enclosure
import Schematic.Proofs.Value.Meaning

/-! The walk over a coherent graph meets each of its components and each of its ports once. -/

namespace Schematic

theorem Outline.preorderAll_eq (os : List Outline) :
    Outline.preorderAll os = os.flatMap Outline.preorder := by
  induction os with
  | nil => rfl
  | cons o os ih => rw [Outline.preorderAll, ih, List.flatMap_cons]

namespace Graph

def younger (g : Graph) (k : ComponentKey) : List ComponentKey :=
  g.roster.filter fun m => decide ((g.component k).id < (g.component m).id)

def walkFrom (g : Graph) (k : ComponentKey) : List ComponentKey := (g.outlineOf k).preorder

variable {g : Graph} {k m : ComponentKey} {q : PortKey}

theorem components_of_root (root : g.register.root = some k) : g.components = g.walkFrom k := by
  rw [components, outline, root]
  rfl

theorem preorder_outlineTo (g : Graph) (n : Nat) (k : ComponentKey) :
    (g.outlineTo (n + 1) k).preorder =
      k :: (g.childrenOf k).flatMap fun c => (g.outlineTo n c).preorder := by
  rw [outlineTo, Outline.preorder, Outline.preorderAll_eq, List.flatMap_map]

namespace Coherent

theorem younger_lt (hg : g.Coherent) (h : g.IsParent k m) :
    (g.younger m).length < (g.younger k).length := by
  have order := hg.id_lt h
  have shrink : g.younger m =
      (g.younger k).filter fun l => decide ((g.component m).id < (g.component l).id) := by
    rw [younger, younger, List.filter_filter]
    apply List.filter_congr
    intro l _
    simp only [← Bool.decide_and, decide_eq_decide]
    omega
  rw [shrink]
  refine List.length_filter_lt_length_iff_exists.mpr ⟨m, ?_, by simp⟩
  exact List.mem_filter.mpr ⟨hg.child_mem h, by simpa using order⟩

theorem encloses_of_mem_preorder (hk : k ∈ g.roster) (hg : g.Coherent) {n : Nat}
    (h : m ∈ (g.outlineTo n k).preorder) : g.Encloses k m := by
  induction n generalizing k with
  | zero =>
    simp only [outlineTo, Outline.preorder, Outline.preorderAll, List.mem_singleton] at h
    exact h ▸ .refl m
  | succ n ih =>
    rw [preorder_outlineTo, List.mem_cons] at h
    rcases h with rfl | h
    · exact .refl m
    · obtain ⟨c, hc, below⟩ := List.mem_flatMap.mp h
      have step : g.IsParent k c := ⟨hk, hc⟩
      exact step.encloses.trans (ih (hg.child_mem step) below)

theorem mem_preorder_of_encloses (hg : g.Coherent) {n : Nat} (deep : (g.younger k).length ≤ n)
    (h : g.Encloses k m) : m ∈ (g.outlineTo n k).preorder := by
  induction n generalizing k with
  | zero =>
    by_cases same : k = m
    · subst same
      exact List.mem_cons_self
    · obtain ⟨c, step, _⟩ := h.by_child same
      have fewer := hg.younger_lt step
      omega
  | succ n ih =>
    rw [preorder_outlineTo]
    by_cases same : k = m
    · exact same ▸ List.mem_cons_self
    · obtain ⟨c, step, rest⟩ := h.by_child same
      have fewer := hg.younger_lt step
      refine List.mem_cons_of_mem _ (List.mem_flatMap.mpr ⟨c, step.2, ih ?_ rest⟩)
      omega

theorem preorder_nodup (hg : g.Coherent) (hk : k ∈ g.roster) (n : Nat) :
    (g.outlineTo n k).preorder.Nodup := by
  induction n generalizing k with
  | zero => exact List.nodup_singleton k
  | succ n ih =>
    rw [preorder_outlineTo, List.nodup_cons, List.nodup_flatMap]
    refine ⟨?_, fun c hc => ih (hg.child_mem ⟨hk, hc⟩), ?_⟩
    · intro again
      obtain ⟨c, hc, below⟩ := List.mem_flatMap.mp again
      have step : g.IsParent k c := ⟨hk, hc⟩
      have back := encloses_of_mem_preorder (hg.child_mem step) hg below
      exact hg.not_encloses_parent step back
    · refine (hg.children_nodup hk).imp_of_mem ?_
      intro c d hc hd other l left right
      have leftStep : g.IsParent k c := ⟨hk, hc⟩
      have rightStep : g.IsParent k d := ⟨hk, hd⟩
      exact other (hg.child_unique leftStep rightStep
        (encloses_of_mem_preorder (hg.child_mem leftStep) hg left)
        (encloses_of_mem_preorder (hg.child_mem rightStep) hg right))

theorem childrenOf_eq_nil (hg : g.Coherent) (hk : k ∈ g.roster)
    (youngest : (g.younger k).length = 0) : g.childrenOf k = [] := by
  refine List.eq_nil_iff_forall_not_mem.mpr fun c hc => ?_
  have fewer := hg.younger_lt ⟨hk, hc⟩
  omega

theorem outlineTo_eq (hg : g.Coherent) (hk : k ∈ g.roster) {n n' : Nat}
    (deep : (g.younger k).length ≤ n) (deep' : (g.younger k).length ≤ n') :
    g.outlineTo n k = g.outlineTo n' k := by
  induction n generalizing k n' with
  | zero =>
    have none := hg.childrenOf_eq_nil hk (Nat.le_zero.mp deep)
    cases n' <;> simp [outlineTo, none]
  | succ n ih =>
    cases n' with
    | zero =>
      have none := hg.childrenOf_eq_nil hk (Nat.le_zero.mp deep')
      simp [outlineTo, none]
    | succ n' =>
      rw [outlineTo, outlineTo]
      refine congrArg (Outline.node k) (List.map_congr_left fun c hc => ?_)
      have fewer := hg.younger_lt ⟨hk, hc⟩
      exact ih (hg.child_mem ⟨hk, hc⟩) (by omega) (by omega)

/-- The arena is deep enough for the outline of a component to show all that is below it. -/
theorem outlineOf_eq (hg : g.Coherent) (hk : k ∈ g.roster) :
    g.outlineOf k = .node k ((g.childrenOf k).map g.outlineOf) := by
  have room := hg.roster_length_le
  obtain ⟨n, size⟩ := Nat.exists_eq_succ_of_ne_zero
    (Nat.ne_of_gt ((List.length_pos_of_mem hk).trans_le room))
  have deep : (g.younger k).length ≤ g.arena.components.size :=
    (List.length_filter_le _ _).trans room
  have same : g.outlineOf k = g.outlineTo (n + 1) k := by rw [outlineOf, size]
  rw [same, outlineTo]
  refine congrArg (Outline.node k) (List.map_congr_left fun c hc => ?_)
  have fewer := hg.younger_lt ⟨hk, hc⟩
  exact hg.outlineTo_eq (hg.child_mem ⟨hk, hc⟩) (by omega) (by omega)

theorem mem_components (hg : g.Coherent) : k ∈ g.components ↔ k ∈ g.roster := by
  rw [components, outline]
  cases hr : g.register.root with
  | none => simp [hg.roster_eq_nil hr]
  | some r =>
    have top := hg.root_mem hr
    have deep : (g.younger r).length ≤ g.arena.components.size :=
      (List.length_filter_le _ _).trans hg.roster_length_le
    constructor
    · exact fun h => hg.encloses_mem (encloses_of_mem_preorder top hg h) top
    · exact fun h => hg.mem_preorder_of_encloses deep (hg.root_encloses hr h)

theorem components_nodup (hg : g.Coherent) : g.components.Nodup := by
  rw [components, outline]
  cases hr : g.register.root with
  | none => exact .nil
  | some r => exact hg.preorder_nodup (hg.root_mem hr) _

theorem components_perm (hg : g.Coherent) : g.components.Perm g.roster :=
  (List.perm_ext_iff_of_nodup hg.components_nodup hg.roster_nodup).mpr fun _ => hg.mem_components

theorem walkFrom_eq (hg : g.Coherent) (hk : k ∈ g.roster) :
    g.walkFrom k = k :: (g.childrenOf k).flatMap g.walkFrom := by
  rw [walkFrom, hg.outlineOf_eq hk, Outline.preorder, Outline.preorderAll_eq, List.flatMap_map]
  rfl

theorem walkFrom_sublist (hg : g.Coherent) (above : g.Encloses k m) :
    (g.walkFrom m).Sublist (g.walkFrom k) := by
  induction above using Relation.ReflTransGen.head_induction_on with
  | refl => exact List.Sublist.refl _
  | head step _ ih =>
    rw [hg.walkFrom_eq step.1]
    refine List.Sublist.cons _ (ih.trans ?_)
    rw [List.flatMap_def]
    exact List.sublist_flatten_of_mem (List.mem_map_of_mem step.2)

theorem sublist_flatMap_walkFrom (hg : g.Coherent) {ks : List ComponentKey}
    (known : ∀ k ∈ ks, k ∈ g.roster) : ks.Sublist (ks.flatMap g.walkFrom) := by
  induction ks with
  | nil => exact List.Sublist.refl _
  | cons k ks ih =>
    rw [List.forall_mem_cons] at known
    rw [List.flatMap_cons, hg.walkFrom_eq known.1]
    exact ((ih known.2).trans (List.sublist_append_right _ _)).cons_cons k

/-- The walk meets a component before its children, and these in their order. -/
theorem family_sublist (hg : g.Coherent) (hk : k ∈ g.roster) :
    (k :: g.childrenOf k).Sublist g.components := by
  obtain ⟨r, root⟩ := hg.exists_root hk
  have below : (k :: g.childrenOf k).Sublist (g.walkFrom k) := by
    rw [hg.walkFrom_eq hk]
    exact (hg.sublist_flatMap_walkFrom fun c hc => hg.child_mem ⟨hk, hc⟩).cons_cons k
  rw [components_of_root root]
  exact below.trans (hg.walkFrom_sublist (hg.root_encloses root hk))

theorem mem_ports (hg : g.Coherent) : q ∈ g.ports ↔ ∃ k ∈ g.roster, q ∈ g.portsOf k := by
  simp only [ports, List.mem_flatMap, hg.mem_components]

theorem mem_portRoster_iff (hg : g.Coherent) :
    q ∈ g.portRoster ↔ ∃ k ∈ g.roster, q ∈ g.portsOf k :=
  ⟨hg.port_listed, fun ⟨_, hk, hq⟩ => (hg.owned hk hq).1⟩

theorem owner_unique (hg : g.Coherent) (hk : k ∈ g.roster) (hm : m ∈ g.roster)
    (h : q ∈ g.portsOf k) (h' : q ∈ g.portsOf m) : k = m := by
  have left := (hg.owned hk h).2
  have right := (hg.owned hm h').2
  exact hg.id_inj hk hm (Int.ofNat_inj.mp (Value.int.inj (left.symm.trans right)))

theorem walk_nodup (hg : g.Coherent) : g.ports.Nodup := by
  rw [ports, List.nodup_flatMap]
  refine ⟨fun k hk => hg.ports_nodup (hg.mem_components.mp hk), ?_⟩
  refine hg.components_nodup.imp_of_mem ?_
  intro k m hk hm other q left right
  exact other (hg.owner_unique (hg.mem_components.mp hk) (hg.mem_components.mp hm) left right)

theorem ports_perm (hg : g.Coherent) : g.ports.Perm g.portRoster := by
  refine (List.perm_ext_iff_of_nodup hg.walk_nodup hg.portRoster_nodup).mpr fun q => ?_
  rw [hg.mem_ports, hg.mem_portRoster_iff]

end Coherent

def Owns (g : Graph) (k : ComponentKey) (μ : Meaning) : Prop :=
  ∃ q ∈ g.portsOf k, (g.port q).identity.meaning = μ

def Identified (g : Graph) : Prop :=
  ∀ k ∈ g.roster, ∀ q ∈ g.portsOf k, (g.port q).identity.IsIdentity

theorem portFor_isSome (hg : g.Identified) (hk : k ∈ g.roster) {identity : Value}
    (proper : identity.IsIdentity) :
    (g.portFor k identity).isSome = true ↔
      identity.isNull = false ∧ g.Owns k identity.meaning := by
  rw [portFor]
  split
  · next null => simp [null]
  · next bound =>
    rw [Bool.not_eq_true] at bound
    simp only [List.find?_isSome, bound, Owns, true_and]
    constructor
    · rintro ⟨q, hq, same⟩
      exact ⟨q, hq, (Value.equal_iff (hg k hk q hq) proper).mp same⟩
    · rintro ⟨q, hq, same⟩
      exact ⟨q, hq, (Value.equal_iff (hg k hk q hq) proper).mpr same⟩

theorem portFor_eq_none_iff_forall {identity : Value} (bound : identity.isNull = false) :
    g.portFor k identity = none ↔
      ∀ q ∈ g.portsOf k, (g.port q).identity.equal identity = false := by
  rw [portFor, if_neg (Bool.not_eq_true _ ▸ bound), List.find?_eq_none]
  simp only [Bool.not_eq_true]

theorem portFor_eq_none_iff (hg : g.Identified) (hk : k ∈ g.roster) {identity : Value}
    (proper : identity.IsIdentity) (bound : identity.isNull = false) :
    g.portFor k identity = none ↔ ¬ g.Owns k identity.meaning := by
  rw [← Option.not_isSome_iff_eq_none, portFor_isSome hg hk proper]
  simp [bound]

end Graph

end Schematic
