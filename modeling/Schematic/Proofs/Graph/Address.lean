import Schematic.Proofs.Graph.Growth

/-! Qualified names as addresses. Where the components at one place have distinct basenames without
dots, the name of each tells the way to it, and so does that of each port. -/

namespace Schematic

namespace Text

structure IsSegment (t : Text) : Prop where
  nonempty : t.isEmpty = false
  undotted : t.holds '.' = false

instance (t : Text) : Decidable t.IsSegment :=
  decidable_of_iff (t.isEmpty = false ∧ t.holds '.' = false)
    ⟨fun h => ⟨h.1, h.2⟩, fun h => ⟨h.nonempty, h.undotted⟩⟩

/-- The qualified name of what is called `t` at an address. The address of the top is empty. -/
def dot (address t : Text) : Text := if address.isEmpty then t else address ++ "." ++ t

variable {a b s t : Text}

theorem dot_empty (t : Text) : empty.dot t = t := rfl

theorem dot_of_nonempty (h : a.isEmpty = false) (t : Text) : a.dot t = a ++ "." ++ t := by
  rw [dot, h]
  rfl

theorem holds_dot (h : a.isEmpty = false) (t : Text) : (a.dot t).holds '.' = true := by
  simp [dot_of_nonempty h, holds]

theorem IsSegment.dot_nonempty (h : t.IsSegment) (a : Text) : (a.dot t).isEmpty = false := by
  cases top : a.isEmpty with
  | true =>
    rw [dot, if_pos top]
    exact h.nonempty
  | false => simp [dot_of_nonempty top, isEmpty]

theorem eq_of_first_mark {α : Type} {mark : α} {xs ys zs ws : List α} (hx : mark ∉ xs)
    (hy : mark ∉ ys) (same : xs ++ mark :: zs = ys ++ mark :: ws) : xs = ys ∧ zs = ws := by
  rcases List.append_eq_append_iff.mp same with ⟨between, rfl, rest⟩ | ⟨between, rfl, rest⟩
  · cases between with
    | nil => exact ⟨(List.append_nil xs).symm, (List.cons.inj rest).2⟩
    | cons x between =>
      cases (List.cons.inj rest).1
      exact absurd (List.mem_append_right _ List.mem_cons_self) hy
  · cases between with
    | nil => exact ⟨List.append_nil ys, (List.cons.inj rest).2.symm⟩
    | cons x between =>
      cases (List.cons.inj rest).1
      exact absurd (List.mem_append_right _ List.mem_cons_self) hx

/-- An address falls apart at its last dot. -/
theorem dot_inj (hs : s.IsSegment) (ht : t.IsSegment) (same : a.dot s = b.dot t) :
    a = b ∧ s = t := by
  have emptied {u : Text} (h : u.isEmpty = true) : u = empty :=
    ext (List.isEmpty_iff.mp h)
  cases left : a.isEmpty with
  | true =>
    cases emptied left
    cases right : b.isEmpty with
    | true =>
      cases emptied right
      exact ⟨rfl, same⟩
    | false =>
      have dotted := holds_dot right t
      rw [← same, dot_empty, hs.undotted] at dotted
      cases dotted
  | false =>
    cases right : b.isEmpty with
    | true =>
      cases emptied right
      have dotted := holds_dot left s
      rw [same, dot_empty, ht.undotted] at dotted
      cases dotted
    | false =>
      -- read backwards, the last dot is the first one, and there is none in a segment
      rw [dot_of_nonempty left, dot_of_nonempty right] at same
      have backwards := congrArg (fun u : Text => u.points.reverse) same
      have mark : (ofString ".").points.reverse = [CodePoint.ofChar '.'] := rfl
      simp only [points_append, List.reverse_append, mark, List.singleton_append] at backwards
      have clear {u : Text} (h : u.holds '.' = false) :
          CodePoint.ofChar '.' ∉ u.points.reverse := by
        simpa [holds] using h
      obtain ⟨segment, rest⟩ :=
        eq_of_first_mark (clear hs.undotted) (clear ht.undotted) backwards
      exact ⟨ext (List.reverse_inj.mp rest), ext (List.reverse_inj.mp segment)⟩

end Text

def Label.IsAt (label : Label) (address : Text) : Prop :=
  ∃ b : Text, b.IsSegment ∧ label.basename = .text b ∧ label.name = .text (address.dot b)

def Graph.PortFacts.IsAt (port : Graph.PortFacts) (address : Text) : Prop :=
  ∃ b : Text, b.IsSegment ∧ port.basename = .text b ∧ port.name = .text (address.dot b)

namespace Sketch

def label : Sketch → Label
  | unit label _ _ => label

/-- A sketch at an address: all that it shows has its own address as its name, and can be told apart
by its basename from what is beside it. -/
inductive IsAt : Text → Sketch → Prop where
  | unit {address b : Text} {label : Label} {ports : List Graph.PortFacts} {below : List Sketch}
      (segment : b.IsSegment) (basename : label.basename = .text b)
      (name : label.name = .text (address.dot b)) (owned : ∀ p ∈ ports, p.IsAt (address.dot b))
      (owns : (ports.map Graph.PortFacts.basename).Nodup)
      (inner : ∀ t ∈ below, IsAt (address.dot b) t)
      (beside : (below.map fun t => t.label.basename).Nodup) :
      IsAt address (.unit label ports below)

end Sketch

namespace Graph

/-- The address of a component: its name, but for the root, whose ports and children may be named as
those at the top. -/
def address (g : Graph) (top : Text) (k : ComponentKey) : Text :=
  if g.register.root = some k then top else (g.component k).name.text?.getD .empty

structure IsAddressed (g : Graph) (top : Text) : Prop where
  undotted : top.holds '.' = false
  child : ∀ {p c}, g.IsParent p c → (g.label c).IsAt (g.address top p)
  siblings : ∀ {p c d}, g.IsParent p c → g.IsParent p d →
    (g.component c).basename = (g.component d).basename → c = d
  port : ∀ k ∈ g.roster, ∀ f ∈ g.factsOf k, f.IsAt (g.address top k)

variable {g : Graph} {top : Text} {c k m p : ComponentKey} {x y : PortKey}

namespace IsAddressed

theorem address_child (spelled : g.IsAddressed top) (hg : g.Coherent) (step : g.IsParent p c) :
    ∃ b : Text, b.IsSegment ∧ (g.component c).basename = .text b ∧
      g.address top c = (g.address top p).dot b ∧
      (g.component c).name = .text (g.address top c) := by
  obtain ⟨b, segment, basename, name⟩ := spelled.child step
  have below : g.address top c = (g.address top p).dot b := by
    have inner : g.register.root ≠ some c := fun root => hg.not_parent_of_root root step
    rw [address, if_neg inner, show (g.component c).name = _ from name, Value.text?,
      Option.getD_some]
  exact ⟨b, segment, basename, below, below ▸ name⟩

/-- No component below the root has the address of the root. -/
theorem address_ne_top (spelled : g.IsAddressed top) (hg : g.Coherent) (step : g.IsParent p c) :
    g.address top c ≠ top := by
  obtain ⟨b, segment, -, below, -⟩ := spelled.address_child hg step
  intro same
  cases empty : (g.address top p).isEmpty with
  | false =>
    have dotted := Text.holds_dot empty b
    rw [← below, same, spelled.undotted] at dotted
    cases dotted
  | true =>
    by_cases root : g.register.root = some p
    · have above : g.address top p = top := if_pos root
      have nonempty := segment.dot_nonempty (g.address top p)
      rw [← below, same, ← above, empty] at nonempty
      cases nonempty
    · obtain ⟨q, above⟩ := hg.exists_parent step.1 root
      obtain ⟨d, segment', -, below', -⟩ := spelled.address_child hg above
      rw [below', segment'.dot_nonempty] at empty
      cases empty

theorem address_inj (spelled : g.IsAddressed top) (hg : g.Coherent) (hk : k ∈ g.roster)
    (hm : m ∈ g.roster) (same : g.address top k = g.address top m) : k = m := by
  have outermost {r : ComponentKey} (root : g.register.root = some r) :
      g.address top r = top := if_pos root
  -- by the identifier, since a parent has a smaller one than its children
  induction h : (g.component k).id using Nat.strongRecOn generalizing k m with
  | ind n ih =>
    by_cases left : g.register.root = some k
    · by_cases right : g.register.root = some m
      · exact Option.some.inj (left.symm.trans right)
      · obtain ⟨q, step⟩ := hg.exists_parent hm right
        exact absurd (same.symm.trans (outermost left)) (spelled.address_ne_top hg step)
    · obtain ⟨p, step⟩ := hg.exists_parent hk left
      by_cases right : g.register.root = some m
      · exact absurd (same.trans (outermost right)) (spelled.address_ne_top hg step)
      · obtain ⟨q, step'⟩ := hg.exists_parent hm right
        obtain ⟨b, segment, basename, below, -⟩ := spelled.address_child hg step
        obtain ⟨b', segment', basename', below', -⟩ := spelled.address_child hg step'
        obtain ⟨above, rfl⟩ := Text.dot_inj segment segment' (below ▸ below' ▸ same)
        cases ih _ (h ▸ hg.id_lt step) step.1 step'.1 above rfl
        exact spelled.siblings step step' (basename.trans basename'.symm)

theorem portAt (spelled : g.IsAddressed top) (hk : k ∈ g.roster) (hx : x ∈ g.portsOf k) :
    ∃ b : Text, b.IsSegment ∧ (g.port x).basename = .text b ∧
      (g.port x).name = .text ((g.address top k).dot b) :=
  spelled.port k hk (g.port x).facts (List.mem_map_of_mem hx)

/-- Two ports have one name if one component has both under one basename. -/
theorem name_eq_iff (spelled : g.IsAddressed top) (hg : g.Coherent) (hk : k ∈ g.roster)
    (hm : m ∈ g.roster) (hx : x ∈ g.portsOf k) (hy : y ∈ g.portsOf m) :
    (g.port x).name = (g.port y).name ↔ k = m ∧ (g.port x).basename = (g.port y).basename := by
  obtain ⟨b, segment, basename, name⟩ := spelled.portAt hk hx
  obtain ⟨b', segment', basename', name'⟩ := spelled.portAt hm hy
  rw [name, name', basename, basename', Value.text.injEq, Value.text.injEq]
  constructor
  · intro same
    obtain ⟨above, rfl⟩ := Text.dot_inj segment segment' same
    exact ⟨spelled.address_inj hg hk hm above, rfl⟩
  · rintro ⟨rfl, rfl⟩
    rfl

end IsAddressed

/-- A component at an address with what it shows of its ports and children. -/
structure Spells (g : Graph) (address : Text) (k : ComponentKey) : Prop where
  owned : ∀ f ∈ g.factsOf k, f.IsAt address
  owns : ((g.factsOf k).map PortFacts.basename).Nodup
  inner : ∀ c ∈ g.childrenOf k, (g.shown c).IsAt address
  beside : ((g.childrenOf k).map fun c => (g.component c).basename).Nodup

variable {a : Text}

theorem spells_of_unit {label : Label} {made : List PortFacts} {below : List Sketch}
    (hg : g.Coherent) (hk : k ∈ g.roster) (shown : g.shown k = .unit label made below)
    (owned : ∀ f ∈ made, f.IsAt a) (owns : (made.map PortFacts.basename).Nodup)
    (inner : ∀ t ∈ below, t.IsAt a) (beside : (below.map fun t => t.label.basename).Nodup) :
    g.Spells a k := by
  rw [shown_eq hg hk] at shown
  cases shown
  rw [List.forall_mem_map] at inner
  refine ⟨owned, owns, inner, ?_⟩
  have labels : (g.childrenOf k).map (fun c => (g.component c).basename) =
      ((g.childrenOf k).map g.shown).map fun t => t.label.basename := by
    rw [List.map_map]
    refine List.map_congr_left fun c hc => ?_
    rw [Function.comp_apply, shown_eq hg (hg.child_mem ⟨hk, hc⟩)]
    rfl
  exact labels ▸ beside

namespace Spells

theorem child (spells : g.Spells a p) (hg : g.Coherent) (step : g.IsParent p c) :
    ∃ b : Text, b.IsSegment ∧ (g.component c).basename = .text b ∧
      (g.component c).name = .text (a.dot b) ∧ g.Spells (a.dot b) c := by
  have hc := hg.child_mem step
  have here := spells.inner c step.2
  have shown := shown_eq hg hc
  rw [shown] at here
  cases here with
  | unit segment basename name owned owns inner beside =>
    exact ⟨_, segment, basename, name, spells_of_unit hg hc shown owned owns inner beside⟩

theorem all {r : ComponentKey} (spells : g.Spells top r) (hg : g.Coherent)
    (root : g.register.root = some r) (hk : k ∈ g.roster) : g.Spells (g.address top k) k := by
  induction hg.root_encloses root hk with
  | refl =>
    have above : g.address top r = top := if_pos root
    exact above.symm ▸ spells
  | tail _ step ih =>
    obtain ⟨b, -, -, name, here⟩ := (ih step.1).child hg step
    have below : g.register.root ≠ some _ := fun root => hg.not_parent_of_root root step
    rw [address, if_neg below, name]
    exact here

theorem isAddressed {r : ComponentKey} (spells : g.Spells top r) (hg : g.Coherent)
    (root : g.register.root = some r) (undotted : top.holds '.' = false) :
    g.IsAddressed top where
  undotted := undotted
  child := fun step => by
    obtain ⟨b, segment, basename, name, -⟩ := (spells.all hg root step.1).child hg step
    exact ⟨b, segment, basename, name⟩
  siblings := fun step step' same =>
    List.inj_on_of_nodup_map (spells.all hg root step.1).beside step.2 step'.2 same
  port := fun k hk => (spells.all hg root hk).owned

end Spells

end Graph

end Schematic
