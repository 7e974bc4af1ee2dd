import Schematic.Graph.Containment
import Mathlib.Data.List.Chain
import Mathlib.Data.List.Nodup
import Mathlib.Data.List.Perm.Subperm
import Mathlib.Logic.Relation

/-! The two searches of a shortest way meet, and the way over the node where they do is simple.
Until then no node is reached by both, so the half from one end shares nothing with the half from
the other but that node. Where neither meets the other, one of them comes to an end; what it has
reached is then closed under links and holds the other end. -/

namespace Schematic.Containment

namespace Wave

/-- Nodes that links in either direction join with each other and with nothing else. -/
structure IsNetwork (step : Nat → List Nat) (nodes : List Nat) : Prop where
  closed : ∀ x ∈ nodes, ∀ y ∈ step x, y ∈ nodes
  symm : ∀ {x y}, y ∈ step x → x ∈ step y
  joined : ∀ x ∈ nodes, ∀ y ∈ nodes, Relation.ReflTransGen (fun a b => b ∈ step a) x y

structure IsPath (step : Nat → List Nat) (first last : Nat) (path : List Nat) : Prop where
  head : path.head? = some first
  getLast : path.getLast? = some last
  linked : path.IsChain fun a b => b ∈ step a
  nodup : path.Nodup

/-- A search that goes out from an end. Each way back is a simple path of reached nodes. -/
structure IsSearch (step : Nat → List Nat) (nodes : List Nat) (origin : Nat) (w : Wave) : Prop where
  begun : w.reaches origin = true
  inside : ∀ x, w.reaches x = true → x ∈ nodes
  path : ∀ x, w.reaches x = true → IsPath step x origin (w.wayFrom x)
  along : ∀ x, w.reaches x = true → ∀ y ∈ w.wayFrom x, w.reaches y = true
  front : ∀ x ∈ w.front, w.reaches x = true
  keys : (w.ways.map Prod.fst).Nodup

/-- A search and the same one later. Nodes that it has reached in between are at its front. -/
structure GrowsTo (w w' : Wave) : Prop where
  reaches : ∀ x, w.reaches x = true → w'.reaches x = true
  fresh : ∀ x, w'.reaches x = true → w.reaches x = true ∨ x ∈ w'.front
  count : w'.ways.length + w.front.length = w.ways.length + w'.front.length

def visit (way : List Nat) (n : Nat) (w : Wave) : Wave :=
  if w.reaches n then w else ⟨w.ways ++ [(n, n :: way)], w.front ++ [n]⟩

variable {step : Nat → List Nat} {nodes : List Nat} {w w' w'' other ahead back : Wave}
  {k n x source target origin : Nat} {way ns : List Nat}

theorem spread_cons : spread other way (n :: ns) w =
    if other.reaches n then (some n, visit way n w) else spread other way ns (visit way n w) := rfl

theorem reaches_iff : w.reaches n = true ↔ n ∈ w.ways.map Prod.fst := by
  simp only [reaches, List.lookup_isSome_iff, List.mem_map]
  exact ⟨fun ⟨e, he, same⟩ => ⟨e, he, (beq_iff_eq.mp same).symm⟩,
    fun ⟨e, he, same⟩ => ⟨e, he, beq_iff_eq.mpr same.symm⟩⟩

theorem visit_of_reaches (h : w.reaches n = true) : visit way n w = w := if_pos h

theorem visit_of_not_reaches (h : ¬ w.reaches n = true) :
    visit way n w = ⟨w.ways ++ [(n, n :: way)], w.front ++ [n]⟩ := if_neg h

theorem reaches_visit : (visit way n w).reaches x = true ↔ w.reaches x = true ∨ x = n := by
  by_cases known : w.reaches n = true
  · rw [visit_of_reaches known]
    exact ⟨.inl, fun h => h.elim id fun same => same ▸ known⟩
  · rw [visit_of_not_reaches known, reaches_iff, reaches_iff]
    simp

theorem wayFrom_visit_of_reaches (h : w.reaches x = true) :
    (visit way n w).wayFrom x = w.wayFrom x := by
  by_cases known : w.reaches n = true
  · rw [visit_of_reaches known]
  · rw [visit_of_not_reaches known]
    obtain ⟨found, lookup⟩ := Option.isSome_iff_exists.mp h
    simp [wayFrom, List.lookup_append, lookup]

theorem wayFrom_visit_new (new : ¬ w.reaches n = true) :
    (visit way n w).wayFrom n = n :: way := by
  rw [visit_of_not_reaches new]
  have absent : w.ways.lookup n = none := by
    rw [← Option.not_isSome_iff_eq_none]
    exact new
  simp [wayFrom, List.lookup_append, absent]

namespace GrowsTo

theorem refl (w : Wave) : w.GrowsTo w := ⟨fun _ => id, fun _ => .inl, rfl⟩

theorem trans (h : w.GrowsTo w') (h' : w'.GrowsTo w'') (front : w'.front ⊆ w''.front) :
    w.GrowsTo w'' where
  reaches := fun x hx => h'.reaches x (h.reaches x hx)
  fresh := by
    intro x hx
    rcases h'.fresh x hx with old | new
    · exact (h.fresh x old).imp_right fun hf => front hf
    · exact .inr new
  count := by
    have first := h.count
    have second := h'.count
    omega

theorem visit (way : List Nat) (n : Nat) (w : Wave) : w.GrowsTo (visit way n w) where
  reaches := fun _ hx => reaches_visit.mpr (.inl hx)
  fresh := by
    intro x hx
    by_cases known : w.reaches n = true
    · rw [visit_of_reaches known] at hx
      exact .inl hx
    · refine (reaches_visit.mp hx).imp_right fun same => ?_
      rw [visit_of_not_reaches known, same]
      exact List.mem_append_right _ List.mem_cons_self
  count := by
    by_cases known : w.reaches n = true
    · rw [visit_of_reaches known]
    · rw [visit_of_not_reaches known]
      simp only [List.length_append, List.length_singleton]
      omega

end GrowsTo

theorem front_visit (way : List Nat) (n : Nat) (w : Wave) : w.front ⊆ (visit way n w).front := by
  by_cases known : w.reaches n = true
  · rw [visit_of_reaches known]
    exact List.Subset.refl _
  · rw [visit_of_not_reaches known]
    exact List.subset_append_left _ _

theorem IsPath.cons (path : IsPath step k origin way) (link : k ∈ step n) (fresh : n ∉ way) :
    IsPath step n origin (n :: way) where
  head := rfl
  getLast := by
    cases way with
    | nil => cases path.head
    | cons => exact path.getLast
  linked := by
    refine path.linked.cons fun y hy => ?_
    cases Option.some.inj (path.head.symm.trans hy)
    exact link
  nodup := List.nodup_cons.mpr ⟨fresh, path.nodup⟩

theorem IsSearch.start (h : n ∈ nodes) :
    IsSearch step nodes n (.start n) := by
  have only : ∀ x, (Wave.start n).reaches x = true → x = n := by
    intro x hx
    simpa [Wave.start] using reaches_iff.mp hx
  have way : (Wave.start n).wayFrom n = [n] := by simp [Wave.start, wayFrom]
  have begun : (Wave.start n).reaches n = true := reaches_iff.mpr (by simp [Wave.start])
  constructor
  · exact begun
  · intro x hx
    exact only x hx ▸ h
  · intro x hx
    rw [only x hx, way]
    exact ⟨rfl, rfl, .singleton n, List.nodup_singleton n⟩
  · intro x hx y hy
    rw [only x hx, way, List.mem_singleton] at hy
    exact hy ▸ begun
  · intro x hx
    exact List.mem_singleton.mp hx ▸ begun
  · exact List.nodup_singleton n

theorem IsSearch.visit (net : IsNetwork step nodes) (h : IsSearch step nodes origin w)
    (hk : w.reaches k = true) (hn : n ∈ step k) :
    IsSearch step nodes origin (visit (w.wayFrom k) n w) := by
  by_cases known : w.reaches n = true
  · rw [visit_of_reaches known]
    exact h
  · constructor
    · exact reaches_visit.mpr (.inl h.begun)
    · intro x hx
      rcases reaches_visit.mp hx with old | rfl
      · exact h.inside x old
      · exact net.closed k (h.inside k hk) x hn
    · intro x hx
      rcases reaches_visit.mp hx with old | rfl
      · rw [wayFrom_visit_of_reaches old]
        exact h.path x old
      · rw [wayFrom_visit_new known]
        -- the new node was not reached before, so it is not on the way to its neighbour
        exact (h.path k hk).cons (net.symm hn) fun again => known (h.along k hk x again)
    · intro x hx y hy
      rcases reaches_visit.mp hx with old | rfl
      · rw [wayFrom_visit_of_reaches old] at hy
        exact reaches_visit.mpr (.inl (h.along x old y hy))
      · rw [wayFrom_visit_new known] at hy
        rcases List.mem_cons.mp hy with rfl | hy
        · exact hx
        · exact reaches_visit.mpr (.inl (h.along k hk y hy))
    · intro x hx
      rw [visit_of_not_reaches known] at hx
      rcases List.mem_append.mp hx with hx | hx
      · exact reaches_visit.mpr (.inl (h.front x hx))
      · exact reaches_visit.mpr (.inr (List.mem_singleton.mp hx))
    · rw [visit_of_not_reaches known, List.map_append]
      refine List.nodup_append.mpr ⟨h.keys, List.nodup_singleton n, ?_⟩
      intro x hx y hy same
      cases List.mem_singleton.mp hy
      subst same
      exact known (reaches_iff.mpr hx)

theorem IsSearch.length_le (h : IsSearch step nodes origin w) : w.ways.length ≤ nodes.length := by
  have within : w.ways.map Prod.fst ⊆ nodes := fun x hx => h.inside x (reaches_iff.mpr hx)
  have bound := (List.subperm_of_subset h.keys within).length_le
  rwa [List.length_map] at bound

/-- How a search stands after some of its steps, and where it met the other one. -/
structure Stands (step : Nat → List Nat) (nodes : List Nat) (origin : Nat) (other w : Wave)
    (result : Option Nat × Wave) : Prop where
  search : IsSearch step nodes origin result.2
  grows : w.GrowsTo result.2
  front : w.front ⊆ result.2.front
  ways : ∀ x, w.reaches x = true → result.2.wayFrom x = w.wayFrom x
  common : ∀ x, result.2.reaches x = true → other.reaches x = true → result.1 = some x
  met : ∀ x, result.1 = some x → result.2.reaches x = true ∧ other.reaches x = true

def Apart (w other : Wave) : Prop := ∀ x, w.reaches x = true → ¬ other.reaches x = true

namespace Stands

theorem refl (h : IsSearch step nodes origin w) (apart : w.Apart other) :
    Stands step nodes origin other w (none, w) where
  search := h
  grows := .refl w
  front := List.Subset.refl _
  ways := fun _ _ => rfl
  common := fun x hx hx' => absurd hx' (apart x hx)
  met := nofun

theorem trans {result : Option Nat × Wave} (h : Stands step nodes origin other w (none, w'))
    (h' : Stands step nodes origin other w' result) : Stands step nodes origin other w result where
  search := h'.search
  grows := h.grows.trans h'.grows h'.front
  front := List.Subset.trans h.front h'.front
  ways := fun x hx => (h'.ways x (h.grows.reaches x hx)).trans (h.ways x hx)
  common := h'.common
  met := h'.met

theorem apart (h : Stands step nodes origin other w (none, w')) : w'.Apart other := fun x hx hx' =>
  nomatch h.common x hx hx'

theorem visit (net : IsNetwork step nodes) (h : IsSearch step nodes origin w)
    (apart : w.Apart other) (hk : w.reaches k = true) (hn : n ∈ step k) :
    Stands step nodes origin other w
      (if other.reaches n then some n else none, Wave.visit (w.wayFrom k) n w) where
  search := h.visit net hk hn
  grows := .visit _ n w
  front := front_visit _ n w
  ways := fun _ hx => wayFrom_visit_of_reaches hx
  common := by
    intro x hx hx'
    rcases reaches_visit.mp hx with old | rfl
    · exact absurd hx' (apart x old)
    · exact if_pos hx'
  met := by
    intro x hx
    obtain ⟨found, same⟩ := Option.ite_none_right_eq_some.mp hx
    cases same
    exact ⟨reaches_visit.mpr (.inr rfl), found⟩

end Stands

theorem spread_stands (net : IsNetwork step nodes) (h : IsSearch step nodes origin w)
    (apart : w.Apart other) (hk : w.reaches k = true) (hns : ∀ n ∈ ns, n ∈ step k) :
    Stands step nodes origin other w (spread other (w.wayFrom k) ns w) ∧
      ((spread other (w.wayFrom k) ns w).1 = none → ∀ n ∈ ns,
        (spread other (w.wayFrom k) ns w).2.reaches n = true) := by
  induction ns generalizing w with
  | nil => exact ⟨.refl h apart, nofun⟩
  | cons n ns ih =>
    have step := Stands.visit net h apart hk (hns n List.mem_cons_self)
    rw [spread_cons]
    by_cases found : other.reaches n = true
    · rw [if_pos found] at step ⊢
      exact ⟨step, nofun⟩
    · rw [if_neg found] at step ⊢
      have hk' := step.grows.reaches k hk
      have rest := ih step.search step.apart hk' fun m hm => hns m (List.mem_cons_of_mem _ hm)
      rw [step.ways k hk] at rest
      refine ⟨step.trans rest.1, fun missed m hm => ?_⟩
      rcases List.mem_cons.mp hm with rfl | hm
      · exact rest.1.grows.reaches m (reaches_visit.mpr (.inr rfl))
      · exact rest.2 missed m hm

theorem spreadAll_stands (net : IsNetwork step nodes) (h : IsSearch step nodes origin w)
    (apart : w.Apart other) (hns : ∀ n ∈ ns, w.reaches n = true) :
    Stands step nodes origin other w (spreadAll step other ns w) ∧
      ((spreadAll step other ns w).1 = none → ∀ n ∈ ns, ∀ m ∈ step n,
        (spreadAll step other ns w).2.reaches m = true) := by
  induction ns generalizing w with
  | nil => exact ⟨.refl h apart, nofun⟩
  | cons n ns ih =>
    have hn := hns n List.mem_cons_self
    have first := spread_stands net h apart hn fun _ hm => hm
    rw [spreadAll]
    generalize spread other (w.wayFrom n) (step n) w = result at first ⊢
    obtain ⟨met, w'⟩ := result
    cases met with
    | some m => exact ⟨first.1, nofun⟩
    | none =>
      have rest := ih first.1.search first.1.apart fun m hm =>
        first.1.grows.reaches m (hns m (List.mem_cons_of_mem _ hm))
      refine ⟨first.1.trans rest.1, fun missed m hm l hl => ?_⟩
      rcases List.mem_cons.mp hm with rfl | hm
      · exact rest.1.grows.reaches l (first.2 rfl l hl)
      · exact rest.2 missed m hm l hl

/-- Whether each link from a reached node is followed, unless it starts at the front. -/
def IsFollowed (step : Nat → List Nat) (w : Wave) : Prop :=
  ∀ x, w.reaches x = true → x ∈ w.front ∨ ∀ y ∈ step x, w.reaches y = true

theorem isFollowed_start (n : Nat) : IsFollowed step (.start n) := by
  intro x hx
  have here := reaches_iff.mp hx
  exact .inl (by simpa [Wave.start] using here)

theorem IsSearch.reaches_of_front_empty (net : IsNetwork step nodes)
    (h : IsSearch step nodes origin w) (followed : IsFollowed step w) (empty : w.front = [])
    (hx : x ∈ nodes) : w.reaches x = true := by
  have reach := net.joined origin (h.inside origin h.begun) x hx
  induction reach with
  | refl => exact h.begun
  | @tail y z before link ih =>
    have hy := ih (net.closed z hx y (net.symm link))
    rcases followed y hy with front | done
    · rw [empty] at front
      cases front
    · exact done z link

theorem IsSearch.advance (net : IsNetwork step nodes) (h : IsSearch step nodes origin w)
    (ho : IsSearch step nodes target other) (apart : w.Apart other) (followed : IsFollowed step w) :
    (∃ n w', advance step other w = (some n, w') ∧ IsSearch step nodes origin w' ∧
      w'.reaches n = true ∧ other.reaches n = true ∧
      ∀ x, w'.reaches x = true → other.reaches x = true → x = n) ∨
    ∃ w', advance step other w = (none, w') ∧ IsSearch step nodes origin w' ∧ w'.Apart other ∧
      IsFollowed step w' ∧ w.ways.length < w'.ways.length := by
  have rested : IsSearch step nodes origin { w with front := [] } :=
    ⟨h.begun, h.inside, h.path, h.along, nofun, h.keys⟩
  have spec := spreadAll_stands net rested apart h.front
  rw [Wave.advance]
  generalize spreadAll step other w.front { w with front := [] } = result at spec ⊢
  obtain ⟨found, w'⟩ := result
  cases found with
  | some n =>
    obtain ⟨reached, reached'⟩ := spec.1.met n rfl
    refine .inl ⟨n, w', rfl, spec.1.search, reached, reached', fun x hx hx' => ?_⟩
    exact (Option.some.inj (spec.1.common x hx hx')).symm
  | none =>
    have follows : IsFollowed step w' := by
      intro x hx
      rcases spec.1.grows.fresh x hx with old | new
      · rcases followed x old with front | done
        · exact .inr (spec.2 rfl x front)
        · exact .inr fun y hy => spec.1.grows.reaches y (done y hy)
      · exact .inl new
    -- a search without a front has reached the other end as well, where the two would have met
    have more : w'.front ≠ [] := fun empty => spec.1.apart target
      (spec.1.search.reaches_of_front_empty net follows empty (ho.inside target ho.begun)) ho.begun
    have grown := spec.1.grows.count
    have pos := List.length_pos_of_ne_nil more
    simp only [List.length_nil] at grown
    exact .inr ⟨w', rfl, spec.1.search, spec.1.apart, follows, by omega⟩

/-- The halves from both ends share the node where the searches met and nothing else. -/
theorem joined_isPath (net : IsNetwork step nodes) (ha : IsSearch step nodes source ahead)
    (hb : IsSearch step nodes target back) (hna : ahead.reaches n = true)
    (hnb : back.reaches n = true)
    (alone : ∀ x, ahead.reaches x = true → back.reaches x = true → x = n) :
    IsPath step source target (joined ahead back n) := by
  have out := ha.path n hna
  have home := hb.path n hnb
  obtain ⟨rest, hrest⟩ := List.head?_eq_some_iff.mp home.head
  have nonempty : ahead.wayFrom n ≠ [] := by
    intro empty
    rw [empty] at out
    cases out.head
  have reversed : (ahead.wayFrom n).reverse.getLast? = some n := by
    rw [List.getLast?_reverse, out.head]
  have split : joined ahead back n = (ahead.wayFrom n).reverse ++ rest := by
    rw [joined, hrest, List.drop_one, List.tail_cons]
  rw [split]
  constructor
  · rw [List.head?_append_of_ne_nil _ (by simpa using nonempty), List.head?_reverse, out.getLast]
  · cases rest with
    | nil =>
      rw [hrest] at home
      cases Option.some.inj home.getLast
      rwa [List.append_nil]
    | cons y ys =>
      have last := home.getLast
      rw [hrest, List.getLast?_cons_cons] at last
      rw [List.getLast?_append_of_ne_nil _ (by simp), last]
  · refine List.isChain_append.mpr ⟨List.isChain_reverse.mpr (out.linked.imp fun _ _ => net.symm),
      ?_, ?_⟩
    · have linked := home.linked
      rw [hrest] at linked
      exact linked.tail
    · intro x hx y hy
      rw [reversed] at hx
      cases hx
      have linked := home.linked
      rw [hrest] at linked
      exact linked.rel_head? hy
  · have simple := home.nodup
    rw [hrest, List.nodup_cons] at simple
    refine List.nodup_append.mpr ⟨List.nodup_reverse.mpr out.nodup, simple.2, ?_⟩
    intro x hx y hy same
    subst same
    -- a node on both halves was reached from both ends, so it is the one where they met
    have left := ha.along n hna x (List.mem_reverse.mp hx)
    have right := hb.along n hnb x (hrest ▸ List.mem_cons_of_mem _ hy)
    exact simple.1 (alone x left right ▸ hy)

/-- Two searches that are still apart meet, if there are rounds enough to reach every node twice. -/
theorem meet_isPath (net : IsNetwork step nodes) {rounds : Nat}
    (ha : IsSearch step nodes source ahead) (hb : IsSearch step nodes target back)
    (apart : ahead.Apart back) (fa : IsFollowed step ahead) (fb : IsFollowed step back)
    (enough : 2 * nodes.length < rounds + ahead.ways.length + back.ways.length) :
    ∃ path, meet step rounds ahead back = some path ∧ IsPath step source target path := by
  -- each round reaches a new node on one side, so the bound holds again for what is left
  induction rounds generalizing ahead back with
  | zero =>
    have few := ha.length_le
    have few' := hb.length_le
    omega
  | succ rounds ih =>
    have apart' : back.Apart ahead := fun x hx hx' => apart x hx' hx
    have going : ahead.front ≠ [] := fun empty => apart target
      (ha.reaches_of_front_empty net fa empty (hb.inside target hb.begun)) hb.begun
    have going' : back.front ≠ [] := fun empty => apart' source
      (hb.reaches_of_front_empty net fb empty (ha.inside source ha.begun)) ha.begun
    rw [meet, if_neg (by simp [going, going'])]
    split
    · rcases ha.advance net hb apart fa with
        ⟨n, w, found, search, reached, reached', alone⟩ | ⟨w, found, search, away, follows, more⟩
      · rw [found]
        exact ⟨_, rfl, joined_isPath net search hb reached reached' alone⟩
      · rw [found]
        exact ih search hb away follows fb (by omega)
    · rcases hb.advance net ha apart' fb with
        ⟨n, w, found, search, reached, reached', alone⟩ | ⟨w, found, search, away, follows, more⟩
      · rw [found]
        exact ⟨_, rfl, joined_isPath net ha search reached' reached fun x hx hx' => alone x hx' hx⟩
      · rw [found]
        exact ih ha search (fun x hx hx' => away x hx' hx) fa follows (by omega)

end Wave

/-- Between any two nodes of a network there is a path, and it is simple. -/
theorem path?_isPath {c : Containment} {a b : Nat} (net : Wave.IsNetwork c.neighbours c.nodes)
    (ha : a ∈ c.nodes) (hb : b ∈ c.nodes) :
    ∃ path, c.path? a b = some path ∧ Wave.IsPath c.neighbours a b path := by
  rw [path?, if_pos (by simp [ha, hb])]
  by_cases same : a = b
  · subst same
    exact ⟨[a], by simp, rfl, rfl, .singleton a, List.nodup_singleton a⟩
  · rw [if_neg same]
    have only {n x : Nat} (h : (Wave.start n).reaches x = true) : x = n := by
      simpa [Wave.start] using Wave.reaches_iff.mp h
    refine Wave.meet_isPath net (.start ha) (.start hb) ?_ (Wave.isFollowed_start a)
      (Wave.isFollowed_start b) ?_
    · intro x hx hx'
      exact same ((only hx).symm.trans (only hx'))
    · simp only [Wave.start, List.length_singleton]
      omega

end Schematic.Containment
