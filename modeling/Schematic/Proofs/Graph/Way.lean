import Schematic.Graph.PassThrough
import Schematic.Proofs.Graph.Enclosure
import Mathlib.Data.List.Chain

/-! The way from one component to another: the simple path over containment, taken in either
direction. It climbs to the nearest component that encloses both ends and descends from there. -/

namespace Schematic.Graph

def Adjacent (g : Graph) (a b : ComponentKey) : Prop := g.IsParent a b ∨ g.IsParent b a

structure IsWay (g : Graph) (start goal : ComponentKey) (path : List ComponentKey) : Prop where
  first : path.head? = some start
  last : path.getLast? = some goal
  steps : path.IsChain g.Adjacent
  simple : path.Nodup

def IsNearestCommon (g : Graph) (t a b : ComponentKey) : Prop :=
  g.Encloses t a ∧ g.Encloses t b ∧ ∀ u, g.Encloses u a → g.Encloses u b → g.Encloses u t

/-- A component strictly inside the way between two others, where the way does not turn. -/
def Crosses (g : Graph) (c a b : ComponentKey) : Prop :=
  ∃ path, g.IsWay a b path ∧ c ∈ path.tail.dropLast ∧ ¬ g.IsNearestCommon c a b

/-- The crumbs of a way to a goal, by the rule that each step follows: down when the goal is below,
up otherwise. -/
inductive Route (g : Graph) (goal : ComponentKey) : ComponentKey → Bool → List Crumb → Prop where
  | here {upwards : Bool} : Route g goal goal upwards [⟨goal, upwards⟩]
  | down {k c : ComponentKey} {upwards : Bool} {trail : List Crumb} : g.IsParent k c →
      g.Encloses c goal → Route g goal c false trail →
      Route g goal k upwards (⟨k, upwards⟩ :: trail)
  | up {k p : ComponentKey} {trail : List Crumb} : g.IsParent p k → ¬ g.Encloses k goal →
      Route g goal p true trail → Route g goal k true (⟨k, true⟩ :: trail)

variable {g : Graph} {a b c k m p t goal : ComponentKey} {upwards : Bool} {trail : List Crumb}

namespace IsWay

theorem cons {path : List ComponentKey} (way : g.IsWay b goal path) (step : g.Adjacent a b)
    (fresh : a ∉ path) : g.IsWay a goal (a :: path) where
  first := rfl
  last := by
    cases path with
    | nil => cases way.first
    | cons => exact way.last
  steps := by
    refine way.steps.cons fun y hy => ?_
    cases Option.some.inj (way.first.symm.trans hy)
    exact step
  simple := List.nodup_cons.mpr ⟨fresh, way.simple⟩

theorem tail {path : List ComponentKey} (way : g.IsWay a goal (a :: b :: path)) :
    g.IsWay b goal (b :: path) where
  first := rfl
  last := way.last
  steps := way.steps.tail
  simple := (List.nodup_cons.mp way.simple).2

end IsWay

namespace Coherent

theorem encloses_of_downward (h : g.Route goal k false trail) : g.Encloses k goal := by
  cases h with
  | here => exact .refl _
  | down step below _ => exact step.encloses.trans below

theorem route_head (h : g.Route goal k upwards trail) :
    ∃ rest, trail = ⟨k, upwards⟩ :: rest := by
  cases h with
  | here => exact ⟨[], rfl⟩
  | down => exact ⟨_, rfl⟩
  | up => exact ⟨_, rfl⟩

theorem route_unique (hg : g.Coherent) {trail' : List Crumb} (h : g.Route goal k upwards trail)
    (h' : g.Route goal k upwards trail') : trail = trail' := by
  induction h generalizing trail' with
  | here =>
    cases h' with
    | here => rfl
    | down step below _ => exact absurd below (hg.not_encloses_parent step)
    | up _ apart _ => exact absurd (.refl goal) apart
  | down step below _ ih =>
    cases h' with
    | here => exact absurd below (hg.not_encloses_parent step)
    | down step' below' rest' =>
      cases hg.child_unique step step' below below'
      rw [ih rest']
    | up _ apart _ => exact absurd (step.encloses.trans below) apart
  | up step apart _ ih =>
    cases h' with
    | here => exact absurd (.refl goal) apart
    | down step' below' _ => exact absurd (step'.encloses.trans below') apart
    | up step' _ rest' =>
      cases hg.parent_unique step step'
      rw [ih rest']

theorem exists_route_below (below : g.Encloses k goal) (upwards : Bool) :
    ∃ trail, g.Route goal k upwards trail := by
  induction below using Relation.ReflTransGen.head_induction_on generalizing upwards with
  | refl => exact ⟨_, .here⟩
  | head step rest ih =>
    obtain ⟨trail, route⟩ := ih false
    exact ⟨_, .down step rest route⟩

theorem exists_route (hg : g.Coherent) (hk : k ∈ g.roster) (hgoal : goal ∈ g.roster) :
    ∃ trail, g.Route goal k true trail := by
  obtain ⟨r, hr⟩ := hg.exists_root hk
  have top := hg.root_encloses hr hk
  have reach := hg.root_encloses hr hgoal
  clear hk hr hgoal
  induction top with
  | refl => exact exists_route_below reach true
  | @tail _ l _ step ih =>
    obtain ⟨trail, route⟩ := ih
    by_cases below : g.Encloses l goal
    · exact exists_route_below below true
    · exact ⟨_, .up step below route⟩

theorem nearest_of_encloses (hg : g.Coherent) (h : g.Encloses k goal) :
    g.IsNearestCommon m k goal ↔ m = k := by
  constructor
  · exact fun near => hg.encloses_antisymm near.1 (near.2.2 k (.refl k) h)
  · rintro rfl
    exact ⟨.refl m, h, fun _ above _ => above⟩

theorem nearest_parent (hg : g.Coherent) (h : g.IsParent p k) (apart : ¬ g.Encloses k goal) :
    g.IsNearestCommon m k goal ↔ g.IsNearestCommon m p goal := by
  have both (u : ComponentKey) (hu : g.Encloses u goal) : g.Encloses u k ↔ g.Encloses u p := by
    rw [hg.encloses_child_iff h]
    exact or_iff_right fun same => apart (same ▸ hu)
  constructor
  · intro near
    exact ⟨(both m near.2.1).mp near.1, near.2.1,
      fun u hu hu' => near.2.2 u ((both u hu').mpr hu) hu'⟩
  · intro near
    exact ⟨(both m near.2.1).mpr near.1, near.2.1,
      fun u hu hu' => near.2.2 u ((both u hu').mp hu) hu'⟩

/-- The components of a route: what encloses one end but not the other, and the nearest component
that encloses both. -/
theorem mem_route (hg : g.Coherent) (h : g.Route goal k upwards trail) :
    m ∈ trail.map Crumb.component ↔
      (g.Encloses m k ∧ ¬ g.Encloses m goal) ∨ (g.Encloses m goal ∧ ¬ g.Encloses m k) ∨
        g.IsNearestCommon m k goal := by
  induction h with
  | here =>
    rw [hg.nearest_of_encloses (.refl goal)]
    simp
  | @down k c _ trail step below _ ih =>
    have inside : g.Encloses k goal := step.encloses.trans below
    have above : g.Encloses m k → g.Encloses m goal := fun h => h.trans inside
    have apart := hg.not_encloses_parent step
    rw [List.map_cons, List.mem_cons, ih, hg.nearest_of_encloses below,
      hg.nearest_of_encloses inside, hg.encloses_child_iff step]
    by_cases same : m = c
    · subst same
      grind
    · grind
  | @up k p trail step apart _ ih =>
    rw [List.map_cons, List.mem_cons, ih, hg.nearest_parent step apart,
      hg.encloses_child_iff step]
    by_cases same : m = k
    · subst same
      grind
    · grind

theorem route_isWay (hg : g.Coherent) (h : g.Route goal k upwards trail) :
    g.IsWay k goal (trail.map Crumb.component) := by
  induction h with
  | here => exact ⟨rfl, rfl, .singleton _, List.nodup_singleton _⟩
  | @down k c _ trail step below rest ih =>
    refine ih.cons (.inl step) fun again => ?_
    rcases (hg.mem_route rest).mp again with outer | outer | near
    · exact outer.2 (step.encloses.trans below)
    · exact outer.2 step.encloses
    · exact hg.not_encloses_parent step ((hg.nearest_of_encloses below).mp near ▸ .refl _)
  | @up k p trail step apart rest ih =>
    refine ih.cons (.inr step) fun again => ?_
    rcases (hg.mem_route rest).mp again with outer | outer | near
    · exact hg.not_encloses_parent step outer.1
    · exact apart outer.1
    · exact apart near.2.1

theorem not_encloses_of_avoids (hg : g.Coherent) {path : List ComponentKey}
    (steps : path.IsChain g.Adjacent) (start : ∀ x ∈ path.head?, ¬ g.Encloses m x)
    (avoids : m ∉ path) : ∀ x ∈ path, ¬ g.Encloses m x := by
  induction path with
  | nil => nofun
  | cons x rest ih =>
    have outside := start x rfl
    have later : ∀ y ∈ rest, ¬ g.Encloses m y := by
      refine ih steps.tail ?_ fun h => avoids (List.mem_cons_of_mem _ h)
      intro y hy inside
      have found : y ∈ rest := List.mem_of_mem_head? hy
      rcases steps.rel_head? hy with step | step
      · rcases (hg.encloses_child_iff step).mp inside with same | above
        · exact avoids (List.mem_cons_of_mem _ (same ▸ found))
        · exact outside above
      · exact outside (inside.trans step.encloses)
    intro z hz
    rcases List.mem_cons.mp hz with rfl | hz
    · exact outside
    · exact later z hz

/-- Every simple path is a route. After a step down it cannot turn, since the only way up leads back
to where it came from. -/
theorem route_of_way (hg : g.Coherent) {path : List ComponentKey} (way : g.IsWay k goal path)
    (free : upwards = true ∨ ∀ p, g.IsParent p k → p ∉ path) :
    ∃ trail, g.Route goal k upwards trail ∧ trail.map Crumb.component = path := by
  induction path generalizing k upwards with
  | nil => cases way.first
  | cons x rest ih =>
    cases Option.some.inj way.first
    cases rest with
    | nil =>
      cases Option.some.inj way.last
      exact ⟨_, .here, rfl⟩
    | cons y rest =>
      have next := way.tail
      have fresh : x ∉ y :: rest := (List.nodup_cons.mp way.simple).1
      rcases way.steps.rel with step | step
      · have alone : ∀ p, g.IsParent p y → p ∉ y :: rest := fun p hp =>
          hg.parent_unique hp step ▸ fresh
        obtain ⟨trail, route, components⟩ : ∃ trail, g.Route goal y false trail ∧
            trail.map Crumb.component = y :: rest := ih next (.inr alone)
        exact ⟨_, .down step (encloses_of_downward route) route, by simp [components]⟩
      -- after a step down the parent is behind, and a simple way does not come back to it
      · have rising : upwards = true := free.resolve_right fun sunk =>
          sunk y step (List.mem_cons_of_mem _ List.mem_cons_self)
        subst rising
        obtain ⟨trail, route, components⟩ := ih next (.inl rfl)
        have outside : ∀ z ∈ y :: rest, ¬ g.Encloses x z := by
          refine hg.not_encloses_of_avoids next.steps ?_ fresh
          intro z hz
          cases Option.some.inj hz
          exact hg.not_encloses_parent step
        have apart := outside goal (List.mem_of_getLast? next.last)
        exact ⟨_, .up step apart route, by simp [components]⟩

theorem route_of_isWay (hg : g.Coherent) {path : List ComponentKey} (way : g.IsWay k goal path) :
    ∃ trail, g.Route goal k true trail ∧ trail.map Crumb.component = path :=
  hg.route_of_way way (.inl rfl)

theorem way_unique (hg : g.Coherent) {path path' : List ComponentKey}
    (h : g.IsWay a b path) (h' : g.IsWay a b path') : path = path' := by
  obtain ⟨trail, route, components⟩ := hg.route_of_isWay h
  obtain ⟨trail', route', components'⟩ := hg.route_of_isWay h'
  rw [← components, ← components', hg.route_unique route route']

theorem mem_way (hg : g.Coherent) {path : List ComponentKey} (way : g.IsWay a b path) :
    m ∈ path ↔ (g.Encloses m a ∧ ¬ g.Encloses m b) ∨ (g.Encloses m b ∧ ¬ g.Encloses m a) ∨
      g.IsNearestCommon m a b := by
  obtain ⟨trail, route, rfl⟩ := hg.route_of_isWay way
  exact hg.mem_route route

end Coherent

theorem IsWay.mem_inner {path : List ComponentKey} (way : g.IsWay a b path) :
    m ∈ path.tail.dropLast ↔ m ∈ path ∧ m ≠ a ∧ m ≠ b := by
  obtain ⟨rest, rfl⟩ := List.head?_eq_some_iff.mp way.first
  rcases List.eq_nil_or_concat rest with rfl | ⟨inner, z, rfl⟩
  · simp only [List.tail_cons, List.dropLast_nil, List.not_mem_nil, List.mem_singleton]
    grind
  · have goal : z = b := by
      have last := way.last
      rw [List.concat_eq_append, ← List.cons_append, List.getLast?_concat] at last
      exact Option.some.inj last
    subst goal
    have simple := way.simple
    simp only [List.concat_eq_append, List.nodup_cons, List.nodup_append, List.mem_append,
      List.mem_singleton] at simple
    simp only [List.concat_eq_append, List.tail_cons, List.dropLast_concat, List.mem_cons,
      List.mem_append, List.not_mem_nil, or_false]
    constructor
    · intro inside
      refine ⟨.inr (.inl inside), ?_, ?_⟩
      · rintro rfl
        exact simple.1 (.inl inside)
      · exact simple.2.2.2 m inside z rfl
    · grind

theorem Coherent.crosses_iff (hg : g.Coherent) (ha : a ∈ g.roster) (hb : b ∈ g.roster) :
    g.Crosses c a b ↔ c ≠ a ∧ c ≠ b ∧ ¬ (g.Encloses c a ↔ g.Encloses c b) := by
  constructor
  · rintro ⟨path, way, inner, turn⟩
    obtain ⟨member, notStart, notGoal⟩ := way.mem_inner.mp inner
    refine ⟨notStart, notGoal, ?_⟩
    rcases (hg.mem_way way).mp member with outer | outer | near
    · grind
    · grind
    · exact absurd near turn
  · rintro ⟨notStart, notGoal, apart⟩
    obtain ⟨trail, route⟩ := hg.exists_route ha hb
    have way := hg.route_isWay route
    refine ⟨_, way, way.mem_inner.mpr ⟨(hg.mem_way way).mpr ?_, notStart, notGoal⟩, ?_⟩
    · grind
    · exact fun near => apart (iff_of_true near.1 near.2.1)

/-- Two neighbours on a way without its turning point: a parent and its child, or two children of
the turning point, the first on the side of the start and the second on the side of the goal. -/
def AreNeighbours (g : Graph) (t a b x y : ComponentKey) : Prop :=
  g.IsParent x y ∨ g.IsParent y x ∨
    g.IsParent t x ∧ g.IsParent t y ∧ x ≠ y ∧ g.Encloses x a ∧ g.Encloses y b

namespace Coherent

theorem exists_nearest (hg : g.Coherent) (h : g.Route goal k upwards trail) :
    ∃ t, g.IsNearestCommon t k goal := by
  induction h with
  | here => exact ⟨goal, (hg.nearest_of_encloses (.refl goal)).mpr rfl⟩
  | @down k _ _ _ step below _ _ =>
    exact ⟨k, (hg.nearest_of_encloses (step.encloses.trans below)).mpr rfl⟩
  | up step apart _ ih =>
    obtain ⟨t, near⟩ := ih
    exact ⟨t, (hg.nearest_parent step apart).mpr near⟩

theorem turn_mem (hg : g.Coherent) {path : List ComponentKey} (way : g.IsWay a b path)
    (turn : g.IsNearestCommon t a b) : t ∈ path :=
  (hg.mem_way way).mpr (.inr (.inr turn))

theorem turn_unique (hg : g.Coherent) (turn : g.IsNearestCommon t a b)
    (turn' : g.IsNearestCommon m a b) : t = m :=
  hg.encloses_antisymm (turn'.2.2 t turn.1 turn.2.1) (turn.2.2 m turn'.1 turn'.2.1)

theorem isParent_turn (hg : g.Coherent) {path : List ComponentKey} (way : g.IsWay a b path)
    (turn : g.IsNearestCommon t a b) (hm : m ∈ path) (step : g.Adjacent m t) : g.IsParent t m := by
  rcases step with above | below
  · rcases (hg.mem_way way).mp hm with outer | outer | near
    · exact absurd (above.encloses.trans turn.2.1) outer.2
    · exact absurd (above.encloses.trans turn.1) outer.2
    · have same : g.Encloses t m := hg.turn_unique turn near ▸ .refl t
      exact absurd same (hg.not_encloses_parent above)
  · exact below

theorem encloses_start (hg : g.Coherent) {before after : List ComponentKey} {x : ComponentKey}
    (way : g.IsWay a b (before ++ t :: after)) (turn : g.IsNearestCommon t a b)
    (last : before.getLast? = some x) (step : g.IsParent t x) : g.Encloses x a := by
  by_contra apart
  have nonempty : before ≠ [] := fun empty => by
    rw [empty] at last
    cases last
  have part : g.IsWay a x before :=
    { first := by
        have head := way.first
        rwa [List.head?_append_of_ne_nil _ nonempty] at head
      last := last
      steps := way.steps.left_of_append
      simple := (List.nodup_append.mp way.simple).1 }
  -- seen from a component below it, the turning point is still where the way to the start turns
  have near : g.IsNearestCommon t a x := by
    refine ⟨turn.1, step.encloses, fun u above below => ?_⟩
    rcases (hg.encloses_child_iff step).mp below with same | rest
    · exact absurd (same ▸ above) apart
    · exact rest
  exact (List.nodup_append.mp way.simple).2.2 t (hg.turn_mem part near) t List.mem_cons_self rfl

theorem neighbours (hg : g.Coherent) {path : List ComponentKey} (way : g.IsWay a b path)
    (turn : g.IsNearestCommon t a b) :
    (if t = a ∨ t = b then path else path.erase t).IsChain (g.AreNeighbours t a b) := by
  have steps {list : List ComponentKey} (chain : list.IsChain g.Adjacent) :
      list.IsChain (g.AreNeighbours t a b) :=
    chain.imp fun x y step => step.imp_right .inl
  split
  · exact steps way.steps
  · obtain ⟨before, after, rfl, fresh⟩ := List.eq_append_cons_of_mem (hg.turn_mem way turn)
    rw [List.erase_append_right _ fresh, List.erase_cons_head]
    obtain ⟨first, rest, junction⟩ := List.isChain_append.mp way.steps
    refine List.isChain_append.mpr ⟨steps first, steps rest.tail, fun x hx y hy => .inr (.inr ?_)⟩
    have hx' : x ∈ before := List.mem_of_getLast? hx
    have hy' : y ∈ after := List.mem_of_mem_head? hy
    have simple := List.nodup_append.mp way.simple
    have other : x ≠ y := simple.2.2 x hx' y (List.mem_cons_of_mem _ hy')
    have up : g.IsParent t x := hg.isParent_turn way turn (List.mem_append_left _ hx')
      (junction x hx t rfl)
    have memY : y ∈ before ++ t :: after := List.mem_append_right _ (List.mem_cons_of_mem _ hy')
    have down : g.IsParent t y := hg.isParent_turn way turn memY (rest.rel_head? hy).symm
    have start := hg.encloses_start way turn hx up
    refine ⟨up, down, other, start, ?_⟩
    rcases (hg.mem_way way).mp memY with outer | outer | near
    · exact absurd (hg.child_unique up down start outer.1) other
    · exact outer.1
    · exact near.2.1

/-- A component is where the way from below one of its children to below another one turns. -/
theorem nearest_of_children (hg : g.Coherent) {x y : ComponentKey} (left : g.IsParent t x)
    (right : g.IsParent t y) (other : x ≠ y) (ha : g.Encloses x a) (hb : g.Encloses y b) :
    g.IsNearestCommon t a b := by
  have apart : ¬ g.Encloses x b := fun above => other (hg.child_unique left right above hb)
  refine ⟨left.encloses.trans ha, right.encloses.trans hb, fun u hu hu' => ?_⟩
  rcases hg.encloses_total hu ha with above | below
  · rcases (hg.encloses_child_iff left).mp above with same | above
    · exact absurd (same ▸ hu') apart
    · exact above
  · exact absurd (below.trans hu') apart

/-- This way takes the one child, the component and the other child one after the other. -/
theorem way_between (hg : g.Coherent) {x y : ComponentKey} {path : List ComponentKey}
    (way : g.IsWay a b path) (left : g.IsParent t x) (right : g.IsParent t y) (other : x ≠ y)
    (ha : g.Encloses x a) (hb : g.Encloses y b) :
    ∃ before after, path = before ++ x :: t :: y :: after := by
  have turn : g.IsNearestCommon t a b := hg.nearest_of_children left right other ha hb
  have notStart : t ≠ a := fun same => hg.not_encloses_parent left (same ▸ ha)
  have notGoal : t ≠ b := fun same => hg.not_encloses_parent right (same ▸ hb)
  obtain ⟨front, back, rfl⟩ := List.append_of_mem (hg.turn_mem way turn)
  obtain ⟨-, rest, junction⟩ := List.isChain_append.mp way.steps
  rcases List.eq_nil_or_concat front with rfl | ⟨before, x', rfl⟩
  · exact absurd (Option.some.inj way.first) notStart
  · cases back with
    | nil =>
      have last := way.last
      rw [List.getLast?_append_cons, List.getLast?_singleton] at last
      exact absurd (Option.some.inj last) notGoal
    | cons y' after =>
      -- the neighbours of the turning point on the way are its children towards the two ends
      have up : g.IsParent t x' := hg.isParent_turn way turn (by simp)
        (junction x' (by simp) t rfl)
      have down : g.IsParent t y' := hg.isParent_turn way turn (by simp)
        (List.isChain_cons_cons.mp rest).1.symm
      have start : g.Encloses x' a := hg.encloses_start way turn (by simp) up
      have apart : x' ≠ y' := (List.nodup_append.mp way.simple).2.2 x' (by simp) y' (by simp)
      have member : y' ∈ before.concat x' ++ t :: y' :: after := by simp
      have finish : g.Encloses y' b := by
        rcases (hg.mem_way way).mp member with outer | outer | near
        · exact absurd (hg.child_unique up down start outer.1) apart
        · exact outer.1
        · exact near.2.1
      cases hg.child_unique up left start ha
      cases hg.child_unique down right finish hb
      exact ⟨before, after, by simp⟩

/-- What is left of a way without its turning point: its ends and what it crosses. -/
theorem mem_neighbours (hg : g.Coherent) {path : List ComponentKey} (way : g.IsWay a b path)
    (turn : g.IsNearestCommon t a b)
    (hm : m ∈ if t = a ∨ t = b then path else path.erase t) : m = a ∨ m = b ∨ g.Crosses m a b := by
  have inside : m ∈ path ∧ (m = t → t = a ∨ t = b) := by
    split at hm
    · next ends => exact ⟨hm, fun _ => ends⟩
    · exact ⟨List.mem_of_mem_erase hm, fun same => by
        subst same
        exact absurd hm (way.simple.not_mem_erase)⟩
  by_cases start : m = a
  · exact .inl start
  · by_cases finish : m = b
    · exact .inr (.inl finish)
    · refine .inr (.inr ⟨path, way, way.mem_inner.mpr ⟨inside.1, start, finish⟩, fun near => ?_⟩)
      have same := hg.turn_unique near turn
      rcases inside.2 same with ends | ends
      · exact start (same.trans ends)
      · exact finish (same.trans ends)

end Coherent

end Schematic.Graph
