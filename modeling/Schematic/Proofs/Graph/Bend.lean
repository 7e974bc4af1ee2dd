import Schematic.Proofs.Graph.Depth
import Schematic.Proofs.PassThrough.History

/-! Where a way turns. Up to the nearest component that encloses both ends it climbs, from there on
it descends, and both searches for it agree on what it is. -/

namespace Schematic.Graph

/-- A climb from one component and a descent to another, with the component between them where the
way over both turns. -/
structure Bends (g : Graph) (a b t : ComponentKey) (climb descent : List ComponentKey) : Prop where
  nearest : g.IsNearestCommon t a b
  rises : (climb ++ [t]).IsChain fun c p => g.IsParent p c
  falls : (t :: descent).IsChain g.IsParent

def crumbs (climb : List ComponentKey) (t : ComponentKey) (descent : List ComponentKey) :
    List Crumb :=
  (climb ++ [t]).map (⟨·, true⟩) ++ descent.map (⟨·, false⟩)

variable {g : Graph} {a b k m t goal : ComponentKey} {n top : Nat} {trail : List Crumb}
  {path climb descent : List ComponentKey}

theorem crumbs_components (climb : List ComponentKey) (t : ComponentKey)
    (descent : List ComponentKey) :
    (crumbs climb t descent).map Crumb.component = climb ++ t :: descent := by
  simp [crumbs, Function.comp_def]

theorem Route.descends (h : g.Route goal k false trail) : ∃ rest,
    trail = (k :: rest).map (⟨·, false⟩) ∧ (k :: rest).IsChain g.IsParent := by
  generalize sunk : false = upwards at h
  induction h with
  | here => exact ⟨[], by rw [← sunk]; rfl, .singleton _⟩
  | @down k c _ _ step _ _ ih =>
    obtain ⟨rest, rfl, falls⟩ := ih rfl
    exact ⟨c :: rest, by rw [← sunk]; rfl, .cons_cons step falls⟩
  | up => cases sunk

namespace Coherent

/-- A route climbs as long as the goal is not below. -/
theorem bends_of_route (hg : g.Coherent) (h : g.Route goal k true trail) :
    ∃ climb t descent, g.Bends k goal t climb descent ∧ trail = crumbs climb t descent := by
  generalize rising : true = upwards at h
  induction h with
  | here =>
    subst rising
    exact ⟨[], goal, [], ⟨(hg.nearest_of_encloses (.refl goal)).mpr rfl, .singleton _,
      .singleton _⟩, rfl⟩
  | @down k c _ _ step below rest _ =>
    subst rising
    obtain ⟨descent, rfl, falls⟩ := rest.descends
    have inside : g.Encloses k goal := step.encloses.trans below
    exact ⟨[], k, c :: descent, ⟨(hg.nearest_of_encloses inside).mpr rfl, .singleton _,
      .cons_cons step falls⟩, rfl⟩
  | @up k p _ step apart rest ih =>
    obtain ⟨climb, t, descent, bends, rfl⟩ := ih rfl
    have first : (climb ++ [t]).head? = some p := by
      obtain ⟨_, split⟩ := route_head rest
      have heads := congrArg (fun list => (list.map Crumb.component).head?) split
      rw [crumbs_components] at heads
      cases climb <;> exact heads
    refine ⟨k :: climb, t, descent, ⟨(hg.nearest_parent step apart).mpr bends.nearest, ?_,
      bends.falls⟩, rfl⟩
    refine bends.rises.cons fun x hx => ?_
    cases Option.some.inj (first.symm.trans hx)
    exact step

theorem nearest_encloses (hg : g.Coherent) (way : g.IsWay a b path)
    (nearest : g.IsNearestCommon t a b) (hm : m ∈ path) : g.Encloses t m := by
  rcases (hg.mem_way way).mp hm with ⟨start, apart⟩ | ⟨goal, apart⟩ | near
  · refine (hg.encloses_total nearest.1 start).resolve_right fun above => apart ?_
    exact above.trans nearest.2.1
  · refine (hg.encloses_total nearest.2.1 goal).resolve_right fun above => apart ?_
    exact above.trans nearest.1
  · exact hg.turn_unique nearest near ▸ .refl t

theorem liesAt_iff (hg : g.Coherent) (hk : k ∈ g.roster) :
    g.LiesAt k n ↔ g.depth k = .ok n := by
  constructor
  · exact hg.depth_eq
  · intro deep
    obtain ⟨n', lies⟩ := hg.exists_liesAt hk
    cases (hg.depth_eq lies).symm.trans deep
    exact lies

theorem liesAt_lt (hg : g.Coherent) (h : g.Encloses t m) (other : m ≠ t) (above : g.LiesAt t top)
    (below : g.LiesAt m n) : top < n := by
  have lower := hg.level_lt h other.symm
  rwa [level, level, hg.depth_eq above, hg.depth_eq below] at lower

end Coherent

/-- In every graph that additions make, both searches find the one way from a component to another,
and the search for a trail tells where it turns. The turn is the nearest component that encloses
both ends, and the only one on the way that lies as close to the root. -/
theorem path_searches_agree (additions : List Addition)
    (ha : a ∈ (({} : Graph).grow additions).roster)
    (hb : b ∈ (({} : Graph).grow additions).roster) :
    let g := ({} : Graph).grow additions
    ∃ climb t descent, g.Bends a b t climb descent ∧
      g.trail a b = .ok (some (crumbs climb t descent)) ∧
      g.pathBetween a b = .ok (climb ++ t :: descent) ∧
      g.IsWay a b (climb ++ t :: descent) ∧
      (∀ path, g.IsWay a b path → path = climb ++ t :: descent) ∧
      (∀ k ∈ climb ++ t :: descent, ∃ n, g.depth k = .ok n ∧ g.LiesAt k n) ∧
      ∀ k ∈ climb ++ t :: descent, ∀ top n, g.depth t = .ok top → g.depth k = .ok n → k ≠ t →
        top < n := by
  intro g
  have hg : g.Coherent := (IsBuilt.empty.grow additions).coherent
  obtain ⟨trail, searched, route⟩ := hg.trail_eq ha hb
  obtain ⟨path, found, way⟩ := hg.pathBetween_eq ha hb
  obtain ⟨climb, t, descent, bends, rfl⟩ := hg.bends_of_route route
  have routed : g.IsWay a b (climb ++ t :: descent) := by
    rw [← crumbs_components]
    exact hg.route_isWay route
  have same : path = climb ++ t :: descent := hg.way_unique way routed
  subst same
  have inside : ∀ k ∈ climb ++ t :: descent, k ∈ g.roster := fun k hk =>
    hg.encloses_mem (hg.nearest_encloses way bends.nearest hk) (bends.nearest.1.mem ha)
  refine ⟨climb, t, descent, bends, searched, found, way, fun _ h => hg.way_unique h way, ?_, ?_⟩
  · intro k hk
    obtain ⟨n, lies⟩ := hg.exists_liesAt (inside k hk)
    exact ⟨n, hg.depth_eq lies, lies⟩
  · intro k hk top n above below other
    have turn : t ∈ climb ++ t :: descent := List.mem_append_right _ List.mem_cons_self
    exact hg.liesAt_lt (hg.nearest_encloses way bends.nearest hk) other
      ((hg.liesAt_iff (inside t turn)).mpr above) ((hg.liesAt_iff (inside k hk)).mpr below)

theorem path_searches_agree_between_branches :
    let g := ({} : Graph).grow twoBranches
    (⟨2⟩ : ComponentKey) ∈ g.roster ∧ (⟨3⟩ : ComponentKey) ∈ g.roster ∧
      ∃ climb t descent, g.Bends ⟨2⟩ ⟨3⟩ t climb descent ∧
        g.trail ⟨2⟩ ⟨3⟩ = .ok (some (crumbs climb t descent)) ∧
        climb ++ t :: descent = [⟨2⟩, ⟨1⟩, ⟨0⟩, ⟨3⟩] := by
  have known : (⟨2⟩ : ComponentKey) ∈ (({} : Graph).grow twoBranches).roster ∧
      (⟨3⟩ : ComponentKey) ∈ (({} : Graph).grow twoBranches).roster := by decide +kernel
  have shortest : ((({} : Graph).grow twoBranches).pathBetween ⟨2⟩ ⟨3⟩).toOption =
      some [⟨2⟩, ⟨1⟩, ⟨0⟩, ⟨3⟩] := by decide +kernel
  obtain ⟨climb, t, descent, bends, searched, found, -⟩ :=
    path_searches_agree twoBranches known.1 known.2
  rw [found] at shortest
  exact ⟨known.1, known.2, climb, t, descent, bends, searched, Option.some.inj shortest⟩

end Schematic.Graph
