import Schematic.Proofs.PassThrough.Closure
import Schematic.Proofs.PassThrough.Supply

/-! One run of inference, binding by binding. -/

namespace Schematic.Graph

/-- The carriers of the binding with an identity that stands for this. -/
def carriers (g : Graph) (μ : Meaning) : Carriers where
  drives k := k ∈ g.roster ∧ ∃ f ∈ g.factsOf k, f.direction = .output ∧ f.identity.meaning = μ
  receives k := k ∈ g.roster ∧ ∃ f ∈ g.factsOf k, f.direction = .input ∧ f.identity.meaning = μ

variable {g h : Graph} {a b c k : ComponentKey} {d r : PortKey} {μ : Meaning} {crumb : Crumb}
  {x y : Demand} {added : List Demand} {direction : Direction}

theorem carriers_owns : (g.carriers μ).owns k ↔ k ∈ g.roster ∧ g.Owns k μ := by
  simp only [Carriers.owns, carriers, owns_iff, ← and_or_left, ← exists_or, ← or_and_right]
  refine and_congr_right fun _ => exists_congr fun f => and_congr_right fun _ => ?_
  cases f.direction <;> simp

theorem drives_iff : (g.carriers μ).drives a ↔
    a ∈ g.roster ∧ ∃ d ∈ g.portsOf a, (g.port d).isInput = false ∧ g.bond d = μ := by
  have split (p : Port) : p.facts.direction = .output ↔ p.isInput = false := by
    cases h : p.direction <;> simp [Port.facts, Port.isInput, h]
  simp only [carriers, factsOf, List.mem_map, exists_exists_and_eq_and, split]
  rfl

theorem receives_iff : (g.carriers μ).receives b ↔
    b ∈ g.roster ∧ ∃ r ∈ g.portsOf b, (g.port r).isInput = true ∧ g.bond r = μ := by
  have split (p : Port) : p.facts.direction = .input ↔ p.isInput = true := by
    cases h : p.direction <;> simp [Port.facts, Port.isInput, h]
  simp only [carriers, factsOf, List.mem_map, exists_exists_and_eq_and, split]
  rfl

theorem Links.carried (links : g.Links d r a b) :
    (g.carriers (g.bond r)).drives a ∧ (g.carriers (g.bond r)).receives b :=
  ⟨drives_iff.mpr ⟨links.start, d, links.drives, links.output, links.bond⟩,
    receives_iff.mpr ⟨links.goal, r, links.receives, links.input, rfl⟩⟩

theorem exists_links (hg : g.Coherent) (bound : μ ≠ .null) (ha : (g.carriers μ).drives a)
    (hb : (g.carriers μ).receives b) : ∃ d r, g.Links d r a b ∧ g.bond r = μ := by
  obtain ⟨start, d, hd, output, driver⟩ := drives_iff.mp ha
  obtain ⟨goal, r, hr, input, receiver⟩ := receives_iff.mp hb
  refine ⟨d, r, ⟨⟨?_, ?_, output, input, receiver ▸ bound, driver.trans receiver.symm⟩, start, goal,
    hd, hr⟩, receiver⟩
  · exact hg.mem_ports.mpr ⟨a, start, hd⟩
  · exact hg.mem_ports.mpr ⟨b, goal, hr⟩

theorem IsCrossing.not_common (crossing : g.IsCrossing a b crumb) :
    ¬ (g.Encloses crumb.component a ∧ g.Encloses crumb.component b) := by
  obtain ⟨-, -, side⟩ := crossing
  rintro ⟨left, right⟩
  split at side
  · exact side.2 right
  · exact side.2 left

theorem IsCrossing.direction_iff (crossing : g.IsCrossing a b crumb) (d r : PortKey) :
    (g.demandAt d r crumb).facts.direction = direction ↔
      g.Encloses crumb.component (if direction = .output then a else b) := by
  obtain ⟨-, -, side⟩ := crossing
  cases up : crumb.upwards <;> cases direction <;> simp_all [demandAt, Separates]

theorem exists_demand_iff (hg : g.Coherent) (ord : g.Ordinary) (bound : μ ≠ .null) :
    (∃ x ∈ g.demands, x.place = (c, μ)) ↔ g.Crossed (g.carriers μ) c := by
  constructor
  · rintro ⟨x, hx, place⟩
    obtain ⟨d, r, a, b, crumb, links, crossing, rfl⟩ := (mem_demands hg ord).mp hx
    obtain ⟨rfl, rfl⟩ := Prod.mk.inj place
    obtain ⟨ha, hb⟩ := links.carried
    obtain ⟨notStart, notGoal, side⟩ := crossing
    split at side
    · exact .inl ⟨a, b, ha, hb, side.1, notStart, side.2⟩
    · exact .inr ⟨b, a, hb, ha, side.1, notGoal, side.2⟩
  · rintro (⟨a, b, ha, hb, above, other, apart⟩ | ⟨b, a, hb, ha, above, other, apart⟩)
    · obtain ⟨d, r, links, rfl⟩ := exists_links hg bound ha hb
      have crossing : g.IsCrossing a b ⟨c, true⟩ :=
        ⟨other, fun same => apart (same ▸ .refl c), above, apart⟩
      exact ⟨_, (mem_demands hg ord).mpr ⟨d, r, a, b, _, links, crossing, rfl⟩, rfl⟩
    · obtain ⟨d, r, links, rfl⟩ := exists_links hg bound ha hb
      have crossing : g.IsCrossing a b ⟨c, false⟩ :=
        ⟨fun same => apart (same ▸ .refl c), other, above, apart⟩
      exact ⟨_, (mem_demands hg ord).mpr ⟨d, r, a, b, _, links, crossing, rfl⟩, rfl⟩

/-- A demanded port is an output of what is around a driver and apart from a receiver, or the other
way round. -/
theorem parts_of_demand (hg : g.Coherent) (ord : g.Ordinary) (hx : x ∈ g.demands) :
    (x.facts.direction = .output → g.Parts (g.carriers x.place.2) x.component) ∧
      (x.facts.direction = .input → g.Parts (g.carriers x.place.2).swap x.component) := by
  obtain ⟨d, r, a, b, crumb, links, crossing, rfl⟩ := (mem_demands hg ord).mp hx
  obtain ⟨ha, hb⟩ := links.carried
  constructor
  · intro output
    have above : g.Encloses crumb.component a := (crossing.direction_iff d r).mp output
    exact ⟨a, b, ha, hb, above, crossing.1, fun below => crossing.not_common ⟨above, below⟩⟩
  · intro input
    have above : g.Encloses crumb.component b := (crossing.direction_iff d r).mp input
    exact ⟨b, a, hb, ha, above, crossing.2.1, fun below => crossing.not_common ⟨below, above⟩⟩

theorem mem_factsOf_insertAll (hg : g.Coherent) (fit : ∀ x ∈ added, x.Fits g) (hk : k ∈ g.roster)
    {f : PortFacts} : f ∈ (g.insertAll added).factsOf k ↔
      f ∈ g.factsOf k ∨ ∃ y ∈ added, y.component = k ∧ y.facts = f := by
  simp [factsOf_insertAll hg fit hk, and_assoc]

theorem isRound_insertAll (hg : g.Coherent) (ord : g.Ordinary) (bound : μ ≠ .null)
    (supply : g.IsSupply g.demands added) :
    g.IsRound (g.carriers μ) ((g.insertAll added).carriers μ) := by
  have fit := supply.fits (demands_fit hg ord)
  have f := follows_insertAll hg fit
  have free : ∀ y ∈ added, y.facts.identity.meaning = μ → ¬ (g.carriers μ).owns y.component := by
    rintro y hy rfl own
    exact supply.unmet y hy (carriers_owns.mp own).2
  -- the two directions go alike: old ports stay, and new ones are as some demand says
  have kept {direction : Direction} {k : ComponentKey} :
      (k ∈ g.roster ∧ ∃ f ∈ g.factsOf k, f.direction = direction ∧ f.identity.meaning = μ) →
        k ∈ (g.insertAll added).roster ∧ ∃ f ∈ (g.insertAll added).factsOf k,
          f.direction = direction ∧ f.identity.meaning = μ := by
    rintro ⟨hk, facts, hf, rest⟩
    exact ⟨f.roster ▸ hk, facts, (mem_factsOf_insertAll hg fit hk).mpr (.inl hf), rest⟩
  have stems {direction : Direction} {k : ComponentKey} :
      (k ∈ (g.insertAll added).roster ∧ ∃ f ∈ (g.insertAll added).factsOf k,
        f.direction = direction ∧ f.identity.meaning = μ) →
      (k ∈ g.roster ∧ ∃ f ∈ g.factsOf k, f.direction = direction ∧ f.identity.meaning = μ) ∨
        ∃ y ∈ added, y.component = k ∧ y.facts.direction = direction ∧
          y.facts.identity.meaning = μ := by
    rintro ⟨hk, facts, hf, facing, same⟩
    rw [f.roster] at hk
    rcases (mem_factsOf_insertAll hg fit hk).mp hf with old | ⟨y, hy, here, rfl⟩
    · exact .inl ⟨hk, facts, old, facing, same⟩
    · exact .inr ⟨y, hy, here, facing, same⟩
  constructor
  · exact fun k => kept
  · exact fun k => kept
  · intro k drives
    rcases stems drives with old | ⟨y, hy, rfl, output, same⟩
    · exact .inl old
    · exact .inr ⟨free y hy same, same ▸ (parts_of_demand hg ord (supply.mem hy)).1 output⟩
  · intro k receives
    rcases stems receives with old | ⟨y, hy, rfl, input, same⟩
    · exact .inl old
    · exact .inr ⟨free y hy same, same ▸ (parts_of_demand hg ord (supply.mem hy)).2 input⟩
  · intro k crossed
    obtain ⟨x, hx, place⟩ := (exists_demand_iff hg ord bound).mpr crossed
    have hk : k ∈ g.roster := (Prod.mk.inj place).1 ▸ (ord.canPass hg).demands_inside hg x hx
    refine carriers_owns.mpr ⟨f.roster ▸ hk, owns_iff.mpr ?_⟩
    rcases supply.complete x hx with met | ⟨y, hy, same⟩
    · obtain ⟨facts, hf, known⟩ := owns_iff.mp (place ▸ met)
      exact ⟨facts, (mem_factsOf_insertAll hg fit hk).mpr (.inl hf), known⟩
    · obtain ⟨here, known⟩ := Prod.mk.inj (same.trans place)
      exact ⟨y.facts, (mem_factsOf_insertAll hg fit hk).mpr (.inr ⟨y, hy, here, rfl⟩), known⟩

theorem owns_null_insertAll (hg : g.Coherent) (fit : ∀ x ∈ added, x.Fits g) (hk : k ∈ g.roster) :
    (g.insertAll added).Owns k .null ↔ g.Owns k .null := by
  simp only [owns_iff, mem_factsOf_insertAll hg fit hk]
  constructor
  · rintro ⟨f, old | ⟨y, hy, -, rfl⟩, null⟩
    · exact ⟨f, old, null⟩
    · have bound := (fit y hy).bound
      rw [(Value.isNull_iff (fit y hy).proper.1).mpr null] at bound
      cases bound
  · rintro ⟨f, hf, null⟩
    exact ⟨f, .inl hf, null⟩

structure Inferred (g h : Graph) (added : List Demand) : Prop where
  answer : (addPassThroughs g).answer = .ok added.length
  state : (addPassThroughs g).state = h
  inserted : h = g.insertAll added
  supply : g.IsSupply g.demands added
  fits : ∀ y ∈ added, y.Fits g
  follows : g.Follows h
  ordinary : h.Ordinary
  isRound : ∀ μ ≠ .null, g.IsRound (g.carriers μ) (h.carriers μ)

theorem exists_inferred (hg : g.Coherent) (ord : g.Ordinary) : ∃ h added, g.Inferred h added := by
  obtain ⟨added, answer, state, supply⟩ := addPassThroughs_eq hg ord
  have fit := supply.fits (demands_fit hg ord)
  exact ⟨g.insertAll added, added, answer, state, rfl, supply, fit, follows_insertAll hg fit,
    ordinary_insertAll hg ord fit, fun μ bound => isRound_insertAll hg ord bound supply⟩

namespace Inferred

theorem closed (run : g.Inferred h added) (hg : g.Coherent) (bound : μ ≠ .null)
    (crossed : h.Crossed (h.carriers μ) c) : (h.carriers μ).owns c := by
  refine (run.isRound μ bound).closed hg ?_
  rwa [Crossed, Parts, Parts, run.follows.encloses] at crossed

end Inferred

end Schematic.Graph
