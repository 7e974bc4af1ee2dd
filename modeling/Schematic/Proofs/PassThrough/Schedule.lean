import Schematic.Proofs.PassThrough.History

/-! It does not matter when inference runs. A graph on which it ran between the additions has the
tree of the graph without these runs, and its extra ports stem from the ports that were added, so
that a last run brings both to the same bindings. -/

namespace Schematic.Graph

/-- A graph without runs of inference, and one with them after the same additions. -/
structure Twin (g h : Graph) : Prop where
  left : g.Sound
  right : h.Sound
  root : h.register.root = g.register.root
  roster : h.roster = g.roster
  fresh : h.freshComponent = g.freshComponent
  childrenOf : ∀ k ∈ g.roster, h.childrenOf k = g.childrenOf k
  stems : ∀ μ ≠ .null, g.StemsFrom (h.carriers μ) (g.carriers μ)
  unbound : ∀ k, (h.carriers .null).owns k ↔ (g.carriers .null).owns k

variable {g h : Graph} {a : Addition} {c k m owner : ComponentKey} {facts : PortFacts} {μ : Meaning}
  {first now : Carriers}

theorem twin_refl (hg : g.Sound) : g.Twin g where
  left := hg
  right := hg
  root := rfl
  roster := rfl
  fresh := rfl
  childrenOf := fun _ _ => rfl
  stems := fun μ _ => .refl g (g.carriers μ)
  unbound := fun _ => Iff.rfl

section Port

def portCarriers (owner : ComponentKey) (facts : PortFacts) (μ : Meaning) : Carriers where
  drives k := k = owner ∧ facts.direction = .output ∧ facts.identity.meaning = μ
  receives k := k = owner ∧ facts.direction = .input ∧ facts.identity.meaning = μ

theorem carriers_insertPort (hg : g.Coherent) (ho : owner ∈ g.roster) :
    (g.insertPort owner facts).2.carriers μ = (g.carriers μ).join (portCarriers owner facts μ) := by
  have split (k : ComponentKey) (P : PortFacts → Prop) : (k ∈ (g.insertPort owner facts).2.roster ∧
      ∃ f ∈ (g.insertPort owner facts).2.factsOf k, P f) ↔
        (k ∈ g.roster ∧ ∃ f ∈ g.factsOf k, P f) ∨ k = owner ∧ P facts.kept := by
    rw [roster_insertPort]
    by_cases hk : k ∈ g.roster
    · simp only [hk, true_and, factsOf_insertPort hg ho hk, List.mem_append, or_and_right,
        exists_or]
      by_cases same : k = owner <;> simp [same]
    · have other : k ≠ owner := fun same => hk (same ▸ ho)
      simp [hk, other]
  simp only [carriers, split]
  rfl

end Port

section Component

variable {name basename typeName : Value} {parent : Option ComponentKey}

theorem isParent_insertComponent (hg : g.Coherent) (host : g.CanHost parent) (hc : c ∈ g.roster) :
    (g.insertComponent name basename typeName parent).2.IsParent k c ↔ g.IsParent k c := by
  rw [IsParent, child_insertComponent hg.toNumbered host]
  exact or_iff_left fun new => hg.ne_fresh hc new.2

theorem encloses_insertComponent (hg : g.Coherent) (host : g.CanHost parent) (hc : c ∈ g.roster) :
    (g.insertComponent name basename typeName parent).2.Encloses k c ↔ g.Encloses k c := by
  constructor
  · intro above
    induction above using Relation.ReflTransGen.head_induction_on with
    | refl => exact .refl c
    | head step _ ih =>
      exact ((isParent_insertComponent hg host (ih.mem hc)).mp step).encloses.trans ih
  · intro above
    induction above using Relation.ReflTransGen.head_induction_on with
    | refl => exact .refl c
    | head step _ ih =>
      have old : g.IsParent _ _ := step
      exact ((isParent_insertComponent hg host (hg.child_mem old)).mpr old).encloses.trans ih

theorem carriers_insertComponent (hg : g.Coherent) (host : g.CanHost parent) :
    (g.insertComponent name basename typeName parent).2.carriers μ = g.carriers μ := by
  have split (k : ComponentKey) (P : PortFacts → Prop) :
      (k ∈ (g.insertComponent name basename typeName parent).2.roster ∧
        ∃ f ∈ (g.insertComponent name basename typeName parent).2.factsOf k, P f) ↔
      (k ∈ g.roster ∧ ∃ f ∈ g.factsOf k, P f) := by
    constructor
    · rintro ⟨hk, f, hf, holds⟩
      obtain ⟨old, known⟩ := mem_factsOf_insertComponent hg host hk hf
      exact ⟨old, f, known, holds⟩
    · rintro ⟨hk, f, hf, holds⟩
      have later : k ∈ (g.insertComponent name basename typeName parent).2.roster :=
        mem_roster_insertComponent.mpr (.inl hk)
      refine ⟨later, f, ?_, holds⟩
      rwa [factsOf_insertComponent hg host k later, if_neg (hg.ne_fresh hk)]
  simp only [carriers, split]

theorem IsTraced.insertComponent (h : g.IsTraced first now.owns c) (hg : g.Coherent)
    (host : g.CanHost parent) (inside : ∀ m, first.owns m → m ∈ g.roster) :
    (g.insertComponent name basename typeName parent).2.IsTraced first now.owns c := by
  rcases h with here | ⟨⟨b, hb, apart⟩, a, ha, above, between⟩
  · exact .inl here
  · have hb' := inside b (.inr hb)
    have ha' := inside a (.inl ha)
    refine .inr ⟨⟨b, hb, fun covers => apart ((encloses_insertComponent hg host hb').mp covers)⟩, a,
      ha, (encloses_insertComponent hg host ha').mpr above, fun m inner outer => ?_⟩
    have old := (encloses_insertComponent hg host ha').mp outer
    exact between m ((encloses_insertComponent hg host (old.mem ha')).mp inner) old

theorem StemsFrom.insertComponent (s : g.StemsFrom now first) (hg : g.Coherent)
    (host : g.CanHost parent) (inside : ∀ m, first.owns m → m ∈ g.roster) :
    (g.insertComponent name basename typeName parent).2.StemsFrom now first where
  drives_of := s.drives_of
  receives_of := s.receives_of
  drives := fun c hc => (s.drives c hc).insertComponent hg host inside
  receives := fun c hc => (s.receives c hc).insertComponent hg host fun m own =>
    inside m ((first.owns_swap m).mp own)

end Component

namespace Twin

theorem suits_iff (t : g.Twin h) : a.Suits h ↔ a.Suits g := by
  cases a with
  | component name basename typeName parent =>
    cases parent with
    | none => simp only [Addition.Suits, CanHost, t.root]
    | some p => simp only [Addition.Suits, CanHost, t.roster]
  | port owner facts => simp only [Addition.Suits, t.roster]

theorem encloses (t : g.Twin h) : h.Encloses = g.Encloses := by
  have step : h.IsParent = g.IsParent := by
    funext p c
    simp only [IsParent, t.roster]
    exact propext (and_congr_right fun hp => by rw [t.childrenOf p hp])
  rw [Encloses, step, Encloses]

theorem insertPort (t : g.Twin h) (ho : owner ∈ g.roster)
    (ordinary : (Addition.port owner facts).IsOrdinary) :
    (g.insertPort owner facts).2.Twin (h.insertPort owner facts).2 := by
  have ho' : owner ∈ h.roster := t.roster ▸ ho
  have e : g.Extends (g.insertPort owner facts).2 := .insertPort (t.left.coherent.index_lt ho) facts
  constructor
  · exact t.left.done (a := .port owner facts) ho ordinary
  · exact t.right.done (a := .port owner facts) ho' ordinary
  · exact t.root
  · rw [roster_insertPort, roster_insertPort, t.roster]
  · simpa [freshComponent] using t.fresh
  · intro k hk
    rw [childrenOf_insertPort, childrenOf_insertPort]
    exact t.childrenOf k hk
  · intro μ bound
    rw [carriers_insertPort t.left.coherent ho, carriers_insertPort t.right.coherent ho']
    exact ((t.stems μ bound).join (portCarriers owner facts μ)).congr e.encloses
  · intro k
    rw [carriers_insertPort t.left.coherent ho, carriers_insertPort t.right.coherent ho',
      Carriers.owns_join, Carriers.owns_join, t.unbound k]

theorem insertComponent (t : g.Twin h) {name basename typeName : Value}
    {parent : Option ComponentKey} (host : g.CanHost parent) (ordinary : name.isWritable = true) :
    (g.insertComponent name basename typeName parent).2.Twin
      (h.insertComponent name basename typeName parent).2 := by
  have host' : h.CanHost parent :=
    t.suits_iff (a := .component name basename typeName parent) |>.mpr host
  have old (k : ComponentKey) : k ∈ (g.insertComponent name basename typeName parent).2.roster →
      k ∈ g.roster ∨ k = g.freshComponent := mem_roster_insertComponent.mp
  constructor
  · exact t.left.done (a := .component name basename typeName parent) host ordinary
  · exact t.right.done (a := .component name basename typeName parent) host' ordinary
  · rw [root_insertComponent, root_insertComponent, t.root, t.fresh]
  · rw [roster_insertComponent, roster_insertComponent, t.roster, t.fresh]
  · have sizes : h.arena.components.size = g.arena.components.size :=
      congrArg ComponentKey.index t.fresh
    simp [freshComponent, sizes]
  · intro k hk
    rcases old k hk with hk | rfl
    · rw [childrenOf_insertComponent t.left.coherent.toNumbered hk,
        childrenOf_insertComponent t.right.coherent.toNumbered (t.roster ▸ hk), t.childrenOf k hk,
        t.fresh]
    · rw [childrenOf_new host t.left.coherent.toNumbered, ← t.fresh,
        childrenOf_new host' t.right.coherent.toNumbered]
  · intro μ bound
    rw [carriers_insertComponent t.left.coherent host,
      carriers_insertComponent t.right.coherent host']
    refine (t.stems μ bound).insertComponent t.left.coherent host fun m own => ?_
    exact (carriers_owns.mp own).1
  · intro k
    rw [carriers_insertComponent t.left.coherent host,
      carriers_insertComponent t.right.coherent host',
      t.unbound k]

theorem perform (t : g.Twin h) (ordinary : a.IsOrdinary) :
    ((a.perform.on g).state).Twin (a.perform.on h).state := by
  by_cases suits : a.Suits g
  · rw [state_perform t.left.coherent suits,
      state_perform t.right.coherent (t.suits_iff.mpr suits)]
    cases a with
    | component name basename typeName parent => exact t.insertComponent suits ordinary
    | port owner facts => exact t.insertPort suits ordinary
  · rw [state_perform_of_refused t.left.coherent suits,
      state_perform_of_refused t.right.coherent fun s => suits (t.suits_iff.mp s)]
    exact t

theorem infer (t : g.Twin h) {i : Graph} {added : List Demand} (run : h.Inferred i added) :
    g.Twin i where
  left := t.left
  right := ⟨run.follows.coherent, run.ordinary⟩
  root := run.follows.root.trans t.root
  roster := run.follows.roster.trans t.roster
  fresh := by
    rw [← t.fresh, freshComponent, run.follows.componentCount, freshComponent]
  childrenOf := fun k hk => (run.follows.childrenOf k).trans (t.childrenOf k hk)
  stems := by
    intro μ bound
    refine StemsFrom.congr ?_ t.encloses.symm
    exact (run.isRound μ bound).stemsFrom ((t.stems μ bound).congr t.encloses) t.right.coherent
  unbound := by
    intro k
    rw [← t.unbound k, carriers_owns, carriers_owns, run.follows.roster, run.inserted]
    exact and_congr_right fun hk => owns_null_insertAll t.right.coherent run.fits hk

theorem after (t : g.Twin h) {calls : List Call} (ordinary : ∀ call ∈ calls, call.IsOrdinary) :
    (g.grow (calls.filterMap Call.addition?)).Twin (h.after calls) := by
  induction calls generalizing g h with
  | nil => exact t
  | cons call calls ih =>
    have rest : ∀ call ∈ calls, call.IsOrdinary := fun c hc =>
      ordinary c (List.mem_cons_of_mem _ hc)
    cases call with
    | add a => exact ih (t.perform (ordinary (.add a) List.mem_cons_self)) rest
    | infer =>
      obtain ⟨i, added, run, -⟩ := t.right.exists_inferred
      have step : h.after (.infer :: calls) = i.after calls := by
        rw [Graph.after, List.foldl_cons, run.state_infer, Graph.after]
      rw [step]
      exact ih (t.infer run) rest

theorem owns_iff (t : g.Twin h) {g' h' : Graph} {added added' : List Demand}
    (run : g.Inferred g' added) (run' : h.Inferred h' added') (k : ComponentKey) (μ : Meaning) :
    (h'.carriers μ).owns k ↔ (g'.carriers μ).owns k := by
  by_cases null : μ = .null
  · subst null
    rw [(t.infer run').unbound k, ((twin_refl t.left).infer run).unbound k]
  · have stems := (t.stems μ null).congr t.encloses
    rw [(run'.isRound μ null).owns_iff stems t.right.coherent,
      (run.isRound μ null).owns_iff (.refl g _) t.left.coherent]
    simp only [Crossed, Parts, t.encloses]

end Twin

theorem Inferred.again {added : List Demand} (run : g.Inferred h added) (hg : g.Sound) :
    h.Inferred h [] := by
  have hh : h.Sound := ⟨run.follows.coherent, run.ordinary⟩
  obtain ⟨i, more, second⟩ := exists_inferred hh.coherent hh.ordinary
  have none : more = [] := by
    refine List.eq_nil_iff_forall_not_mem.mpr fun y hy => ?_
    have bound := (second.fits y hy).place_ne_null
    have crossed : h.Crossed (h.carriers y.place.2) y.component :=
      (exists_demand_iff hh.coherent hh.ordinary bound).mp ⟨y, second.supply.mem hy, rfl⟩
    have own := run.closed hg.coherent bound crossed
    exact second.supply.unmet y hy (carriers_owns.mp own).2
  subst none
  have same : i = h := second.inserted
  exact same ▸ second

def Binds (g : Graph) (k : ComponentKey) (identity : Value) : Prop :=
  k ∈ g.components ∧ ∃ q ∈ g.portsOf k, (g.port q).identity.equal identity = true

theorem Sound.binds_iff (hg : g.Sound) {identity : Value} (proper : identity.IsIdentity) :
    g.Binds k identity ↔ (g.carriers identity.meaning).owns k := by
  rw [Binds, hg.coherent.mem_components, carriers_owns]
  refine and_congr_right fun hk => exists_congr fun q => and_congr_right fun hq => ?_
  exact Value.equal_iff (hg.ordinary.identified k hk q hq) proper

/-- Two runs of inference end with the same bindings at the same components, and the first leaves
nothing to infer. -/
structure EndsAlike (early late : Outcome Graph Nat) : Prop where
  early_answers : ∃ n, early.answer = .ok n
  late_answers : ∃ n, late.answer = .ok n
  alike : ∀ k identity, identity.IsIdentity →
    (early.state.Binds k identity ↔ late.state.Binds k identity)
  settled : (addPassThroughs.on early.state).answer = .ok 0
  unchanged : (addPassThroughs.on early.state).state = early.state

/-- Runs of inference between additions make no difference to which component owns a port of which
binding after a last run. -/
theorem inference_is_closure (calls : List Call) (ordinary : ∀ call ∈ calls, call.IsOrdinary) :
    EndsAlike (addPassThroughs.on (({} : Graph).after calls))
      (addPassThroughs.on (({} : Graph).grow (calls.filterMap Call.addition?))) := by
  have twin := (twin_refl sound_empty).after ordinary
  obtain ⟨h, added, run, hh⟩ := twin.right.exists_inferred
  obtain ⟨g, added', run', hg⟩ := twin.left.exists_inferred
  have again := run.again twin.right
  have left : (addPassThroughs.on (({} : Graph).after calls)).state = h := run.state
  have right : (addPassThroughs.on
    (({} : Graph).grow (calls.filterMap Call.addition?))).state = g := run'.state
  constructor
  · exact ⟨_, run.answer⟩
  · exact ⟨_, run'.answer⟩
  · intro k identity proper
    rw [left, right, hh.binds_iff proper, hg.binds_iff proper, twin.owns_iff run' run]
  · rw [left]
    exact again.answer
  · rw [left]
    exact again.state

/-- The additions of two branches, with inference already before the receiver is there. -/
def twoBranchesInferredEarly : List Call :=
  (twoBranches.take 5).map .add ++ Call.infer :: (twoBranches.drop 5).map .add

theorem inference_is_closure_between_branches :
    (∀ call ∈ twoBranchesInferredEarly, call.IsOrdinary) ∧
      EndsAlike (addPassThroughs.on (({} : Graph).after twoBranchesInferredEarly))
        (addPassThroughs.on
          (({} : Graph).grow (twoBranchesInferredEarly.filterMap Call.addition?))) := by
  have ordinary : ∀ call ∈ twoBranchesInferredEarly, call.IsOrdinary := by
    simp [twoBranchesInferredEarly, twoBranches, Call.IsOrdinary, Addition.IsOrdinary,
      Value.IsIdentity, Value.isHashable, Value.isNotANumber]
  exact ⟨ordinary, inference_is_closure twoBranchesInferredEarly ordinary⟩

end Schematic.Graph
