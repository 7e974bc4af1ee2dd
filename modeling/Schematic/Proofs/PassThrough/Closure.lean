import Schematic.Proofs.Graph.Enclosure

/-! Why inference closes a binding. A component is crossed when it lies around an end of one kind
and apart from an end of the other kind. Ports that were added at crossed components are new ends
and make new crossings, but only at components that own a port already: between a new end and the
old one that it stems from, each component has one. -/

namespace Schematic

/-- The components that own an output of a binding and those that own an input of it. -/
structure Carriers where
  drives : ComponentKey → Prop
  receives : ComponentKey → Prop

namespace Carriers

def swap (s : Carriers) : Carriers := ⟨s.receives, s.drives⟩

def owns (s : Carriers) (c : ComponentKey) : Prop := s.drives c ∨ s.receives c

def join (s t : Carriers) : Carriers :=
  ⟨fun c => s.drives c ∨ t.drives c, fun c => s.receives c ∨ t.receives c⟩

theorem owns_swap (s : Carriers) (c : ComponentKey) : s.swap.owns c ↔ s.owns c := Or.comm

theorem owns_join (s t : Carriers) (c : ComponentKey) : (s.join t).owns c ↔ s.owns c ∨ t.owns c :=
  or_or_or_comm

end Carriers

namespace Graph

/-- Whether a component lies around a driver, at which it is not, and apart from a receiver. -/
def Parts (g : Graph) (s : Carriers) (c : ComponentKey) : Prop :=
  ∃ a b, s.drives a ∧ s.receives b ∧ g.Encloses c a ∧ c ≠ a ∧ ¬ g.Encloses c b

def Crossed (g : Graph) (s : Carriers) (c : ComponentKey) : Prop := g.Parts s c ∨ g.Parts s.swap c

/-- Whether an output at a component can be traced to where a binding had one first: either there,
or below, with a port of the binding at each component between, and a first receiver apart. -/
def IsTraced (g : Graph) (first : Carriers) (owns : ComponentKey → Prop)
    (c : ComponentKey) : Prop :=
  first.drives c ∨ (∃ b, first.receives b ∧ ¬ g.Encloses c b) ∧
    ∃ a, first.drives a ∧ g.Encloses c a ∧ ∀ m, g.Encloses c m → g.Encloses m a → owns m

/-- The carriers of a binding with ports that stem from the first ones. -/
structure StemsFrom (g : Graph) (now first : Carriers) : Prop where
  drives_of : ∀ c, first.drives c → now.drives c
  receives_of : ∀ c, first.receives c → now.receives c
  drives : ∀ c, now.drives c → g.IsTraced first now.owns c
  receives : ∀ c, now.receives c → g.IsTraced first.swap now.owns c

/-- What one run of inference makes of a binding. -/
structure IsRound (g : Graph) (now later : Carriers) : Prop where
  drives_of : ∀ c, now.drives c → later.drives c
  receives_of : ∀ c, now.receives c → later.receives c
  drives : ∀ c, later.drives c → now.drives c ∨ ¬ now.owns c ∧ g.Parts now c
  receives : ∀ c, later.receives c → now.receives c ∨ ¬ now.owns c ∧ g.Parts now.swap c
  crossed : ∀ c, g.Crossed now c → later.owns c

variable {g h : Graph} {now later first : Carriers} {owns owns' : ComponentKey → Prop}
  {a b c x : ComponentKey}

theorem crossed_swap : g.Crossed first.swap c ↔ g.Crossed first c := Or.comm

theorem IsTraced.mono (h : g.IsTraced first owns c) (more : ∀ m, owns m → owns' m) :
    g.IsTraced first owns' c := by
  rcases h with here | ⟨apart, a, ha, above, between⟩
  · exact .inl here
  · exact .inr ⟨apart, a, ha, above, fun m hm hm' => more m (between m hm hm')⟩

/-- The same additions to the binding and to what it stems from keep a trace. -/
theorem IsTraced.join (h : g.IsTraced first now.owns c) (t : Carriers) :
    g.IsTraced (first.join t) (now.join t).owns c := by
  rcases h with here | ⟨⟨b, hb, apart⟩, a, ha, above, between⟩
  · exact .inl (.inl here)
  · exact .inr ⟨⟨b, .inl hb, apart⟩, a, .inl ha, above, fun m inner outer =>
      (between m inner outer).imp .inl .inl⟩

/-- A trace leads to a first driver, with a port of the binding at each component on the way. -/
theorem IsTraced.source (h : g.IsTraced first owns c) (hc : owns c) (hg : g.Coherent) :
    ∃ a, first.drives a ∧ g.Encloses c a ∧ ∀ m, g.Encloses c m → g.Encloses m a → owns m := by
  rcases h with here | ⟨-, found⟩
  · refine ⟨c, here, .refl c, fun m below above => ?_⟩
    exact hg.encloses_antisymm below above ▸ hc
  · exact found

namespace StemsFrom

theorem refl (g : Graph) (s : Carriers) : g.StemsFrom s s where
  drives_of := fun _ => id
  receives_of := fun _ => id
  drives := fun _ h => .inl h
  receives := fun _ h => .inl h

theorem swap (h : g.StemsFrom now first) : g.StemsFrom now.swap first.swap where
  drives_of := h.receives_of
  receives_of := h.drives_of
  drives := fun c hc => (h.receives c hc).mono fun m => (now.owns_swap m).mpr
  receives := fun c hc => (h.drives c hc).mono fun m => (now.owns_swap m).mpr

theorem join (h : g.StemsFrom now first) (t : Carriers) :
    g.StemsFrom (now.join t) (first.join t) where
  drives_of := fun c hc => hc.imp_left (h.drives_of c)
  receives_of := fun c hc => hc.imp_left (h.receives_of c)
  drives := by
    rintro c (old | new)
    · exact (h.drives c old).join t
    · exact .inl (.inr new)
  receives := by
    rintro c (old | new)
    · exact ((h.swap.drives c old).join t.swap).mono fun m => ((now.join t).owns_swap m).mp
    · exact .inl (.inr new)

theorem congr (s : g.StemsFrom now first) (same : h.Encloses = g.Encloses) :
    h.StemsFrom now first where
  drives_of := s.drives_of
  receives_of := s.receives_of
  drives := by
    simp only [IsTraced, same]
    exact s.drives
  receives := by
    simp only [IsTraced, same]
    exact s.receives

theorem parts_of (h : g.StemsFrom now first) (parts : g.Parts first c) : g.Parts now c := by
  obtain ⟨a, b, ha, hb, rest⟩ := parts
  exact ⟨a, b, h.drives_of a ha, h.receives_of b hb, rest⟩

theorem crossed_of (h : g.StemsFrom now first) (crossed : g.Crossed first c) : g.Crossed now c :=
  crossed.imp h.parts_of h.swap.parts_of

/-- A first receiver can be found apart from whatever was apart from a later one and owns no port.
-/
theorem receiver_apart (h : g.StemsFrom now first) (hg : g.Coherent) (hb : now.receives b)
    (apart : ¬ g.Encloses x b) (free : ¬ now.owns x) :
    ∃ b', first.receives b' ∧ ¬ g.Encloses x b' := by
  obtain ⟨b', hb', below, between⟩ := (h.receives b hb).source (.inr hb) hg
  refine ⟨b', hb', fun above => free ?_⟩
  rcases hg.encloses_total above below with outside | inside
  · exact absurd outside apart
  · exact between x inside above

theorem parts (h : g.StemsFrom now first) (hg : g.Coherent) (parts : g.Parts now x)
    (free : ¬ now.owns x) : g.Parts first x := by
  obtain ⟨a, b, ha, hb, above, other, apart⟩ := parts
  obtain ⟨a', ha', below, -⟩ := (h.drives a ha).source (.inl ha) hg
  obtain ⟨b', hb', apart'⟩ := h.receiver_apart hg hb apart free
  refine ⟨a', b', ha', hb', above.trans below, ?_, apart'⟩
  rintro rfl
  exact other (hg.encloses_antisymm above below)

theorem crossed (h : g.StemsFrom now first) (hg : g.Coherent) (crossed : g.Crossed now x)
    (free : ¬ now.owns x) : g.Crossed first x := by
  rcases crossed with forth | back
  · exact .inl (h.parts hg forth free)
  · exact .inr (h.swap.parts hg back fun own => free ((now.owns_swap x).mp own))

theorem owns_of (h : g.StemsFrom now first) (own : first.owns c) : now.owns c :=
  own.imp (h.drives_of c) (h.receives_of c)

theorem drives_or_parts (h : g.StemsFrom now first) (hc : now.drives c) :
    first.drives c ∨ g.Parts first c := by
  rcases h.drives c hc with here | ⟨⟨b, hb, apart⟩, a, ha, above, -⟩
  · exact .inl here
  · by_cases same : c = a
    · exact .inl (same ▸ ha)
    · exact .inr ⟨a, b, ha, hb, above, same, apart⟩

theorem owns_or_crossed (h : g.StemsFrom now first) (own : now.owns c) :
    first.owns c ∨ g.Crossed first c := by
  rcases own with driver | receiver
  · exact (h.drives_or_parts driver).imp .inl .inl
  · exact (h.swap.drives_or_parts receiver).imp .inr .inr

end StemsFrom

namespace IsRound

theorem swap (h : g.IsRound now later) : g.IsRound now.swap later.swap where
  drives_of := h.receives_of
  receives_of := h.drives_of
  drives := fun c hc => (h.receives c hc).imp_right fun new =>
    ⟨fun own => new.1 ((now.owns_swap c).mp own), new.2⟩
  receives := fun c hc => (h.drives c hc).imp_right fun new =>
    ⟨fun own => new.1 ((now.owns_swap c).mp own), new.2⟩
  crossed := fun c hc => (later.owns_swap c).mpr (h.crossed c (crossed_swap.mp hc))

theorem owns_of (h : g.IsRound now later) (own : now.owns c) : later.owns c :=
  own.imp (h.drives_of c) (h.receives_of c)

theorem traced (h : g.IsRound now later) (hs : g.StemsFrom now first) (hg : g.Coherent)
    (hc : later.drives c) : g.IsTraced first later.owns c := by
  rcases h.drives c hc with old | ⟨free, a, b, ha, hb, above, other, apart⟩
  · exact (hs.drives c old).mono fun m => h.owns_of
  · obtain ⟨a', ha', below, between⟩ := (hs.drives a ha).source (.inl ha) hg
    refine .inr ⟨hs.receiver_apart hg hb apart free, a', ha', above.trans below, ?_⟩
    intro m inner outer
    -- below the driver of the new port the old trace applies, above it the way was crossed
    rcases hg.encloses_total outer below with outside | inside
    · by_cases same : m = a
      · exact h.owns_of (.inl (same ▸ ha))
      · exact h.crossed m (.inl ⟨a, b, ha, hb, outside, same, fun hm => apart (inner.trans hm)⟩)
    · exact h.owns_of (between m inside outer)

theorem stemsFrom (h : g.IsRound now later) (hs : g.StemsFrom now first) (hg : g.Coherent) :
    g.StemsFrom later first where
  drives_of := fun c hc => h.drives_of c (hs.drives_of c hc)
  receives_of := fun c hc => h.receives_of c (hs.receives_of c hc)
  drives := fun _ hc => h.traced hs hg hc
  receives := fun _ hc => (h.swap.traced hs.swap hg hc).mono fun m => (later.owns_swap m).mp

/-- After a run, each component owns a port if the first ports cross it or are there. -/
theorem owns_iff (h : g.IsRound now later) (hs : g.StemsFrom now first) (hg : g.Coherent) :
    later.owns c ↔ first.owns c ∨ g.Crossed first c := by
  constructor
  · exact (h.stemsFrom hs hg).owns_or_crossed
  · rintro (own | crossed)
    · exact h.owns_of (hs.owns_of own)
    · exact h.crossed c (hs.crossed_of crossed)

theorem closed (h : g.IsRound now later) (hg : g.Coherent) (crossed : g.Crossed later c) :
    later.owns c := by
  by_contra free
  have stems := h.stemsFrom (.refl g now) hg
  exact free (h.crossed c (stems.crossed hg crossed free))

end IsRound

end Graph

end Schematic
