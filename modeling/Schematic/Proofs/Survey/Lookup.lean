import Schematic.Proofs.Survey.Address
import Schematic.Proofs.Survey.Naming

/-! Names as keys. Where the objects at one place have distinct basenames without dots, the name of
a component is the path of basenames that leads to it. Two paths are never joined to one name, so
a component is found by its name. -/

namespace Schematic

namespace Text

variable {b : Text} {bs cs : List Text}

theorem intercalate_nonempty (segment : b.IsSegment) (bs : List Text) :
    (intercalate "." (b :: bs)).isEmpty = false := by
  have first : b.points ≠ [] := fun nothing => by
    have empty := segment.nonempty
    rw [isEmpty, nothing] at empty
    cases empty
  cases bs with
  | nil => simpa [intercalate, isEmpty] using first
  | cons c cs => simp [intercalate, isEmpty]

/-- A path goes on behind a dot, but for its first part. -/
theorem intercalate_concat (segments : ∀ s ∈ bs, s.IsSegment) (b : Text) :
    intercalate "." (bs ++ [b]) = (intercalate "." bs).dot b := by
  cases bs with
  | nil => simp [intercalate, dot, isEmpty]
  | cons s bs =>
    simp only [List.forall_mem_cons] at segments
    rw [dot_of_nonempty (intercalate_nonempty segments.1 bs)]
    apply ext
    clear segments
    induction bs generalizing s with
    | nil => simp [intercalate]
    | cons s' bs ih =>
      have later := ih s'
      simp only [intercalate, List.cons_append, List.map_cons, points_append,
        List.intercalate_cons_cons, List.append_assoc] at later ⊢
      rw [later]

/-- Different paths are joined to different names. -/
theorem intercalate_inj (hbs : ∀ s ∈ bs, s.IsSegment) (hcs : ∀ s ∈ cs, s.IsSegment)
    (same : intercalate "." bs = intercalate "." cs) : bs = cs := by
  -- from the end, since a name falls apart at its last dot
  induction bs using List.reverseRecOn generalizing cs with
  | nil =>
    cases cs with
    | nil => rfl
    | cons c cs =>
      have nonempty := intercalate_nonempty (hcs c List.mem_cons_self) cs
      rw [← same] at nonempty
      cases nonempty
  | append_singleton bs b ih =>
    rw [List.forall_mem_append, List.forall_mem_singleton] at hbs
    rw [intercalate_concat hbs.1] at same
    cases cs using List.reverseRecOn with
    | nil =>
      have nonempty := hbs.2.dot_nonempty (intercalate "." bs)
      rw [same] at nonempty
      cases nonempty
    | append_singleton cs c =>
      rw [List.forall_mem_append, List.forall_mem_singleton] at hcs
      rw [intercalate_concat hcs.1] at same
      obtain ⟨above, rfl⟩ := dot_inj hbs.2 hcs.2 same
      rw [ih hbs.1 hcs.1 above]

end Text

namespace SimObject

/-- Objects without names of their own choice that can be told apart by their basenames wherever
they are side by side. -/
inductive AreDistinct : List SimObject → Prop where
  | mk {os : List SimObject} (here : ObjectFacts.AreApart (os.map facts))
      (inner : ∀ o ∈ os, AreDistinct o.children) : AreDistinct os

/-- Whether basenames lead from the top of a forest down, each to an object inside the one
before. -/
def HasPath : List SimObject → List Text → Prop
  | _, [] => True
  | os, b :: bs => ∃ o ∈ os, o.facts.basename = .text b ∧ HasPath o.children bs

end SimObject

open SimObject

/-- A component that comes of one of some objects below a path: it is named by the path and by its
basename, and so is what is below it by the longer path. -/
inductive Sketch.ComesOf : List SimObject → List Text → Sketch → Prop where
  | unit {os : List SimObject} {o : SimObject} {path : List Text} {b : Text} {label : Label}
      {ports : List Graph.PortFacts} {below : List Sketch} (listed : o ∈ os)
      (segment : b.IsSegment) (reported : o.facts.basename = .text b)
      (basename : label.basename = .text b)
      (name : label.name = .text (.intercalate "." (path ++ [b])))
      (inner : ∀ t ∈ below, ComesOf o.children (path ++ [b]) t)
      (beside : (below.map fun t => t.label.basename).Nodup) :
      ComesOf os path (.unit label ports below)

theorem Sketch.ComesOf.mono {os os' : List SimObject} {path : List Text} {t : Sketch}
    (comes : t.ComesOf os path) (more : os ⊆ os') : t.ComesOf os' path := by
  cases comes with
  | unit listed segment reported basename name inner beside =>
    exact .unit (more listed) segment reported basename name inner beside

/-- Components that come of objects below a path, each of another one and in their order. -/
structure Places (os : List SimObject) (path : List Text) (below : List Sketch) : Prop where
  units : ∀ t ∈ below, t.ComesOf os path
  basenames : (below.map fun t => t.label.basename).Sublist (os.map fun o => o.facts.basename)

namespace Places

variable {os os' : List SimObject} {path : List Text} {below below' : List Sketch}

theorem nothing (os : List SimObject) (path : List Text) : Places os path [] :=
  ⟨List.forall_mem_nil _, List.nil_sublist _⟩

theorem append (first : Places os path below) (rest : Places os' path below') :
    Places (os ++ os') path (below ++ below') where
  units := List.forall_mem_append.mpr
    ⟨fun t ht => (first.units t ht).mono (List.subset_append_left _ _),
      fun t ht => (rest.units t ht).mono (List.subset_append_right _ _)⟩
  basenames := by
    rw [List.map_append, List.map_append]
    exact first.basenames.append rest.basenames

end Places

namespace SimObject

variable {path : List Text}

theorem AreDistinct.plain {os : List SimObject} (apart : AreDistinct os) :
    ∀ o ∈ os, o.facts.IsPlain ∧ AreDistinct o.children := by
  cases apart with
  | mk here inner => exact fun o ho => ⟨here.plain _ (List.mem_map_of_mem ho), inner o ho⟩

/-- A component with a path for its name, made of an object with all inside it in order. -/
theorem places_unit {o : SimObject} {b : Text} {label : Label} {made : List Graph.PortFacts}
    {below : List Sketch} (segment : b.IsSegment) (reported : o.facts.basename = .text b)
    (basename : label.basename = .text b)
    (name : label.name = .text (.intercalate "." (path ++ [b])))
    (apart : AreDistinct o.children) (inside : Places o.children (path ++ [b]) below) :
    Places [o] path [.unit label made below] where
  units := by
    cases apart with
    | mk here inner =>
      have distinct := here.distinct
      rw [List.map_map] at distinct
      refine List.forall_mem_singleton.mpr (.unit List.mem_cons_self segment reported basename name
        inside.units (inside.basenames.nodup distinct))
  basenames := by
    have same : label.basename = o.facts.basename := basename.trans reported.symm
    simp only [List.map_cons, List.map_nil, Sketch.label, same, List.Sublist.refl]

mutual

theorem places_draws : ∀ (o : SimObject) (path : List Text) (made : List Graph.PortFacts)
    (below : List Sketch), (∀ s ∈ path, s.IsSegment) → o.facts.IsPlain → AreDistinct o.children →
      Draws (named (.text (.intercalate "." path)) o) made below → Places [o] path below
  | mk facts children faces, path, made, below, segments, plain, apart, drawn => by
    have plain : facts.IsPlain := plain
    obtain ⟨b, segment, basename⟩ := plain.basename
    have name := name_nameFacts (.intercalate "." path) plain basename
    have titled := basename_nameFacts (.text (.intercalate "." path)) facts
    rw [← Text.intercalate_concat segments] at name
    rw [named] at drawn
    cases drawn with
    | passed | port _ | socket _ => exact .nothing _ _
    | module _ _ inner =>
      rw [name] at inner
      have longer : ∀ s ∈ path ++ [b], s.IsSegment :=
        List.forall_mem_append.mpr ⟨segments, List.forall_mem_singleton.mpr segment⟩
      have inside := places_drawsAmong children (path ++ [b]) _ _ longer apart.plain inner
      exact places_unit segment basename (titled.trans basename) name apart inside
    | clock _ =>
      exact places_unit segment basename (titled.trans basename) name apart (.nothing _ _)

theorem places_drawsAmong : ∀ (os : List SimObject) (path : List Text)
    (made : List Graph.PortFacts) (below : List Sketch), (∀ s ∈ path, s.IsSegment) →
      (∀ o ∈ os, o.facts.IsPlain ∧ AreDistinct o.children) →
      DrawsAmong (namedAll (.text (.intercalate "." path)) os) made below → Places os path below
  | [], path, made, below, _, _, drawn => by
    cases drawn
    exact .nothing [] path
  | o :: os, path, made, below, segments, plain, drawn => by
    rw [List.forall_mem_cons] at plain
    rw [namedAll] at drawn
    cases drawn with
    | cons first rest =>
      exact (places_draws o path _ _ segments plain.1.1 plain.1.2 first).append
        (places_drawsAmong os path _ _ segments plain.2 rest)

end

end SimObject

namespace SimObject

theorem HasPath.segments {os : List SimObject} {bs : List Text} (apart : AreDistinct os)
    (found : HasPath os bs) : ∀ b ∈ bs, b.IsSegment := by
  induction bs generalizing os with
  | nil => exact List.forall_mem_nil _
  | cons b bs ih =>
    obtain ⟨o, ho, reported, rest⟩ := found
    obtain ⟨⟨-, b', segment, reported'⟩, inner⟩ := apart.plain o ho
    cases reported.symm.trans reported'
    exact List.forall_mem_cons.mpr ⟨segment, ih inner rest⟩

end SimObject

namespace Graph

variable {g : Graph} {os : List SimObject} {path : List Text} {c k p r : ComponentKey}
  {ks ls : List ComponentKey}

structure Stems (g : Graph) (os : List SimObject) (path : List Text) (k : ComponentKey) : Prop where
  inner : ∀ c ∈ g.childrenOf k, (g.shown c).ComesOf os path
  beside : ((g.childrenOf k).map fun c => (g.component c).basename).Nodup

theorem stems_of_unit {label : Label} {made : List PortFacts} {below : List Sketch}
    (hg : g.Coherent) (hk : k ∈ g.roster) (shown : g.shown k = .unit label made below)
    (inner : ∀ t ∈ below, t.ComesOf os path)
    (beside : (below.map fun t => t.label.basename).Nodup) : g.Stems os path k := by
  rw [shown_eq hg hk] at shown
  cases shown
  rw [List.forall_mem_map] at inner
  refine ⟨inner, ?_⟩
  have labels : (g.childrenOf k).map (fun c => (g.component c).basename) =
      ((g.childrenOf k).map g.shown).map fun t => t.label.basename := by
    rw [List.map_map]
    refine List.map_congr_left fun c hc => ?_
    rw [Function.comp_apply, shown_eq hg (hg.child_mem ⟨hk, hc⟩)]
    rfl
  exact labels ▸ beside

/-- Components of which the last one is named by the basenames of all of them, and these lead down
the objects. -/
def NamesPath (g : Graph) (os : List SimObject) (path : List Text) (ks : List ComponentKey) :
    Prop :=
  ∃ bs, HasPath os bs ∧ ks.map (fun k => (g.component k).basename) = bs.map .text ∧
    ∀ c ∈ ks.getLast?, (g.component c).name = .text (.intercalate "." (path ++ bs))

namespace Stems

theorem child (stems : g.Stems os path p) (hg : g.Coherent) (step : g.IsParent p c) :
    ∃ o ∈ os, ∃ b : Text, o.facts.basename = .text b ∧ (g.component c).basename = .text b ∧
      (g.component c).name = .text (.intercalate "." (path ++ [b])) ∧
        g.Stems o.children (path ++ [b]) c := by
  have hc := hg.child_mem step
  have here := stems.inner c step.2
  have shown := shown_eq hg hc
  rw [shown] at here
  cases here with
  | unit listed segment reported basename name inner beside =>
    exact ⟨_, listed, _, reported, basename, name, stems_of_unit hg hc shown inner beside⟩

/-- Each way down names its end. -/
theorem namesPath (stems : g.Stems os path k) (hg : g.Coherent)
    (steps : (k :: ks).IsChain g.IsParent) : g.NamesPath os path ks := by
  induction ks generalizing os path k with
  | nil => exact ⟨[], trivial, rfl, nofun⟩
  | cons c ks ih =>
    obtain ⟨step, steps⟩ := List.isChain_cons_cons.mp steps
    obtain ⟨o, listed, b, reported, basename, name, below⟩ := stems.child hg step
    obtain ⟨bs, found, basenames, last⟩ := ih below steps
    refine ⟨b :: bs, ⟨o, listed, reported, found⟩, ?_, ?_⟩
    · simp only [List.map_cons, basename, basenames]
    · cases ks with
      | nil =>
        cases List.map_eq_nil_iff.mp basenames.symm
        rintro _ ⟨⟩
        exact name
      | cons c' ks =>
        simp only [List.getLast?_cons_cons, List.append_assoc, List.singleton_append] at last ⊢
        exact last

/-- Basenames tell the ways down apart. -/
theorem chain_inj (stems : g.Stems os path k) (hg : g.Coherent)
    (left : (k :: ks).IsChain g.IsParent) (right : (k :: ls).IsChain g.IsParent)
    (same : ks.map (fun k => (g.component k).basename) =
      ls.map fun k => (g.component k).basename) : ks = ls := by
  induction ks generalizing os path k ls with
  | nil => exact (List.map_eq_nil_iff.mp same.symm).symm
  | cons c ks ih =>
    cases ls with
    | nil => cases same
    | cons d ls =>
      obtain ⟨step, left⟩ := List.isChain_cons_cons.mp left
      obtain ⟨step', right⟩ := List.isChain_cons_cons.mp right
      simp only [List.map_cons, List.cons.injEq] at same
      cases List.inj_on_of_nodup_map stems.beside step.2 step'.2 same.1
      obtain ⟨o, -, b, -, -, -, below⟩ := stems.child hg step
      rw [ih below left right same.2]

end Stems

/-- A graph of objects whose components are named by the ways to them. Its root either stands for
the forest, and the ways start below it, or comes of an object at the top like the other
components. -/
def IsNamedBy (g : Graph) (objects : List SimObject) (r : ComponentKey) : Prop :=
  ((g.component r).name = .text Survey.rootName ∧
    ∀ ks, (r :: ks).IsChain g.IsParent → g.NamesPath objects [] ks) ∨
  ∀ ks, (r :: ks).IsChain g.IsParent → g.NamesPath objects [] (r :: ks)

structure IsMapped (g : Graph) (objects : List SimObject) (r : ComponentKey) : Prop where
  root : g.register.root = some r
  named : g.IsNamedBy objects r
  apart : ∀ ks ls, (r :: ks).IsChain g.IsParent → (r :: ls).IsChain g.IsParent →
    ks.map (fun k => (g.component k).basename) = ls.map (fun k => (g.component k).basename) →
      ks = ls

theorem exists_chain (hg : g.Coherent) (root : g.register.root = some r) (hc : c ∈ g.roster) :
    ∃ ks, (r :: ks).IsChain g.IsParent ∧ (r :: ks).getLast? = some c := by
  obtain ⟨ks, steps, last⟩ := List.exists_isChain_cons_of_relationReflTransGen
    (hg.root_encloses root hc)
  exact ⟨ks, steps, List.getLast?_eq_some_getLast (List.cons_ne_nil r ks) ▸ congrArg some last⟩

variable {objects : List SimObject}

/-- A way is named by one path only, and a path leads one way. -/
theorem NamesPath.basenames_eq (distinct : AreDistinct objects)
    (left : g.NamesPath objects [] ks) (right : g.NamesPath objects [] ls)
    {d : ComponentKey} (hc : c ∈ ks.getLast?) (hd : d ∈ ls.getLast?)
    (same : (g.component c).name = (g.component d).name) :
    ks.map (fun k => (g.component k).basename) = ls.map fun k => (g.component k).basename := by
  obtain ⟨bs, found, basenames, name⟩ := left
  obtain ⟨cs, found', basenames', name'⟩ := right
  rw [name c hc, name' d hd, Value.text.injEq, List.nil_append, List.nil_append] at same
  rw [basenames, basenames', Text.intercalate_inj (found.segments distinct)
    (found'.segments distinct) same]

/-- No path is joined to the name of a root that stands for the forest. -/
theorem NamesPath.name_ne (distinct : AreDistinct objects)
    (free : ∀ o ∈ objects, o.facts.basename ≠ .text Survey.rootName)
    (leads : g.NamesPath objects [] ks) (hc : c ∈ ks.getLast?) :
    (g.component c).name ≠ .text Survey.rootName := by
  obtain ⟨bs, found, -, name⟩ := leads
  intro same
  have joined : Text.intercalate "." bs = Text.intercalate "." [Survey.rootName] :=
    Value.text.inj ((name c hc).symm.trans same)
  have single := Text.intercalate_inj (found.segments distinct)
    (List.forall_mem_singleton.mpr (by decide)) joined
  rw [single] at found
  obtain ⟨o, ho, reported, -⟩ := found
  exact free o ho reported

namespace IsMapped

theorem name_inj (mapped : g.IsMapped objects r) (hg : g.Coherent) (distinct : AreDistinct objects)
    (free : ∀ o ∈ objects, o.facts.basename ≠ .text Survey.rootName) {c d : ComponentKey}
    (hc : c ∈ g.roster) (hd : d ∈ g.roster)
    (same : (g.component c).name = (g.component d).name) : c = d := by
  -- a name spells the way from the root, and no two ways are spelled alike
  obtain ⟨ks, left, endsAt⟩ := exists_chain hg mapped.root hc
  obtain ⟨ls, right, endsAt'⟩ := exists_chain hg mapped.root hd
  rcases mapped.named with ⟨top, below⟩ | below
  · have whole := below ks left
    have whole' := below ls right
    cases ks with
    | nil =>
      cases ls with
      | nil => exact Option.some.inj (endsAt.symm.trans endsAt')
      | cons l ls =>
        cases endsAt
        rw [List.getLast?_cons_cons] at endsAt'
        exact absurd (same.symm.trans top) (whole'.name_ne distinct free endsAt')
    | cons k ks =>
      rw [List.getLast?_cons_cons] at endsAt
      cases ls with
      | nil =>
        cases endsAt'
        exact absurd (same.trans top) (whole.name_ne distinct free endsAt)
      | cons l ls =>
        have last := endsAt'
        rw [List.getLast?_cons_cons] at last
        have alike := whole.basenames_eq distinct whole' endsAt last same
        cases mapped.apart _ _ left right alike
        exact Option.some.inj (endsAt.symm.trans last)
  · have alike := (below ks left).basenames_eq distinct (below ls right) endsAt endsAt' same
    cases mapped.apart _ _ left right (List.cons.inj alike).2
    exact Option.some.inj (endsAt.symm.trans endsAt')

/-- All components are called by texts. -/
theorem name_text (mapped : g.IsMapped objects r) (hg : g.Coherent) (hc : c ∈ g.roster) :
    ∃ t : Text, (g.component c).name = .text t := by
  obtain ⟨ks, steps, endsAt⟩ := exists_chain hg mapped.root hc
  rcases mapped.named with ⟨top, below⟩ | below
  · cases ks with
    | nil =>
      cases endsAt
      exact ⟨_, top⟩
    | cons k ks =>
      obtain ⟨bs, -, -, name⟩ := below _ steps
      rw [List.getLast?_cons_cons] at endsAt
      exact ⟨_, name c endsAt⟩
  · obtain ⟨bs, -, -, name⟩ := below ks steps
    exact ⟨_, name c endsAt⟩

theorem find_eq (mapped : g.IsMapped objects r) (hg : g.Coherent) (distinct : AreDistinct objects)
    (free : ∀ o ∈ objects, o.facts.basename ≠ .text Survey.rootName) (hc : c ∈ g.components) :
    g.find (g.component c).name = .ok c := by
  have equal (d : ComponentKey) (hd : d ∈ g.components) :
      (g.component d).name.equal (g.component c).name = true ↔ d = c := by
    rw [hg.mem_components] at hd hc
    obtain ⟨t, name⟩ := mapped.name_text hg hd
    obtain ⟨u, name'⟩ := mapped.name_text hg hc
    have texts : (Value.text t).equal (.text u) = true ↔ t = u := by
      simp only [Value.equal, Value.same, beq_iff_eq]
    rw [name, name', texts]
    constructor
    · intro same
      exact mapped.name_inj hg distinct free hd hc (name.trans (same ▸ name'.symm))
    · rintro rfl
      exact Value.text.inj (name.symm.trans name')
  rw [Graph.find]
  cases first : g.components.find? fun d => (g.component d).name.equal (g.component c).name with
  | none => exact absurd ((equal c hc).mpr rfl) (List.find?_eq_none.mp first c hc)
  | some d =>
    have found := List.find?_some first
    cases (equal d (List.mem_of_find?_eq_some first)).mp found
    rfl

end IsMapped

end Graph

/-- Naming keeps the number of objects. -/
theorem SimObject.exists_only {objects : List SimObject} {top : SimObject}
    (single : nameForest objects = [top]) : ∃ o, objects = [o] := by
  rw [nameForest] at single
  cases objects with
  | nil => cases single
  | cons o rest =>
    cases rest with
    | nil => exact ⟨o, rfl⟩
    | cons o' rest => cases single

/-- A survey of objects that can be told apart names components by the ways to them. -/
theorem Survey.IsDraftOf.isMapped {objects : List SimObject} {s : Survey}
    (draft : s.IsDraftOf (nameForest objects)) (distinct : AreDistinct objects) :
    ∃ r, s.graph.IsMapped objects r := by
  have hg := draft.built.coherent
  obtain ⟨top, made, below, root, drawn, tree⟩ := draft.tree
  rw [Graph.outline, Option.map_map] at tree
  obtain ⟨r, rooted, shown⟩ := Option.map_eq_some_iff.mp tree
  have hr := hg.root_mem rooted
  have label : s.graph.label r = top.label := by
    have same := shown
    rw [Function.comp_apply, ← Graph.shown, Graph.shown_eq hg hr] at same
    exact (Sketch.unit.inj same).1
  have stems {os : List SimObject} {path : List Text} (apart : AreDistinct os)
      (places : Places os path below) : s.graph.Stems os path r := by
    cases apart with
    | mk here inner =>
      have basenames := here.distinct
      rw [List.map_map] at basenames
      exact Graph.stems_of_unit hg hr shown places.units (places.basenames.nodup basenames)
  -- the root was made up for several objects, or it is the only object itself
  rcases root with rfl | single
  · have here := stems distinct (places_drawsAmong objects [] _ _ (List.forall_mem_nil _)
      distinct.plain drawn)
    refine ⟨r, rooted, .inl ⟨congrArg Label.name label, fun ks => here.namesPath hg⟩, ?_⟩
    exact fun ks ls => here.chain_inj hg
  · obtain ⟨⟨facts, children, faces⟩, rfl⟩ := exists_only single
    obtain ⟨plain, inner⟩ := distinct.plain _ List.mem_cons_self
    have plain : facts.IsPlain := plain
    obtain ⟨b, segment, basename⟩ := plain.basename
    rw [nameForest, namedAll, named, namedAll] at single
    cases single
    have joined := Text.intercalate_concat (List.forall_mem_nil _) b
    have name : (nameFacts (.text .empty) facts).name = .text (.intercalate "." [b]) :=
      (name_nameFacts .empty plain basename).trans (congrArg Value.text joined.symm)
    have titled := (basename_nameFacts (.text .empty) facts).trans basename
    rw [SimObject.children, name] at drawn
    have here := stems inner (places_drawsAmong children [b] made _
      (List.forall_mem_singleton.mpr segment) inner.plain drawn)
    refine ⟨r, rooted, .inr fun ks steps => ?_, fun ks ls => here.chain_inj hg⟩
    obtain ⟨bs, found, basenames, last⟩ := here.namesPath hg steps
    have called : (s.graph.component r).basename = .text b :=
      (congrArg Label.basename label).trans titled
    refine ⟨b :: bs, ⟨_, List.mem_cons_self, basename, found⟩, ?_, ?_⟩
    · simp only [List.map_cons, basenames, called]
    · cases ks with
      | nil =>
        cases List.map_eq_nil_iff.mp basenames.symm
        rintro _ ⟨⟩
        exact (congrArg Label.name label).trans name
      | cons k ks => exact last

/-- Names identify components. Take objects that an adapter names itself, with distinct basenames
without dots wherever they are side by side, and none at the top with the name of a root that stands
for the forest. In every survey of them the components have distinct names, and a component is found
by its name. The name of a component is joined by dots from the basenames of the components on the
way to it, which are those of objects on a way down from the top. A root that stands for the forest
has a name of its own and is on no such way. -/
theorem names_identify_components {σ : Type} {survey : Survey} (options : SurveyOptions)
    (objects forest : List SimObject) (distinct : AreDistinct objects)
    (free : ∀ o ∈ objects, o.facts.basename ≠ .text Survey.rootName)
    (named : withNames objects = .ok forest) (s : σ)
    (surveyed : (surveyOf options forest s).answer = .ok survey) :
    let g := survey.graph
    (g.components.map fun c => (g.component c).name).Nodup ∧
    (∀ c ∈ g.components, g.find (g.component c).name = .ok c) ∧
    ∃ r, g.root = .ok r ∧ g.IsNamedBy objects r ∧
      ∀ c ∈ g.components, ∃ ks, (r :: ks).IsChain g.IsParent ∧ (r :: ks).getLast? = some c := by
  obtain rfl := eq_of_withNames named
  have draft := drafts_surveyOf surveyed
  have hg := draft.built.coherent
  obtain ⟨r, mapped⟩ := draft.isMapped distinct
  refine ⟨?_, fun c => mapped.find_eq hg distinct free, r, ?_, mapped.named, ?_⟩
  · refine hg.components_nodup.map_on fun c hc d hd same => ?_
    rw [hg.mem_components] at hc hd
    exact mapped.name_inj hg distinct free hc hd same
  · rw [Graph.root, mapped.root]
  · intro c hc
    rw [hg.mem_components] at hc
    exact Graph.exists_chain hg mapped.root hc

/-- Two modules at the top, with components whose ways repeat a basename. -/
def capturedRepeats : List SimObject :=
  [.module (.text "a") [.module (.text "a") [.module (.text "b") []], .module (.text "b") []],
    .module (.text "b") []]

theorem names_identify_components_for_repeats :
    AreDistinct capturedRepeats ∧
      (∀ o ∈ capturedRepeats, o.facts.basename ≠ .text Survey.rootName) ∧
      ∃ forest survey, withNames capturedRepeats = .ok forest ∧
        (surveyOf ⟨.text "$$$", .list []⟩ forest ()).answer = .ok survey ∧
        survey.graph.components.length = 6 ∧
        (survey.graph.components.map fun c => (survey.graph.component c).name).Nodup ∧
        ∀ c ∈ survey.graph.components,
          survey.graph.find (survey.graph.component c).name = .ok c := by
  have apart {fs : List ObjectFacts} := @ObjectFacts.areApart_of_texts fs
  have nothing : AreDistinct [] := ⟨apart [] rfl rfl (by decide), List.forall_mem_nil _⟩
  have single : AreDistinct [.module (.text "b") []] :=
    ⟨apart ["b"] rfl rfl (by decide), List.forall_mem_singleton.mpr nothing⟩
  have distinct : AreDistinct capturedRepeats := by
    refine ⟨apart ["a", "b"] rfl rfl (by decide), ?_⟩
    refine List.forall_mem_cons.mpr ⟨?_, List.forall_mem_singleton.mpr nothing⟩
    refine ⟨apart ["a", "b"] rfl rfl (by decide), ?_⟩
    exact List.forall_mem_cons.mpr ⟨single, List.forall_mem_singleton.mpr nothing⟩
  have free : ∀ o ∈ capturedRepeats, o.facts.basename ≠ .text Survey.rootName := by
    have other (t : Text) (ne : t ≠ Survey.rootName) : Value.text t ≠ .text Survey.rootName :=
      fun same => ne (Value.text.inj same)
    exact List.forall_mem_cons.mpr ⟨other "a" (by decide),
      List.forall_mem_singleton.mpr (other "b" (by decide))⟩
  have named : withNames capturedRepeats = .ok (nameForest capturedRepeats) := if_pos rfl
  have shape : (surveyOf ⟨.text "$$$", .list []⟩ (nameForest capturedRepeats)
      ()).answer.toOption.any (fun survey => survey.graph.components.length == 6) = true := by
    decide +kernel
  cases surveyed : (surveyOf ⟨.text "$$$", .list []⟩ (nameForest capturedRepeats) ()).answer with
  | error e =>
    rw [surveyed] at shape
    cases shape
  | ok survey =>
    rw [surveyed] at shape
    obtain ⟨names, found, -⟩ := names_identify_components _ capturedRepeats _ distinct free named
      () surveyed
    exact ⟨distinct, free, _, survey, named, surveyed, beq_iff_eq.mp shape, names, found⟩

end Schematic
