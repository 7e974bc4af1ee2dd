import Schematic.Proofs.Graph.Address
import Schematic.Proofs.Survey.Draft

/-! What an adapter names. Where the objects at one place have distinct basenames without dots, and
so have the ports among them, the names that they get are addresses, and a survey keeps them so. -/

namespace Schematic

namespace SimObject

/-- The objects that are ports of the component around an object: a port itself, the faces of a
socket. -/
def portals (o : SimObject) : List ObjectFacts :=
  match Kind.shownRole? o.facts.kindText with
  | some .port => [o.facts]
  | some .socket => o.faces.map facts
  | _ => []

variable {facts : ObjectFacts} {children faces : List SimObject}

theorem portals_of_port (shown : Kind.shownRole? facts.kindText = some .port) :
    (mk facts children faces).portals = [facts] := by
  rw [portals, SimObject.facts, shown]

theorem portals_of_socket (shown : Kind.shownRole? facts.kindText = some .socket) :
    (mk facts children faces).portals = faces.map SimObject.facts := by
  rw [portals, SimObject.facts, shown]
  rfl

end SimObject

/-- An object with one part of a name as its basename, and without a name of its own choice. -/
structure ObjectFacts.IsPlain (facts : ObjectFacts) : Prop where
  unnamed : facts.name.isTrue = false
  basename : ∃ b : Text, b.IsSegment ∧ facts.basename = .text b

structure ObjectFacts.AreApart (fs : List ObjectFacts) : Prop where
  plain : ∀ f ∈ fs, f.IsPlain
  distinct : (fs.map ObjectFacts.basename).Nodup

theorem ObjectFacts.areApart_of_texts {fs : List ObjectFacts} (bs : List Text)
    (basenames : fs.map ObjectFacts.basename = bs.map .text)
    (unnamed : fs.all (fun f => !f.name.isTrue) = true)
    (parts : (∀ b ∈ bs, b.IsSegment) ∧ bs.Nodup) : ObjectFacts.AreApart fs where
  plain := by
    intro f hf
    have named : f.basename ∈ bs.map Value.text := basenames ▸ List.mem_map_of_mem hf
    obtain ⟨b, hb, basename⟩ := List.mem_map.mp named
    have free := List.all_eq_true.mp unnamed f hf
    rw [Bool.not_eq_true'] at free
    exact ⟨free, b, parts.1 b hb, basename.symm⟩
  distinct := basenames ▸ parts.2.map fun _ _ => Value.text.inj

namespace SimObject

/-- Objects that can be told apart by their basenames wherever they are side by side, and so can the
ports and the faces of sockets among them. -/
inductive AreTidy : List SimObject → Prop where
  | mk {os : List SimObject} (objects : ObjectFacts.AreApart (os.map facts))
      (portals : ObjectFacts.AreApart (os.flatMap portals))
      (inner : ∀ o ∈ os, AreTidy o.children) : AreTidy os

end SimObject

/-- Ports and components that come of objects at an address: each has its address as its name, and
the basename of one of the objects. -/
structure Fits (address : Text) (portals objects : List ObjectFacts)
    (made : List Graph.PortFacts) (below : List Sketch) : Prop where
  ports : ∀ p ∈ made, p.IsAt address
  units : ∀ t ∈ below, t.IsAt address
  portBasenames : (made.map Graph.PortFacts.basename).Sublist (portals.map ObjectFacts.basename)
  basenames : (below.map fun t => t.label.basename).Sublist (objects.map ObjectFacts.basename)

theorem Fits.nothing (address : Text) (portals objects : List ObjectFacts) :
    Fits address portals objects [] [] :=
  ⟨List.forall_mem_nil _, List.forall_mem_nil _, List.nil_sublist _, List.nil_sublist _⟩

theorem Fits.unit {address : Text} {t : Sketch} {facts : ObjectFacts}
    (portals : List ObjectFacts) (here : t.IsAt address)
    (basename : t.label.basename = facts.basename) : Fits address portals [facts] [] [t] where
  ports := List.forall_mem_nil _
  units := List.forall_mem_singleton.mpr here
  portBasenames := List.nil_sublist _
  basenames := by rw [List.map_singleton, List.map_singleton, basename]

theorem Fits.append {address : Text} {portals portals' objects objects' : List ObjectFacts}
    {made made' : List Graph.PortFacts} {below below' : List Sketch}
    (first : Fits address portals objects made below)
    (rest : Fits address portals' objects' made' below') :
    Fits address (portals ++ portals') (objects ++ objects') (made ++ made') (below ++ below') where
  ports := List.forall_mem_append.mpr ⟨first.ports, rest.ports⟩
  units := List.forall_mem_append.mpr ⟨first.units, rest.units⟩
  portBasenames := by
    rw [List.map_append, List.map_append]
    exact first.portBasenames.append rest.portBasenames
  basenames := by
    rw [List.map_append, List.map_append]
    exact first.basenames.append rest.basenames

namespace SimObject

variable {address : Text} {facts : ObjectFacts} {kind : Value} {p : Graph.PortFacts}
  {objects : List SimObject} {top : SimObject}

theorem qualify_text (address b : Text) :
    qualify (.text address) (.text b) = .text (address.dot b) := by
  cases top : address.isEmpty <;> simp [qualify, Value.isTrue, Text.dot, top]

theorem name_nameFacts {b : Text} (address : Text) (plain : facts.IsPlain)
    (basename : facts.basename = .text b) :
    (nameFacts (.text address) facts).name = .text (address.dot b) := by
  rw [nameFacts, if_neg (Bool.eq_false_iff.mp plain.unnamed), basename]
  exact qualify_text address b

theorem basename_nameFacts (enclosing : Value) (facts : ObjectFacts) :
    (nameFacts enclosing facts).basename = facts.basename := by
  unfold nameFacts
  split <;> rfl

theorem kindText_nameFacts (enclosing : Value) (facts : ObjectFacts) :
    (nameFacts enclosing facts).kindText = facts.kindText := by
  unfold nameFacts
  split <;> rfl

theorem isAt_of_port? (plain : facts.IsPlain)
    (made : (nameFacts (.text address) facts).port? kind = some p) :
    p.IsAt address ∧ p.basename = facts.basename := by
  obtain ⟨b, segment, basename⟩ := plain.basename
  obtain ⟨direction, -, rfl⟩ := Option.map_eq_some_iff.mp made
  have same := basename_nameFacts (.text address) facts
  exact ⟨⟨b, segment, same.trans basename, name_nameFacts address plain basename⟩, same⟩

theorem fits_port (address : Text) (kind : Value) (plain : facts.IsPlain)
    (objects : List ObjectFacts) :
    Fits address [facts] objects ((nameFacts (.text address) facts).port? kind).toList [] := by
  cases made : (nameFacts (.text address) facts).port? kind with
  | none => exact .nothing address [facts] objects
  | some p =>
    obtain ⟨here, basename⟩ := isAt_of_port? plain made
    refine ⟨List.forall_mem_singleton.mpr here, List.forall_mem_nil _, ?_, List.nil_sublist _⟩
    simp [basename]

theorem fits_faces {faces : List SimObject} (plain : ∀ face ∈ faces, face.facts.IsPlain) :
    Fits address (faces.map SimObject.facts) []
      ((faces.map (nameSelf (.text address))).filterMap fun face => face.facts.port? kind) [] := by
  induction faces with
  | nil => exact .nothing address [] []
  | cons face faces ih =>
    rw [List.forall_mem_cons] at plain
    have all := (fits_port address kind plain.1 []).append (ih plain.2)
    rw [List.map_cons, List.map_cons, List.filterMap_cons, facts_nameSelf]
    cases made : (nameFacts (.text address) face.facts).port? kind with
    | none => rwa [made] at all
    | some p => rwa [made] at all

/-- An object whose own basename, those of its ports and those inside it are parts of names. -/
structure IsTidy (o : SimObject) : Prop where
  plain : o.facts.IsPlain
  portals : ∀ f ∈ o.portals, f.IsPlain
  inner : AreTidy o.children

theorem AreTidy.isTidy {os : List SimObject} (tidy : AreTidy os) : ∀ o ∈ os, o.IsTidy := by
  cases tidy with
  | mk objects portals inner =>
    intro o ho
    refine ⟨objects.plain _ (List.mem_map_of_mem ho), fun f hf => ?_, inner o ho⟩
    exact portals.plain f (List.mem_flatMap.mpr ⟨o, ho, hf⟩)

/-- A component at an address, made of an object that fits there and has all inside it in order. -/
theorem AreTidy.isAt {os : List SimObject} {label : Label} {b : Text} {made : List Graph.PortFacts}
    {below : List Sketch} (tidy : AreTidy os) (segment : b.IsSegment)
    (basename : label.basename = .text b) (name : label.name = .text (address.dot b))
    (fits : Fits (address.dot b) (os.flatMap portals) (os.map SimObject.facts) made below) :
    (Sketch.unit label made below).IsAt address := by
  cases tidy with
  | mk objects portals inner =>
    exact .unit segment basename name fits.ports (fits.portBasenames.nodup portals.distinct)
      fits.units (fits.basenames.nodup objects.distinct)

mutual

theorem fits_draws : ∀ (o : SimObject) (address : Text) (made : List Graph.PortFacts)
    (below : List Sketch), o.IsTidy → Draws (named (.text address) o) made below →
      Fits address o.portals [o.facts] made below
  | mk facts children faces, address, made, below, tidy, drawn => by
    have plain : facts.IsPlain := tidy.plain
    obtain ⟨b, segment, basename⟩ := plain.basename
    have name := name_nameFacts address plain basename
    have titled := basename_nameFacts (.text address) facts
    have kind := kindText_nameFacts (.text address) facts
    rw [named] at drawn
    cases drawn with
    | passed => exact .nothing address _ _
    | module _ _ inner =>
      rw [name] at inner
      have inside := fits_drawsAmong children (address.dot b) _ _ tidy.inner.isTidy inner
      exact .unit _ (tidy.inner.isAt segment (titled.trans basename) name inside) titled
    | clock shown =>
      refine .unit _ (.unit segment (titled.trans basename) name ?_ ?_
        (List.forall_mem_nil _) .nil) titled
      · refine List.forall_mem_singleton.mpr ⟨b, segment, titled.trans basename, ?_⟩
        simp only [ObjectFacts.clockPort, SimObject.facts, name, titled, basename,
          Value.plain_text, Text.dot_of_nonempty (segment.dot_nonempty address)]
      · exact List.nodup_singleton _
    | port shown =>
      rw [SimObject.facts, kind] at shown
      rw [portals_of_port shown]
      exact fits_port _ _ plain _
    | socket shown =>
      rw [SimObject.facts, kind] at shown
      have faced := tidy.portals
      rw [portals_of_socket shown, List.forall_mem_map] at faced
      rw [portals_of_socket shown]
      exact { fits_faces faced with basenames := List.nil_sublist _ }

theorem fits_drawsAmong : ∀ (os : List SimObject) (address : Text) (made : List Graph.PortFacts)
    (below : List Sketch), (∀ o ∈ os, o.IsTidy) →
      DrawsAmong (namedAll (.text address) os) made below →
      Fits address (os.flatMap portals) (os.map SimObject.facts) made below
  | [], address, made, below, _, drawn => by
    cases drawn
    exact .nothing address [] []
  | o :: os, address, made, below, tidy, drawn => by
    rw [List.forall_mem_cons] at tidy
    rw [namedAll] at drawn
    cases drawn with
    | cons first rest =>
      exact (fits_draws o address _ _ tidy.1 first).append
        (fits_drawsAmong os address _ _ tidy.2 rest)

end

/-- What a survey makes below the root: of the objects of the forest at the top, or of those inside
its only object. -/
theorem exists_fits {objects : List SimObject} {top : SimObject} {made : List Graph.PortFacts}
    {below : List Sketch} (tidy : AreTidy objects)
    (root : top = standIn (nameForest objects) ∨ nameForest objects = [top])
    (drawn : DrawsAmong top.children made below) : ∃ (a : Text) (os : List SimObject),
      a.holds '.' = false ∧ AreTidy os ∧
        Fits a (os.flatMap portals) (os.map SimObject.facts) made below := by
  rcases root with rfl | single
  · exact ⟨.empty, objects, rfl, tidy, fits_drawsAmong objects .empty _ _ tidy.isTidy drawn⟩
  · match objects with
    | [] => cases single
    | mk facts children faces :: _ :: _ => cases single
    | [mk facts children faces] =>
      obtain ⟨⟨unnamed, b, segment, basename⟩, -, inner⟩ := tidy.isTidy _ List.mem_cons_self
      rw [nameForest, namedAll, named, namedAll] at single
      cases single
      have name := name_nameFacts .empty ⟨unnamed, b, segment, basename⟩ basename
      simp only [SimObject.facts, SimObject.children, Text.dot_empty] at name drawn
      rw [name] at drawn
      exact ⟨b, children, segment.undotted, inner,
        fits_drawsAmong children b _ _ inner.isTidy drawn⟩

end SimObject

/-- The names in a survey of objects that can be told apart are addresses. -/
theorem Survey.IsDraftOf.spells {objects : List SimObject} {s : Survey}
    (draft : s.IsDraftOf (SimObject.nameForest objects)) (tidy : SimObject.AreTidy objects) :
    ∃ r a, s.graph.register.root = some r ∧ a.holds '.' = false ∧ s.graph.Spells a r := by
  have cohered := draft.built.coherent
  obtain ⟨top, made, below, root, drawn, tree⟩ := draft.tree
  obtain ⟨a, os, undotted, apart, fits⟩ := SimObject.exists_fits tidy root drawn
  rw [Graph.outline, Option.map_map] at tree
  obtain ⟨r, rooted, shown⟩ := Option.map_eq_some_iff.mp tree
  refine ⟨r, a, rooted, undotted, ?_⟩
  cases apart with
  | mk objects portals inner =>
    exact Graph.spells_of_unit cohered (cohered.root_mem rooted) shown fits.ports
      (fits.portBasenames.nodup portals.distinct) fits.units (fits.basenames.nodup objects.distinct)

end Schematic
