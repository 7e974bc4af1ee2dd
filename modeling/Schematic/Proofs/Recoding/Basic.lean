import Schematic.Proofs.Graph.Registry
import Schematic.Proofs.Survey.Naming

/-! Other identities for the same bindings. A recoding maps identities to others and keeps apart
what differs and together what is equal. Null stays null, since it is the identity of no binding. -/

namespace Schematic

/-- A map of identities, other than null, such that two of them are equal exactly if their images
are. -/
structure Recoding where
  covers : Value → Prop
  map : Value → Value
  proper : ∀ {v}, covers v → v.IsIdentity ∧ v.isNull = false
  maps : ∀ {v}, covers v → (map v).IsIdentity ∧ (map v).isNull = false
  equal : ∀ {v w}, covers v → covers w → (map v).equal (map w) = v.equal w

namespace Recoding

variable {c : Recoding} {v w : Value}

/-- What becomes of the identity of a port. -/
def apply (c : Recoding) (v : Value) : Value := if v.isNull then v else c.map v

/-- The identities that ports may have: those that the recoding is for, and null. -/
def Knows (c : Recoding) (v : Value) : Prop := v = .null ∨ c.covers v

theorem apply_of_covers (h : c.covers v) : c.apply v = c.map v :=
  if_neg (Bool.eq_false_iff.mp (c.proper h).2)

theorem Knows.isIdentity (h : c.Knows v) : v.IsIdentity := by
  rcases h with rfl | covered
  · exact ⟨rfl, rfl⟩
  · exact (c.proper covered).1

theorem isIdentity_apply (h : c.Knows v) : (c.apply v).IsIdentity := by
  rcases h with rfl | covered
  · exact ⟨rfl, rfl⟩
  · rw [apply_of_covers covered]
    exact (c.maps covered).1

theorem isNull_apply (h : c.Knows v) : (c.apply v).isNull = v.isNull := by
  rcases h with rfl | covered
  · rfl
  · rw [apply_of_covers covered, (c.maps covered).2, (c.proper covered).2]

theorem meaning_apply_iff (hv : c.Knows v) (hw : c.Knows w) :
    (c.apply v).meaning = (c.apply w).meaning ↔ v.meaning = w.meaning := by
  -- an identity that is null stands for something else than one that is not
  have apart {x : Value} (h : c.covers x) :
      (c.apply x).meaning ≠ .null ∧ x.meaning ≠ .null := by
    constructor
    · rw [ne_eq, ← Value.isNull_iff (isIdentity_apply (.inr h)).1, isNull_apply (.inr h),
        (c.proper h).2]
      exact Bool.false_ne_true
    · rw [ne_eq, ← Value.isNull_iff (c.proper h).1.1, (c.proper h).2]
      exact Bool.false_ne_true
  rcases hv with rfl | covered <;> rcases hw with rfl | covered'
  · rfl
  · exact iff_of_false (apart covered').1.symm (apart covered').2.symm
  · exact iff_of_false (apart covered).1 (apart covered).2
  · rw [apply_of_covers covered, apply_of_covers covered', ← Value.equal_iff (c.maps covered).1
      (c.maps covered').1, c.equal covered covered',
      Value.equal_iff (c.proper covered).1 (c.proper covered').1]

theorem equal_apply (hv : c.Knows v) (hw : c.Knows w) :
    (c.apply v).equal (c.apply w) = v.equal w := by
  rw [Bool.eq_iff_iff, Value.equal_iff (isIdentity_apply hv) (isIdentity_apply hw),
    Value.equal_iff hv.isIdentity hw.isIdentity, meaning_apply_iff hv hw]

theorem same_apply (hv : c.Knows v) (hw : c.Knows w) :
    (c.apply v).same (c.apply w) = v.same w := by
  rw [Bool.eq_iff_iff, Value.same_iff (isIdentity_apply hv).1 (isIdentity_apply hw).1,
    Value.same_iff hv.isIdentity.1 hw.isIdentity.1, meaning_apply_iff hv hw]

end Recoding

def ObjectFacts.recoded (c : Recoding) (facts : ObjectFacts) : ObjectFacts :=
  { facts with identity := c.apply facts.identity }

def Graph.PortFacts.recoded (c : Recoding) (facts : Graph.PortFacts) : Graph.PortFacts :=
  { facts with identity := c.apply facts.identity }

def Port.recoded (c : Recoding) (p : Port) : Port := { p with identity := c.apply p.identity }

def Graph.recoded (c : Recoding) (g : Graph) : Graph :=
  { g with arena := { g.arena with ports := g.arena.ports.map (Port.recoded c) } }

namespace SimObject

mutual

def recoded (c : Recoding) : SimObject → SimObject
  | mk facts children faces =>
    mk (facts.recoded c) (recodedAll c children) (recodedAll c faces)

def recodedAll (c : Recoding) : List SimObject → List SimObject
  | [] => []
  | o :: os => recoded c o :: recodedAll c os

end

variable {c : Recoding} {enclosing : Value} {objects : List SimObject}

theorem recodedAll_eq (c : Recoding) (os : List SimObject) :
    recodedAll c os = os.map (recoded c) := by
  induction os with
  | nil => rfl
  | cons o os ih => rw [recodedAll, ih, List.map_cons]

theorem facts_recoded (c : Recoding) (o : SimObject) : (o.recoded c).facts = o.facts.recoded c := by
  cases o
  rw [recoded]
  rfl

theorem nameFacts_recoded (c : Recoding) (enclosing : Value) (facts : ObjectFacts) :
    nameFacts enclosing (facts.recoded c) = (nameFacts enclosing facts).recoded c := by
  rw [nameFacts, nameFacts, show (facts.recoded c).name = facts.name from rfl]
  split <;> rfl

theorem nameSelf_recoded (c : Recoding) (enclosing : Value) (o : SimObject) :
    nameSelf enclosing (o.recoded c) = (nameSelf enclosing o).recoded c := by
  cases o
  rw [recoded, nameSelf, nameSelf, recoded, nameFacts_recoded]

mutual

theorem named_recoded (c : Recoding) : ∀ (o : SimObject) (enclosing : Value),
    named enclosing (o.recoded c) = (named enclosing o).recoded c
  | mk facts children faces, enclosing => by
    rw [recoded, named, named, recoded, nameFacts_recoded]
    refine congrArg₂ (mk _) (namedAll_recoded c children _) ?_
    simp only [recodedAll_eq, List.map_map, Function.comp_def, nameSelf_recoded]

theorem namedAll_recoded (c : Recoding) : ∀ (os : List SimObject) (enclosing : Value),
    namedAll enclosing (recodedAll c os) = recodedAll c (namedAll enclosing os)
  | [], _ => rfl
  | o :: os, enclosing => by
    rw [recodedAll, namedAll, named_recoded c o, namedAll_recoded c os, namedAll, recodedAll]

end

mutual

theorem canName_recoded (c : Recoding) : ∀ (o : SimObject) (enclosing : Value),
    canName enclosing (o.recoded c) = canName enclosing o
  | mk facts children faces, enclosing => by
    have nameable (f : ObjectFacts) : isNameable enclosing (f.recoded c) = isNameable enclosing f :=
      rfl
    have name :
        (nameFacts enclosing (facts.recoded c)).name = (nameFacts enclosing facts).name := by
      rw [nameFacts_recoded]
      rfl
    rw [recoded, canName, canName, name, canNameAll_recoded c children, nameable, recodedAll_eq,
      List.all_map]
    simp only [Function.comp_def, facts_recoded, nameable]

theorem canNameAll_recoded (c : Recoding) : ∀ (os : List SimObject) (enclosing : Value),
    canNameAll enclosing (recodedAll c os) = canNameAll enclosing os
  | [], _ => rfl
  | o :: os, enclosing => by
    rw [recodedAll, canNameAll, canName_recoded c o, canNameAll_recoded c os, canNameAll]

end

/-- Names do not depend on identities. -/
theorem withNames_recoded (c : Recoding) (objects : List SimObject) :
    withNames (recodedAll c objects) = (withNames objects).map (recodedAll c) := by
  rw [withNames, withNames, canNameAll_recoded, nameForest, namedAll_recoded]
  split <;> rfl

section Reports

variable {p : Value → Prop}

theorem identity_nameFacts (enclosing : Value) (facts : ObjectFacts) :
    (nameFacts enclosing facts).identity = facts.identity := by
  unfold nameFacts
  split <;> rfl

theorem identities_namedAll (os : List SimObject) (enclosing : Value)
    (all : ∀ f ∈ reportsAmong os, p f.identity) :
    ∀ f ∈ reportsAmong (namedAll enclosing os), p f.identity := by
  refine forall_namedAll (p := fun f => p f.identity) (q := fun f => p f.identity) ?_ os enclosing
    all
  intro enclosing facts holds
  rwa [identity_nameFacts]

end Reports

end SimObject

end Schematic
