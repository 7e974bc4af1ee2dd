import Schematic.Proofs.Survey.Yield

/-! What a survey takes for ports. Of objects that report texts as basenames and kinds, and names
that can be written, a survey needs only that the direction of whatever it takes for a port is one
or can be written. -/

namespace Schematic

namespace Survey

open SimObject

def CanReport (facts : ObjectFacts) : Prop :=
  directionOf? facts.direction = none → facts.direction.isWritable = true

mutual

def portsIn (rules : SurveyRules) : SimObject → List ObjectFacts
  | .mk facts children faces =>
    match Kind.classify rules.isIgnored facts.kind with
    | .ok .module => portsAmong rules [] children
    | .ok .port => [facts]
    | .ok .socket => faces.map SimObject.facts
    | _ => []

def portsAmong (rules : SurveyRules) (stems : List Text) : List SimObject → List ObjectFacts
  | [] => []
  | o :: os =>
    match isHidden rules stems o.facts.basename with
    | .ok false => portsIn rules o ++ portsAmong rules (stems ++ o.stems) os
    | _ => portsAmong rules stems os

end

def portsOfForest (rules : SurveyRules) (objects : List SimObject) : List ObjectFacts :=
  match singleRoot? rules objects with
  | .ok (some top) => portsAmong rules [] top.children
  | _ => portsAmong rules [] objects

def offered (ignored : List Text) (o : SimObject) : List ObjectFacts :=
  match o.facts.role ignored with
  | .port => [o.facts]
  | .socket => o.faces.map SimObject.facts
  | _ => []

variable {rules : SurveyRules} {marker : Text} {ignored : List Text} {objects : List SimObject}

mutual

theorem portsIn_eq (spelled : GoesBy rules marker ignored) : ∀ o : SimObject,
    (∀ f ∈ o.reports, f.IsSortable ignored) →
      portsIn rules o = (visits ignored (visible marker o)).flatMap (offered ignored)
  | .mk facts children faces, texts => by
    rw [SimObject.reports, List.forall_mem_cons, List.forall_mem_append] at texts
    obtain ⟨sorted, -, inner⟩ := texts
    rw [portsIn, spelled.classify sorted, visible, visits, List.flatMap_cons, offered]
    cases role : facts.role ignored with
    | module =>
      have inside : portsAmong rules [] children = _ := portsAmong_eq spelled [] children inner
      simp only [SimObject.facts, role, List.nil_append, inside]
    | _ => simp only [SimObject.facts, SimObject.faces, role, List.flatMap_nil, List.append_nil]

theorem portsAmong_eq (spelled : GoesBy rules marker ignored) : ∀ seen os : List SimObject,
    (∀ f ∈ reportsAmong os, f.IsSortable ignored) →
      portsAmong rules (seen.flatMap stems) os =
        (visitsAmong ignored (visibleAmong marker seen os)).flatMap (offered ignored)
  | _, [], _ => rfl
  | seen, o :: os, texts => by
    rw [reportsAmong, List.forall_mem_append] at texts
    have sorted : o.facts.IsSortable ignored := (reports_self texts.1).1
    rw [portsAmong, visibleAmong, spelled.isHidden seen sorted.basename]
    cases o.facts.isMarked marker || seen.any fun s => s.hides o with
    | true => exact portsAmong_eq spelled seen os texts.2
    | false =>
      have rest := portsAmong_eq spelled (seen ++ [o]) os texts.2
      rw [List.flatMap_append, List.flatMap_singleton] at rest
      simp only [rest, portsIn_eq spelled o texts.1, Bool.false_eq_true, if_false, visitsAmong,
        List.flatMap_append]

end

/-- A survey takes for ports what the objects of its plan show as such. -/
theorem portsOfForest_eq (spelled : GoesBy rules marker ignored)
    (texts : ∀ f ∈ reportsAmong objects, f.IsSortable ignored) :
    portsOfForest rules objects =
      (visited ignored marker objects).flatMap (offered ignored) := by
  obtain ⟨top?, found, root⟩ := exists_rootOf spelled.marker texts
  have inside : portsAmong rules [] (rootOf marker objects).children = _ :=
    portsAmong_eq spelled [] _ (reports_rootOf texts)
  rw [portsOfForest, found, visited, SimObject.inside, ← inside, ← root]
  cases top? <;> rfl

variable {allowed : Bindable} {facts : ObjectFacts} {o : SimObject}

theorem isWritable_bindingRemarks (name : facts.name.isWritable = true) :
    ∀ r ∈ facts.bindingRemarks, r.isWritable = true := by
  unfold ObjectFacts.bindingRemarks
  split
  · exact nofun
  · exact List.forall_mem_singleton.mpr name

theorem canReport_iff (name : facts.name.isWritable = true) :
    CanReport facts ↔ ∀ r ∈ facts.portRemarks, r.isWritable = true := by
  rw [CanReport, ObjectFacts.portRemarks]
  cases directionOf? facts.direction with
  | none => simp [Remark.isWritable, name]
  | some direction => simpa using isWritable_bindingRemarks name

/-- What can be told of an object in order depends on what it shows as ports. -/
theorem isTellable_iff_canReport (order : ∀ f ∈ o.reports, f.InOrder allowed) :
    o.isTellable ignored = true ↔ ∀ f ∈ offered ignored o, CanReport f := by
  obtain ⟨self, faces, -⟩ := reports_self order
  rw [isTellable_iff, offered, remarks]
  cases o.facts.role ignored with
  | port => simp [canReport_iff self.name]
  | socket =>
    have bare : ∀ r ∈ if o.faces.isEmpty then [Remark.noFaces o.facts.name] else [],
        r.isWritable = true := by
      split
      · exact List.forall_mem_singleton.mpr self.name
      · exact nofun
    have told : (∀ r ∈ o.faces.flatMap fun face => face.facts.portRemarks, r.isWritable = true) ↔
        ∀ face ∈ o.faces, CanReport face.facts := by
      rw [List.forall_mem_flatMap]
      exact forall₂_congr fun face h => (canReport_iff (faces face h).name).symm
    simp only [List.forall_mem_append, told, List.forall_mem_map, and_iff_right bare,
      reduceCtorEq, false_implies, true_and]
  | clock => simpa [self.name] using isWritable_bindingRemarks self.name
  | unknown => simp [Remark.isWritable, self.kind.isWritable]
  | _ => simp

end Survey

end Schematic
