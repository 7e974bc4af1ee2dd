import Schematic.Proofs.Reading.Layout
import Schematic.Yaml.Node

/-! What the nodes of a YAML document can fail at besides its grammar: at a token and nothing else.
The parser takes one token after the other, and the faults that it finds are of the grammar. -/

namespace Schematic.Yaml.Node

variable {P : ScalarFault → Prop}

def StopsAt (P : ScalarFault → Prop) (s : Source) : Prop :=
  ∀ fault, s.run.fault = some (.scalar fault) → P fault

theorem peek_faithful : Faithful (StopsAt P) P peek := by
  refine .bind_get fun s stops => ?_
  split
  · exact .pure _
  · next stopped =>
    refine .throw fun fault same => stops fault ?_
    rw [stopped, same]
  · exact .pure _

theorem advance_faithful : Faithful (StopsAt P) P advance := .update fun _ stops => stops

theorem sees_faithful (ts : List Token) : Faithful (StopsAt P) P (sees ts) :=
  .bind peek_faithful fun _ => .pure _

theorem make_faithful (n : Node) : Faithful (StopsAt P) P (make n) := by
  refine fun s stops => ⟨nofun, ?_⟩
  rintro _ _ ⟨⟩
  exact stops

theorem fill_faithful (id : NodeId) (content : NodeContent) :
    Faithful (StopsAt P) P (fill id content) :=
  .update fun _ stops => stops

theorem name_faithful (anchor : Option String) (id : NodeId) :
    Faithful (StopsAt P) P (name anchor id) := by
  unfold name
  split
  · exact .update fun _ stops => stops
  · exact .pure ()

theorem empty_faithful : Faithful (StopsAt P) P empty := make_faithful _

theorem properties_faithful : Faithful (StopsAt P) P properties := by
  refine .bind peek_faithful fun t => ?_
  split
  · refine .bind advance_faithful fun _ => .bind peek_faithful fun t => ?_
    split
    · exact .bind advance_faithful fun _ => .pure _
    · exact .pure _
  · refine .bind advance_faithful fun _ => .bind peek_faithful fun t => ?_
    split
    · exact .bind advance_faithful fun _ => .pure _
    · exact .pure _
  · exact .pure _

theorem fullTag_blames (handles : List (String × String)) (p : Properties) :
    Blames P (fullTag handles p) := by
  unfold fullTag
  split
  · exact .ok _
  · exact .ok _
  · split
    · exact .ok _
    · exact .malformed

theorem checkName_faithful (anchor : Option String) : Faithful (StopsAt P) P (checkName anchor) :=
  .bind_get fun _ _ => .ite .malformed (.pure ())

theorem scalar_faithful (p : Properties) (tag : Tag) (content : Text) :
    Faithful (StopsAt P) P (scalar p tag content) :=
  .bind (make_faithful _) fun _ => .bind (name_faithful _ _) fun _ => .pure _

theorem collection_faithful (p : Properties) (tag : Tag) {content : Parse NodeContent}
    (inner : Faithful (StopsAt P) P content) : Faithful (StopsAt P) P (collection p tag content) :=
  .bind (make_faithful _) fun _ => .bind (name_faithful _ _) fun _ =>
    .bind inner fun _ => .bind (fill_faithful _ _) fun _ => .pure _

structure PartsFaithful (P : ScalarFault → Prop) (fuel : Nat) : Prop where
  parse : ∀ handles place, Faithful (StopsAt P) P (parse handles place fuel)
  parseUnless : ∀ handles place ends, Faithful (StopsAt P) P (parseUnless handles place ends fuel)
  valueUnless : ∀ handles place ends, Faithful (StopsAt P) P (valueUnless handles place ends fuel)
  blockItems : ∀ handles, Faithful (StopsAt P) P (blockItems handles fuel)
  dashes : ∀ handles, Faithful (StopsAt P) P (dashes handles fuel)
  blockPairs : ∀ handles, Faithful (StopsAt P) P (blockPairs handles fuel)
  flowItems : ∀ handles isFirst, Faithful (StopsAt P) P (flowItems handles isFirst fuel)
  flowPairs : ∀ handles isFirst, Faithful (StopsAt P) P (flowPairs handles isFirst fuel)

section

variable {fuel : Nat} (parts : PartsFaithful P fuel) (handles : List (String × String))
include parts

theorem parse_faithful (place : Place) :
    Faithful (StopsAt P) P (parse handles place (fuel + 1)) := by
  unfold parse
  refine .bind peek_faithful fun t => ?_
  split
  · refine .bind_get fun s _ => ?_
    split
    · exact .bind advance_faithful fun _ => .pure _
    · exact .malformed
  · refine .bind properties_faithful fun p => .bind_lift (fullTag_blames _ _) fun tag _ => ?_
    refine .bind peek_faithful fun next => .bind (checkName_faithful _) fun _ => ?_
    have sequence {items : Parse (List NodeId)} (inner : Faithful (StopsAt P) P items) :
        Faithful (StopsAt P) P
          (collection p (collectionTag .sequence tag) do pure (.sequence (← items))) :=
      collection_faithful _ _ (.bind inner fun _ => .pure _)
    have mapping {pairs : Parse (List (NodeId × NodeId))} (inner : Faithful (StopsAt P) P pairs) :
        Faithful (StopsAt P) P
          (collection p (collectionTag .mapping tag) do pure (.mapping (← pairs))) :=
      collection_faithful _ _ (.bind inner fun _ => .pure _)
    dsimp only
    split
    · exact sequence (parts.dashes _)
    · exact .bind advance_faithful fun _ => scalar_faithful _ _ _
    · exact sequence (.bind advance_faithful fun _ => parts.flowItems _ _)
    · exact mapping (.bind advance_faithful fun _ => parts.flowPairs _ _)
    · exact sequence (.bind advance_faithful fun _ => parts.blockItems _)
    · exact sequence (.bind advance_faithful fun _ => parts.blockItems _)
    · exact mapping (.bind advance_faithful fun _ => parts.blockPairs _)
    · exact mapping (.bind advance_faithful fun _ => parts.blockPairs _)
    · exact .ite (scalar_faithful _ _ _) .malformed

theorem parseUnless_faithful (place : Place) (ends : List Token) :
    Faithful (StopsAt P) P (parseUnless handles place ends (fuel + 1)) :=
  .bind (sees_faithful _) fun _ => .ite empty_faithful (parts.parse _ _)

theorem valueUnless_faithful (place : Place) (ends : List Token) :
    Faithful (StopsAt P) P (valueUnless handles place ends (fuel + 1)) :=
  .bind (sees_faithful _) fun _ =>
    .ite (.bind advance_faithful fun _ => parts.parseUnless _ _ _) empty_faithful

theorem blockItems_faithful : Faithful (StopsAt P) P (blockItems handles (fuel + 1)) := by
  unfold blockItems
  refine .bind peek_faithful fun t => ?_
  split
  · exact .bind advance_faithful fun _ => .bind (parts.parseUnless _ _ _) fun _ =>
      .bind (parts.blockItems _) fun _ => .pure _
  · exact .bind advance_faithful fun _ => .pure _
  · exact .malformed

theorem dashes_faithful : Faithful (StopsAt P) P (dashes handles (fuel + 1)) := by
  unfold dashes
  refine .bind peek_faithful fun t => ?_
  split
  · exact .bind advance_faithful fun _ => .bind (parts.parseUnless _ _ _) fun _ =>
      .bind (parts.dashes _) fun _ => .pure _
  · exact .pure _

theorem blockPairs_faithful : Faithful (StopsAt P) P (blockPairs handles (fuel + 1)) := by
  unfold blockPairs
  refine .bind peek_faithful fun t => ?_
  split
  · exact .bind advance_faithful fun _ => .bind (parts.parseUnless _ _ _) fun _ =>
      .bind (parts.valueUnless _ _ _) fun _ => .bind (parts.blockPairs _) fun _ => .pure _
  · exact .bind advance_faithful fun _ => .pure _
  · exact .malformed

theorem flowItems_faithful (isFirst : Bool) :
    Faithful (StopsAt P) P (flowItems handles isFirst (fuel + 1)) := by
  unfold flowItems
  refine .bind peek_faithful fun t => ?_
  split
  · exact .bind advance_faithful fun _ => .pure _
  · extract_lets behind
    have rest : ∀ u, Faithful (StopsAt P) P (behind u) := by
      intro u
      refine .bind peek_faithful fun t => ?_
      split
      · refine .bind (collection_faithful _ _ ?_) fun _ =>
          .bind (parts.flowItems _ _) fun _ => .pure _
        exact .bind advance_faithful fun _ => .bind (parts.parseUnless _ _ _) fun _ =>
          .bind (parts.valueUnless _ _ _) fun _ => .pure _
      · exact .bind advance_faithful fun _ => .pure _
      · exact .bind (parts.parse _ _) fun _ => .bind (parts.flowItems _ _) fun _ => .pure _
    exact .ite (.ite (.bind advance_faithful rest) (.bind .malformed rest)) (rest ())

theorem flowPairs_faithful (isFirst : Bool) :
    Faithful (StopsAt P) P (flowPairs handles isFirst (fuel + 1)) := by
  unfold flowPairs
  refine .bind peek_faithful fun t => ?_
  split
  · exact .bind advance_faithful fun _ => .pure _
  · extract_lets behind
    have rest : ∀ u, Faithful (StopsAt P) P (behind u) := by
      intro u
      refine .bind peek_faithful fun t => ?_
      split
      · exact .bind advance_faithful fun _ => .bind (parts.parseUnless _ _ _) fun _ =>
          .bind (parts.valueUnless _ _ _) fun _ => .bind (parts.flowPairs _ _) fun _ => .pure _
      · exact .bind advance_faithful fun _ => .pure _
      · exact .bind (parts.parse _ _) fun _ => .bind empty_faithful fun _ =>
          .bind (parts.flowPairs _ _) fun _ => .pure _
    exact .ite (.ite (.bind advance_faithful rest) (.bind .malformed rest)) (rest ())

end

theorem partsFaithful (fuel : Nat) : PartsFaithful P fuel := by
  induction fuel with
  | zero => constructor <;> (intros; exact .malformed)
  | succ fuel parts => exact
    { parse := parse_faithful parts
      parseUnless := parseUnless_faithful parts
      valueUnless := valueUnless_faithful parts
      blockItems := blockItems_faithful parts
      dashes := dashes_faithful parts
      blockPairs := blockPairs_faithful parts
      flowItems := flowItems_faithful parts
      flowPairs := flowPairs_faithful parts }

theorem directives_faithful (hasVersion : Bool) (handles : List (String × String)) (fuel : Nat) :
    Faithful (StopsAt P) P (directives hasVersion handles fuel) := by
  induction fuel generalizing hasVersion handles with
  | zero => exact .malformed
  | succ fuel ih =>
    unfold directives
    refine .bind peek_faithful fun t => ?_
    split
    · refine .bind advance_faithful fun _ => ?_
      split
      · exact .ite .malformed (ih _ _)
      · exact .ite .malformed (ih _ _)
      · exact ih _ _
    · exact .pure _

theorem skipEnds_faithful (fuel : Nat) : Faithful (StopsAt P) P (skipEnds fuel) := by
  induction fuel with
  | zero => exact .pure ()
  | succ fuel ih =>
    exact .bind (sees_faithful _) fun _ => .ite (.bind advance_faithful fun _ => ih) (.pure ())

theorem finish_faithful (fuel : Nat) : Faithful (StopsAt P) P (finish fuel) :=
  .bind (skipEnds_faithful fuel) fun _ => .bind (sees_faithful _) fun _ =>
    .ite (.bind (directives_faithful _ _ _) fun _ => .malformed) (.pure ())

theorem announced_faithful (fuel : Nat) : Faithful (StopsAt P) P (announced fuel) := by
  refine .bind (directives_faithful _ _ _) fun handles => .bind (sees_faithful _) fun _ => ?_
  refine .ite (.bind advance_faithful fun _ => .bind peek_faithful fun t => ?_) .malformed
  split
  · exact empty_faithful
  · exact empty_faithful
  · exact empty_faithful
  · exact empty_faithful
  · exact (partsFaithful fuel).parse _ _

theorem document_faithful (fuel : Nat) : Faithful (StopsAt P) P (document fuel) := by
  unfold document
  refine .bind peek_faithful fun t => ?_
  extract_lets behind
  have rest (root : Option NodeId) : Faithful (StopsAt P) P (behind root) :=
    .bind (finish_faithful fuel) fun _ => .pure _
  split
  · exact .bind (.pure _) rest
  · exact .bind (.map (announced_faithful fuel)) rest
  · exact .bind (.map (announced_faithful fuel)) rest
  · exact .bind (.map ((partsFaithful fuel).parse _ _)) rest

/-- The parser blames on a scalar what a token can be blamed for. -/
theorem ofText_blames (text : List Char) : Blames (TokenBlame text) (ofText text) :=
  .bind (document_faithful _ { run := tokensOf text } fun _ => tokensOf_blames).1 fun _ _ => .ok _

end Schematic.Yaml.Node
