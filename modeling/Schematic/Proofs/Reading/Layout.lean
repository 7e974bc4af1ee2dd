import Schematic.Proofs.Reading.Tokens
import Schematic.Yaml.Layout

/-! The tokens of a YAML text one after the other. Each is read where the one before it ends, so
what the run of tokens stops at is at fault in the text. -/

namespace Schematic.Yaml

namespace Layout

abbrev Steps (l : Layout) (r : Reading Layout) : Prop :=
  Proceeds .ofToken l.cursor.rest (fun l => l.cursor.rest) r

variable (l : Layout)

theorem cursor_unwindTo (column : Int) (outer : List Int) :
    (unwindTo column outer l).cursor = l.cursor := by
  induction outer generalizing l with
  | nil => rfl
  | cons indent outer ih =>
    unfold unwindTo
    split
    · exact ih _
    · rfl

@[simp] theorem cursor_unwind (column : Int) : (l.unwind column).cursor = l.cursor := by
  unfold unwind
  split
  · rfl
  · exact l.cursor_unwindTo column l.outer

@[simp] theorem cursor_openBlock (column place : Nat) (start : Token) :
    (l.openBlock column place start).cursor = l.cursor := by
  unfold openBlock
  split <;> rfl

theorem dropStaleKeys_steps : l.Steps l.dropStaleKeys :=
  .ite .malformed (.ok (List.suffix_refl _))

theorem dropKey_steps : l.Steps l.dropKey := by
  unfold dropKey
  split
  · exact .ok (List.suffix_refl _)
  · exact .ite .malformed (.ok (List.suffix_refl _))

/-- Neither the keys nor the open blocks are part of the text. -/
theorem cursor_dropKey {l l' : Layout} (dropped : l.dropKey = .ok l') : l'.cursor = l.cursor := by
  unfold dropKey at dropped
  split at dropped
  · cases dropped
    rfl
  · split at dropped
    · cases dropped
    · cases dropped
      rfl

theorem cursor_saveKey {l l' : Layout} (saved : l.saveKey = .ok l') : l'.cursor = l.cursor := by
  unfold saveKey at saved
  split at saved
  · cases dropped : l.dropKey with
    | error e =>
      rw [dropped] at saved
      cases saved
    | ok k =>
      have kept : k.cursor = l.cursor := cursor_dropKey dropped
      rw [dropped] at saved
      cases saved
      exact kept
  · cases saved
    rfl

theorem saveKey_steps : l.Steps l.saveKey :=
  .ite (.bind l.dropKey_steps fun _ _ => .ok (List.suffix_refl _)) (.ok (List.suffix_refl _))

theorem unwind_steps {l k : Layout} {r : Reading Layout} (same : k.cursor = l.cursor)
    (steps : k.Steps r) : l.Steps r := by
  rwa [Steps, same] at steps

theorem pushNode_steps {read : Cursor → Reading (Token × Cursor)}
    (scans : Scans .ofToken l.cursor (read l.cursor)) : l.Steps (l.pushNode read) := by
  refine .bind l.saveKey_steps fun k saved => ?_
  rw [cursor_saveKey saved]
  exact .bind scans fun _ _ => .ok (List.suffix_refl _)

theorem pushMark_suffix (t : Token) (width : Nat) :
    (l.pushMark t width).cursor.rest <:+ l.cursor.rest := l.cursor.forward_suffix width

theorem pushDocumentMark_steps (t : Token) : l.Steps (l.pushDocumentMark t) :=
  unwind_steps (l.cursor_unwind (-1)) (.bind (dropKey_steps _) fun _ _ =>
    .ok (pushMark_suffix _ t 3))

theorem pushDirective_steps (mark : l.cursor.peek = some '%') : l.Steps l.pushDirective := by
  refine .bind (unwind_steps (l.cursor_unwind (-1)) (dropKey_steps _)) fun k dropped => ?_
  have same : k.cursor = l.cursor := (cursor_dropKey dropped).trans (l.cursor_unwind (-1))
  rw [same]
  have read : Proceeds Blaming.ofToken l.cursor.rest (fun read => read.2.rest)
      (Token.directiveToken l.cursor) :=
    ⟨Token.directiveToken_blames mark, (Token.directiveToken_leaves _).leaves⟩
  exact .bind read fun _ _ => .ok (List.suffix_refl _)

theorem pushFlowStart_steps (t : Token) : l.Steps (l.pushFlowStart t) :=
  .bind l.saveKey_steps fun _ _ => .ok (pushMark_suffix _ t 1)

theorem pushFlowEnd_steps (t : Token) : l.Steps (l.pushFlowEnd t) :=
  .ite (.bind l.dropKey_steps fun _ _ => .ok (pushMark_suffix _ t 1)) .malformed

theorem pushFlowEntry_steps : l.Steps l.pushFlowEntry :=
  .bind l.dropKey_steps fun _ _ => .ok (pushMark_suffix _ .flowEntry 1)

theorem openBlock_steps {r : Reading Layout} (column place : Nat) (start : Token)
    (steps : (l.openBlock column place start).Steps r) : l.Steps r :=
  unwind_steps (l.cursor_openBlock column place start) steps

theorem pushBlockEntry_steps : l.Steps l.pushBlockEntry := by
  refine .ite (.bind l.dropKey_steps fun _ _ => ?_) (.ite ?_ .malformed)
  · exact .ok (pushMark_suffix _ .blockEntry 1)
  · refine l.openBlock_steps _ _ _ (.bind (dropKey_steps _) fun _ _ => ?_)
    exact .ok (pushMark_suffix _ .blockEntry 1)

theorem pushKey_steps : l.Steps l.pushKey := by
  refine .ite (.bind l.dropKey_steps fun _ _ => .ok (pushMark_suffix _ .key 1)) (.ite ?_ .malformed)
  exact l.openBlock_steps _ _ _ (.bind (dropKey_steps _) fun _ _ => .ok (pushMark_suffix _ .key 1))

theorem pushValue_steps : l.Steps l.pushValue := by
  unfold pushValue
  split
  · refine .ok ((pushMark_suffix _ .value 1).trans ?_)
    dsimp only
    split
    · exact List.suffix_refl _
    · rw [cursor_openBlock]
      exact List.suffix_refl _
  · refine .ite (.ok (pushMark_suffix _ .value 1)) (.ite (.ok ?_) .malformed)
    have marked := (l.openBlock l.cursor.column l.count .blockMappingStart).pushMark_suffix .value 1
    rwa [cursor_openBlock] at marked

theorem pushBlockScalar_steps (folds : Bool) : l.Steps (l.pushBlockScalar folds) :=
  .bind l.dropKey_steps fun _ _ => .bind (Token.blockToken_scans _ _ _) fun _ _ =>
    .ok (List.suffix_refl _)

theorem pushPlain_steps : l.Steps l.pushPlain :=
  .bind l.saveKey_steps fun _ _ => .ok (Token.plain_suffix _ _ _)

theorem named_scans {B : Blaming} (make : String → Token) (c : Cursor) :
    Scans B c (named make c) :=
  .bind (Token.name_scans c) fun _ _ => .ok (List.suffix_refl _)

theorem pushToken_steps {ch : Char} (seen : l.cursor.peek = some ch) :
    l.Steps (l.pushToken ch) := by
  have named (make : String → Token) := l.pushNode_steps (named_scans make l.cursor)
  unfold pushToken
  dsimp only
  by_cases mark : ch = '%' ∧ l.cursor.column = 0
  · rw [if_pos mark]
    exact l.pushDirective_steps (mark.1 ▸ seen)
  · rw [if_neg mark]
    refine .ite (l.pushDocumentMark_steps _) (.ite (l.pushDocumentMark_steps _) ?_)
    refine .ite (l.pushFlowStart_steps _) (.ite (l.pushFlowStart_steps _) ?_)
    refine .ite (l.pushFlowEnd_steps _) (.ite (l.pushFlowEnd_steps _) ?_)
    refine .ite l.pushFlowEntry_steps (.ite l.pushBlockEntry_steps ?_)
    refine .ite l.pushKey_steps (.ite l.pushValue_steps (.ite (named _) (.ite (named _) ?_)))
    refine .ite (l.pushNode_steps (Token.tagToken_scans _)) ?_
    refine .ite (l.pushBlockScalar_steps _) (.ite (l.pushBlockScalar_steps _) ?_)
    refine .ite (l.pushNode_steps (Token.quotedToken_scans seen)) ?_
    exact .ite l.pushPlain_steps .malformed

theorem skipToToken_suffix (fuel : Nat) : (skipToToken fuel l).cursor.rest <:+ l.cursor.rest := by
  induction fuel generalizing l with
  | zero => exact List.suffix_refl _
  | succ fuel ih =>
    unfold skipToToken
    extract_lets c d
    have comment : d.rest <:+ l.cursor.rest := l.cursor.comment_suffix
    split
    · exact (ih _).trans ((Cursor.lineBreak_suffix _).trans comment)
    · exact comment

theorem advance_proceeds :
    Proceeds .ofToken l.cursor.rest (fun found => found.1.cursor.rest) l.advance := by
  refine .behind (l.skipToToken_suffix (l.cursor.left + 1)) ?_
  refine .bind (dropStaleKeys_steps _) fun k _ => ?_
  have same := k.cursor_unwind k.cursor.column
  dsimp only
  split
  · refine .bind (unwind_steps ?_ (dropKey_steps _)) fun _ _ => .ok (List.suffix_refl _)
    rw [cursor_unwind, same]
  · next ch seen =>
    refine .bind (unwind_steps same (pushToken_steps _ seen)) fun _ _ => ?_
    exact .ok (List.suffix_refl _)

/-- A run of tokens stops at a fault of the grammar or of one token. -/
theorem readAll_blames (fuel : Nat) {fault : ScalarFault}
    (stops : (readAll fuel l).fault = some (.scalar fault)) : TokenBlame l.cursor.rest fault := by
  induction fuel generalizing l with
  | zero => cases stops
  | succ fuel ih =>
    obtain ⟨blames, leaves⟩ := l.advance_proceeds
    unfold readAll at stops
    split at stops
    · cases stops
    · next advanced => exact Blaming.ofToken.extend (leaves _ advanced) (ih _ stops)
    · next failed =>
      cases stops
      exact blames fault failed

end Layout

theorem tokensOf_blames {text : List Char} {fault : ScalarFault}
    (stops : (tokensOf text).fault = some (.scalar fault)) : TokenBlame text fault := by
  unfold tokensOf at stops
  split at stops
  · have start : (Layout.start text).cursor.rest <:+ text := by
      unfold Layout.start
      dsimp only
      split
      · exact Cursor.next_suffix _
      · exact List.suffix_refl _
    exact Blaming.ofToken.extend start (Layout.readAll_blames _ _ stops)
  · cases stops

end Schematic.Yaml
