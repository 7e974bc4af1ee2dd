import Schematic.Proofs.Reading.Positions
import Schematic.Yaml.Token

/-! What the tokens of a YAML text can fail at besides its grammar, and where. Only two things have
no value as they are read: a version of too many digits, and an escape for a code beyond the last
one. -/

namespace Schematic.Yaml

inductive LongNumber (text : List Char) : ScalarFault → Prop
  | mk {digits behind : List Char} (split : text = digits ++ behind)
      (number : ∀ ch ∈ digits, ch.isDigit = true) (ends : ∀ ch ∈ behind.head?, ch.isDigit = false)
      (long : Value.mostDigits < digits.length) : LongNumber text (.tooLong digits.length)

/-- What may stand between the name of a version directive and one of its numbers. -/
inductive OpensNumber : List Char → Prop
  | first {blanks : List Char} (blank : ∀ ch ∈ blanks, ch = ' ') : OpensNumber blanks
  | second {blanks number : List Char} (blank : ∀ ch ∈ blanks, ch = ' ')
      (digits : ∀ ch ∈ number, ch.isDigit = true) : OpensNumber (blanks ++ (number ++ ['.']))

inductive EscapesBeyond (text : List Char) : ScalarFault → Prop
  | mk {mark : Char} {digits behind : List Char} {code : Nat}
      (place : '\\' :: mark :: (digits ++ behind) <:+ text)
      (width : Token.escapeWidths.lookup mark = some digits.length)
      (spelled : digits.foldlM (fun n d => (hexDigit? d).map (16 * n + ·)) 0 = some code)
      (beyond : 0x110000 ≤ code) :
      EscapesBeyond text (.codePoint (decide (Token.greatestWord < code)))

/-- What a token of a text can be blamed for: a number in the version of a directive, or an escape
behind a double quote. -/
inductive TokenBlame (text : List Char) : ScalarFault → Prop
  | version {opening rest : List Char} {fault : ScalarFault} (opens : OpensNumber opening)
      (place : "%YAML".toList ++ (opening ++ rest) <:+ text) (long : LongNumber rest fault) :
      TokenBlame text fault
  | escape {rest : List Char} {fault : ScalarFault} (place : '"' :: rest <:+ text)
      (beyond : EscapesBeyond rest fault) : TokenBlame text fault

namespace Blaming

def any : Blaming := ⟨fun _ _ => True, fun _ _ => trivial⟩

def ofToken : Blaming where
  holds := TokenBlame
  extend := by
    rintro part text fault suffix (⟨opens, place, long⟩ | ⟨place, beyond⟩)
    · exact .version opens (place.trans suffix) long
    · exact .escape (place.trans suffix) beyond

/-- Only double quotes let a backslash escape something. -/
def ofQuoted (quote : Char) : Blaming where
  holds := fun text fault => quote = '"' ∧ EscapesBeyond text fault
  extend := by
    rintro part text fault suffix ⟨double, ⟨place, width, spelled, beyond⟩⟩
    exact ⟨double, ⟨place.trans suffix, width, spelled, beyond⟩⟩

end Blaming

variable {B : Blaming}

theorem hexNumber_scans (count : Nat) (c : Cursor) : Scans B c (hexNumber count c) := by
  unfold hexNumber
  dsimp only
  split
  · exact .ite (.ok (c.forward_suffix _)) .malformed
  · exact .malformed

theorem hexNumber_ok {count n : Nat} {c d : Cursor} (read : hexNumber count c = .ok (n, d)) :
    ∃ digits, c.rest = digits ++ d.rest ∧ digits.length = count ∧
      digits.foldlM (fun n d => (hexDigit? d).map (16 * n + ·)) 0 = some n := by
  unfold hexNumber at read
  dsimp only at read
  split at read
  · next spelled =>
    split at read
    · next width =>
      cases read
      exact ⟨_, by rw [Cursor.forward_rest, List.take_append_drop], width, spelled⟩
    · cases read
  · cases read

namespace Token

theorem name_scans (c : Cursor) : Scans B c (name c) :=
  .ite (.ok ((c.next.takeWhile_suffix _).trans c.next_suffix)) .malformed

theorem escapedBytes_scans (fuel : Nat) (c : Cursor) (bytes : ByteArray) :
    Scans B c (escapedBytes fuel c bytes) := by
  induction fuel generalizing c bytes with
  | zero => exact .malformed
  | succ fuel ih =>
    refine .ite (.bind (.behind c.next_suffix (hexNumber_scans 2 c.next)) fun _ _ => ih _ _) ?_
    exact .ok (List.suffix_refl _)

theorem tagRest_scans (fuel : Nat) (c : Cursor) (done : String) :
    Scans B c (tagRest fuel c done) := by
  induction fuel generalizing c done with
  | zero => exact .malformed
  | succ fuel ih =>
    have run := c.takeWhile_suffix fun ch => isTagChar ch && ch != '%'
    refine .behind run (.ite (.bind (escapedBytes_scans _ _ _) ?_) (.ok (List.suffix_refl _)))
    rintro ⟨bytes, c⟩ -
    dsimp only
    split
    · exact ih _ _
    · exact .malformed

theorem tagText_scans (c : Cursor) : Scans B c (tagText c) :=
  .ite (tagRest_scans _ _ _) .malformed

theorem tagHandle_scans (c : Cursor) : Scans B c (tagHandle c) := by
  refine .ite (.ite (.ok c.next_suffix) (.ite (.ok ?_) .malformed)) .malformed
  exact (Cursor.next_suffix _).trans ((c.next.takeWhile_suffix _).trans c.next_suffix)

theorem tagProper_scans (c : Cursor) : Scans B c (tagProper c) := by
  refine .ite (.bind (.behind (c.forward_suffix 2) (tagText_scans _)) fun _ _ =>
    .ite (.ok (Cursor.next_suffix _)) .malformed) (.ite (.ok c.next_suffix) (.ite ?_ ?_))
  · exact .bind (tagHandle_scans c) fun _ _ => .bind (tagText_scans _) fun _ _ =>
      .ok (List.suffix_refl _)
  · exact .bind (.behind c.next_suffix (tagText_scans _)) fun _ _ => .ok (List.suffix_refl _)

theorem tagToken_scans (c : Cursor) : Scans B c (tagToken c) :=
  .bind (tagProper_scans c) fun _ _ => .ite (.ok (List.suffix_refl _)) .malformed

theorem directiveNumber_scans (c : Cursor) : Scans .any c (directiveNumber c) :=
  .ite .malformed (.ite ⟨fun _ _ => trivial, nofun⟩ (.ok (c.takeWhile_suffix _)))

theorem isDigit_of_run {c : Cursor} : ∀ ch ∈ (c.takeWhile Char.isDigit).1, ch.isDigit = true :=
  fun _ => List.mem_takeWhile_imp

theorem directiveNumber_ok {n : Nat} {c d : Cursor} (read : directiveNumber c = .ok (n, d)) :
    ∃ digits, c.rest = digits ++ d.rest ∧ ∀ ch ∈ digits, ch.isDigit = true := by
  unfold directiveNumber at read
  dsimp only at read
  split at read
  · cases read
  · split at read
    · cases read
    · cases read
      refine ⟨_, ?_, isDigit_of_run (c := c)⟩
      rw [Cursor.takeWhile_rest]
      exact List.takeWhile_append_dropWhile.symm

theorem directiveNumber_blames (c : Cursor) : Blames (LongNumber c.rest) (directiveNumber c) := by
  refine .ite .malformed ?_
  split
  · next long =>
    rintro _ ⟨⟩
    refine .mk List.takeWhile_append_dropWhile.symm isDigit_of_run ?_ long
    intro ch hch
    have first := List.head?_dropWhile_not Char.isDigit c.rest
    rwa [Option.mem_def.mp hch] at first
  · exact .ok _

theorem versionDirective_scans (c : Cursor) : Scans .any c (versionDirective c) := by
  refine .bind (.behind (c.skipWhile_suffix _) (directiveNumber_scans _)) fun _ _ =>
    .ite (.bind (.behind (Cursor.next_suffix _) (directiveNumber_scans _)) fun _ _ => ?_) .malformed
  exact .ite (.ok (List.suffix_refl _)) .malformed

theorem versionDirective_blames (c : Cursor) : Blames (fun fault => ∃ opening rest,
    OpensNumber opening ∧ c.rest = opening ++ rest ∧ LongNumber rest fault)
      (versionDirective c) := by
  have blank : ∀ ch ∈ c.rest.takeWhile (· == ' '), ch = ' ' := by
    intro ch hch
    have same : (ch == ' ') = true := List.mem_takeWhile_imp (p := (· == ' ')) hch
    exact eq_of_beq same
  have spaced : c.rest = c.rest.takeWhile (· == ' ') ++ (c.skipWhile (· == ' ')).rest := by
    rw [Cursor.skipWhile_rest, List.takeWhile_append_dropWhile]
  refine .bind (fun fault failed => ?_) ?_
  · exact ⟨_, _, .first blank, spaced, directiveNumber_blames _ fault failed⟩
  · rintro ⟨major, d⟩ read
    obtain ⟨number, first, digits⟩ := directiveNumber_ok read
    dsimp only
    split
    · next dot =>
      have point := Cursor.rest_of_peek (eq_of_beq dot)
      refine .bind (fun fault failed => ?_) fun _ _ => .ite (.ok _) .malformed
      refine ⟨_, _, .second blank digits, ?_, directiveNumber_blames _ fault failed⟩
      rw [List.append_assoc, List.append_assoc, List.singleton_append, ← point, ← first]
      exact spaced
    · exact .malformed

theorem tagDirective_scans (c : Cursor) : Scans B c (tagDirective c) := by
  refine .bind (.behind (c.skipWhile_suffix _) (tagHandle_scans _)) fun _ _ => .ite ?_ .malformed
  exact .bind (.behind (Cursor.skipWhile_suffix _ _) (tagText_scans _)) fun _ _ =>
    .ite (.ok (List.suffix_refl _)) .malformed

theorem directiveToken_leaves (c : Cursor) : Scans .any c (directiveToken c) := by
  have named : (c.next.takeWhile isWordChar).2.rest <:+ c.rest :=
    (c.next.takeWhile_suffix _).trans c.next_suffix
  have value (name : String) (d : Cursor) : Scans .any d (directiveValue name d) :=
    .ite (versionDirective_scans d) (.ite (tagDirective_scans d) (.ok (d.skipWhile_suffix _)))
  refine .ite (.bind (.behind named (value _ _)) ?_) .malformed
  rintro ⟨d, c⟩ -
  dsimp only
  split
  · next ended => exact .ok (Cursor.endLine?_suffix ended)
  · exact .malformed

theorem directiveToken_blames {c : Cursor} (mark : c.peek = some '%') :
    Blames (TokenBlame c.rest) (directiveToken c) := by
  have begun := Cursor.rest_of_peek mark
  have named : (c.next.takeWhile isWordChar).2.rest <:+ c.rest :=
    (c.next.takeWhile_suffix _).trans c.next_suffix
  refine .ite (.bind ?_ ?_) .malformed
  · unfold directiveValue
    split
    · next name =>
      intro fault failed
      obtain ⟨opening, rest, opens, behind, long⟩ := versionDirective_blames _ fault failed
      have word : c.next.rest.takeWhile isWordChar = "YAML".toList := by
        rw [← name, String.toList_ofList]
      have after : (c.next.takeWhile isWordChar).2.rest = opening ++ rest := behind
      have split := List.takeWhile_append_dropWhile (p := isWordChar) (l := c.next.rest)
      rw [word, ← Cursor.takeWhile_rest, after] at split
      have spelled : c.rest = "%YAML".toList ++ (opening ++ rest) := by
        rw [begun, ← split]
        simp
      exact .version opens (spelled ▸ List.suffix_refl _) long
    · exact .ite (Proceeds.behind (B := .ofToken) named (tagDirective_scans _)).blames (.ok _)
  · rintro ⟨d, c⟩ -
    dsimp only
    split
    · exact .ok _
    · exact .malformed

theorem quotedBreaks_scans (fuel : Nat) (c : Cursor) (done : List Char) :
    Scans B c (quotedBreaks fuel c done) := by
  induction fuel generalizing c done with
  | zero => exact .malformed
  | succ fuel ih =>
    have blanks := c.skipWhile_suffix isSpace
    refine .ite .malformed (.behind blanks (.ite ?_ (.ok (List.suffix_refl _))))
    exact .behind (Cursor.lineBreak_suffix _) (ih _ _)

theorem quotedSpaces_scans (c : Cursor) : Scans B c (quotedSpaces c) := by
  refine .behind (c.takeWhile_suffix isSpace) ?_
  unfold quotedSpaces
  dsimp only
  split
  · exact .malformed
  · refine .ite (.behind (Cursor.lineBreak_suffix _) ?_) (.ok (List.suffix_refl _))
    exact .bind (quotedBreaks_scans _ _ _) fun _ _ => .ok (List.suffix_refl _)

theorem codePoint_scans (code : Nat) (text : List Char) :
    Proceeds .any text (fun _ => text) (codePoint code) := by
  unfold codePoint
  split
  · exact .ok (List.suffix_refl _)
  · exact ⟨fun _ _ => trivial, nofun⟩

theorem escape_leaves (c : Cursor) : Scans .any c (escape c) := by
  unfold escape
  split
  · exact .malformed
  · split
    · exact .ok c.next_suffix
    · refine .behind c.next_suffix (.bind (hexNumber_scans _ _) fun _ _ => ?_)
      exact .bind (codePoint_scans _ _) fun _ _ => .ok (List.suffix_refl _)
    · refine .ite (.behind c.lineBreak_suffix ?_) .malformed
      exact .bind (quotedBreaks_scans _ _ _) fun _ _ => .ok (List.suffix_refl _)

theorem escape_blames (c : Cursor) : Blames (EscapesBeyond ('\\' :: c.rest)) (escape c) := by
  unfold escape
  split
  · exact .malformed
  · next mark seen =>
    have begun := Cursor.rest_of_peek seen
    split
    · exact .ok _
    · next width _ wide =>
      refine .bind (hexNumber_scans (B := ⟨fun _ => EscapesBeyond _, fun _ => id⟩) _ _).blames ?_
      rintro ⟨code, d⟩ read
      obtain ⟨digits, split, count, spelled⟩ := hexNumber_ok read
      refine .bind ?_ fun _ _ => .ok _
      unfold codePoint
      split
      · exact .ok _
      · next beyond =>
        have here : c.rest = mark :: (digits ++ d.rest) := begun.trans (congrArg _ split)
        have place : '\\' :: mark :: (digits ++ d.rest) <:+ '\\' :: c.rest :=
          here ▸ List.suffix_refl _
        rintro _ ⟨⟩
        exact .mk place (count ▸ wide) spelled (Nat.le_of_not_lt beyond)
    · refine .ite (.bind ?_ fun _ _ => .ok _) .malformed
      exact (quotedBreaks_scans (B := ⟨fun _ => EscapesBeyond _, fun _ => id⟩) _ _ _).blames

theorem escape_scans {c : Cursor} (mark : c.peek = some '\\') :
    Proceeds (.ofQuoted '"') c.rest (fun read => read.2.rest) (escape c.next) where
  blames := by
    rw [Cursor.rest_of_peek mark]
    exact fun fault failed => ⟨rfl, escape_blames c.next fault failed⟩
  leaves := fun read found => ((escape_leaves c.next).leaves read found).trans c.next_suffix

theorem quotedRun_scans (quote : Char) (fuel : Nat) (c : Cursor) (done : Text) :
    Scans (.ofQuoted quote) c (quotedRun quote fuel c done) := by
  induction fuel generalizing c done with
  | zero => exact .malformed
  | succ fuel ih =>
    have run := c.takeWhile_suffix fun ch =>
      !(ch == '\'' || ch == '"' || ch == '\\' || isSpace ch || isBreak ch)
    refine .behind run ?_
    unfold quotedRun
    dsimp only
    split
    · refine .ite (.behind (Cursor.next_suffix _) (ih _ _)) (.ite ?_ (.ok (List.suffix_refl _)))
      exact .behind (Cursor.forward_suffix _ 2) (ih _ _)
    · exact .ite (.ok (List.suffix_refl _)) (.behind (Cursor.next_suffix _) (ih _ _))
    · next mark =>
      split
      · next double =>
        cases eq_of_beq double
        exact .bind (escape_scans mark) fun _ _ => ih _ _
      · exact .behind (Cursor.next_suffix _) (ih _ _)
    · exact .ok (List.suffix_refl _)

theorem quotedRest_scans (quote : Char) (fuel : Nat) (c : Cursor) (done : Text) :
    Scans (.ofQuoted quote) c (quotedRest quote fuel c done) := by
  induction fuel generalizing c done with
  | zero => exact .malformed
  | succ fuel ih =>
    refine .bind (quotedRun_scans _ _ _ _) fun _ _ => .ite (.ok (Cursor.next_suffix _)) ?_
    exact .bind (quotedSpaces_scans _) fun _ _ => ih _ _

theorem quotedToken_scans {quote : Char} {c : Cursor} (seen : c.peek = some quote) :
    Scans .ofToken c (quotedToken quote c) := by
  obtain ⟨blames, leaves⟩ := quotedRest_scans quote (c.left + 1) c.next .empty
  have inner : Scans .ofToken c (quotedRest quote (c.left + 1) c.next .empty) := by
    refine ⟨fun fault failed => ?_, fun read found => (leaves read found).trans c.next_suffix⟩
    obtain ⟨rfl, beyond⟩ := blames fault failed
    exact .escape (Cursor.rest_of_peek seen ▸ List.suffix_refl _) beyond
  exact .bind inner fun _ _ => .ok (List.suffix_refl _)

theorem blockMarks?_suffix {c d : Cursor} {header : Chomping × Option Nat}
    (read : blockMarks? c = some (header, d)) : d.rest <:+ c.rest := by
  unfold blockMarks? at read
  split at read <;> split at read
  · cases read
  · cases read
    exact c.next_suffix
  · cases read
    exact c.forward_suffix 2
  · cases read
  · cases read
    exact List.suffix_refl _
  · split at read
    · cases read
      exact c.forward_suffix 2
    · cases read
      exact c.next_suffix

theorem blockHeader_scans (c : Cursor) : Scans B c (blockHeader c) := by
  unfold blockHeader
  split
  · next marked =>
    split
    · next ended =>
      exact .ok ((Cursor.endLine?_suffix ended).trans (blockMarks?_suffix marked))
    · exact .malformed
  · exact .malformed

theorem blockBreaks_suffix (column fuel : Nat) (c : Cursor) (done : List Char) :
    (blockBreaks column fuel c done).2.rest <:+ c.rest := by
  induction fuel generalizing c done with
  | zero => exact List.suffix_refl _
  | succ fuel ih =>
    have indented : (skipIndent column c).rest <:+ c.rest := c.forward_suffix _
    refine List.IsSuffix.trans ?_ indented
    unfold blockBreaks
    dsimp only
    split
    · exact (ih _ _).trans (Cursor.lineBreak_suffix _)
    · exact List.suffix_refl _

theorem blockIndent_suffix (fuel : Nat) (c : Cursor) (done : List Char) (column : Nat) :
    (blockIndent fuel c done column).2.rest <:+ c.rest := by
  induction fuel generalizing c done column with
  | zero => exact List.suffix_refl _
  | succ fuel ih =>
    unfold blockIndent
    dsimp only
    split
    · exact (ih _ _ _).trans c.next_suffix
    · split
      · exact (ih _ _ _).trans c.lineBreak_suffix
      · exact List.suffix_refl _

theorem blockLines_suffix (folds : Bool) (column fuel : Nat) (c : Cursor)
    (breaks done : List Char) :
    (blockLines folds column fuel c breaks done).2.rest <:+ c.rest := by
  induction fuel generalizing c breaks done with
  | zero => exact List.suffix_refl _
  | succ fuel ih =>
    unfold blockLines
    split
    · have line := (Cursor.lineBreak_suffix _).trans (c.takeWhile_suffix fun ch => !isBreak ch)
      have empty (n : Nat) := (blockBreaks_suffix column n _ []).trans line
      dsimp only
      split
      · exact (ih _ _ _).trans (empty _)
      · exact empty _
    · exact List.suffix_refl _

theorem blockToken_scans (folds : Bool) (enclosing : Int) (c : Cursor) :
    Scans B c (blockToken folds enclosing c) := by
  refine .bind (.behind c.next_suffix (blockHeader_scans _)) ?_
  rintro ⟨⟨chomp, indent?⟩, c⟩ -
  cases indent? with
  | none =>
    dsimp only
    exact .ok ((blockLines_suffix _ _ _ _ _ _).trans (blockIndent_suffix _ _ _ _))
  | some n =>
    dsimp only
    exact .ok ((blockLines_suffix _ _ _ _ _ _).trans (blockBreaks_suffix _ _ _ _))

theorem plainBreaks_suffix (fuel : Nat) (c : Cursor) (done : List Char) :
    (plainBreaks fuel c done).2.rest <:+ c.rest := by
  induction fuel generalizing c done with
  | zero => exact List.suffix_refl _
  | succ fuel ih =>
    unfold plainBreaks
    split
    · exact (ih _ _).trans c.next_suffix
    · split
      · dsimp only
        split
        · exact c.lineBreak_suffix
        · exact (ih _ _).trans c.lineBreak_suffix
      · exact List.suffix_refl _

theorem plainJoint_suffix (c : Cursor) : (plainJoint c).2.rest <:+ c.rest := by
  have spaces := c.takeWhile_suffix (· == ' ')
  have line := (Cursor.lineBreak_suffix _).trans spaces
  unfold plainJoint
  dsimp only
  split
  · split
    · exact line
    · split
      · exact (plainBreaks_suffix _ _ _).trans line
      · exact (plainBreaks_suffix _ _ _).trans line
  · exact spaces

theorem plainParts_suffix (inFlow : Bool) (indent : Int) (fuel : Nat) (c : Cursor)
    (joint done : List Char) (ended : Bool) :
    (plainParts inFlow indent fuel c joint done ended).2.rest <:+ c.rest := by
  induction fuel generalizing c joint done ended with
  | zero => exact List.suffix_refl _
  | succ fuel ih =>
    have part (n : Nat) : (plainJoint (c.forward n)).2.rest <:+ c.rest :=
      (plainJoint_suffix _).trans (c.forward_suffix n)
    unfold plainParts
    split
    · exact List.suffix_refl _
    · dsimp only
      split
      · exact List.suffix_refl _
      · split
        · exact part _
        · split
          · exact part _
          · exact (ih _ _ _ _).trans (part _)

theorem plain_suffix (inFlow : Bool) (enclosing : Int) (c : Cursor) :
    (plain inFlow enclosing c).2.rest <:+ c.rest :=
  plainParts_suffix inFlow (enclosing + 1) (c.left + 1) c [] [] false

end Token

end Schematic.Yaml
