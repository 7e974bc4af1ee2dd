import Schematic.Drawing.JsonStyle
import Schematic.Proofs.Value.Meaning
import Schematic.Proofs.Value.Quoted

/-! When a document shows two identities by one value. Equal identities are shown alike unless one
of them is a truth value and the other one another number, or they are collections, bytes or points
in time that differ in a way that equality passes over. Other identities are shown apart, unless
the text of one is that of the other when both are written. -/

namespace Schematic

namespace Json

def worth? : Json → Option Worth
  | .int n => (Value.int n).worth?
  | .float x => (Value.float x).worth?
  | _ => none

/-- Whether two documents are the same value: they are written alike, or are numbers that are worth
the same. -/
def SameValue (v w : Json) : Prop :=
  v.print 4 0 = w.print 4 0 ∨ ∃ x y, v.worth? = some x ∧ w.worth? = some y ∧ x.equal y = true

inductive Kind where
  | truth (b : Bool)
  | number
  | notANumber
  | text
  deriving DecidableEq

def Kind.of (c : Char) : Kind :=
  match c with
  | 't' => .truth true
  | 'f' => .truth false
  | 'N' => .notANumber
  | '"' => .text
  | _ => .number

/-- A value that is no collection, of some kind. Numbers are in their canonical form. -/
inductive IsScalar : Kind → Json → Prop
  | truth (b : Bool) : IsScalar (.truth b) (.bool b)
  | int (n : Int) : IsScalar .number (.int n)
  | float {x : Binary64} (canonical : x.IsCanonical) : IsScalar .number (.float x)
  | notANumber : IsScalar .notANumber .notANumber
  | text (s : Text) : IsScalar .text (.text s)

variable {kind kind' : Kind} {v w : Json}

theorem isNumeric_kind : Value.IsNumeric Kind.of .number where
  digit c digit := by
    unfold Kind.of
    split <;> first | rfl | exact absurd digit (by decide)
  minus := rfl

theorem IsScalar.opens (h : v.IsScalar kind) : Value.Opens Kind.of kind (v.print 4 0).toList := by
  cases h with
  | truth b => cases b <;> exact ⟨_, _, rfl, rfl⟩
  | int n => exact Value.opens_int isNumeric_kind n
  | @float x _ =>
    have infinity : Value.Opens Kind.of .number FloatLayout.document.infinity.toList :=
      ⟨'I', ['n', 'f', 'i', 'n', 'i', 't', 'y'], by decide, rfl⟩
    exact Value.opens_float isNumeric_kind infinity x
  | notANumber =>
    change Value.Opens Kind.of .notANumber FloatLayout.document.notANumber.toList
    exact ⟨'N', ['a', 'N'], by decide, rfl⟩
  | text s =>
    change Value.Opens Kind.of .text (quote s).toList
    rw [toList_quote]
    exact ⟨'"', _, rfl, rfl⟩

theorem IsScalar.kind_of_worth {x : Worth} (h : v.IsScalar kind) (found : v.worth? = some x) :
    kind = .number := by
  cases h with
  | int n => rfl
  | float canonical => rfl
  | truth b => cases found
  | notANumber => cases found
  | text s => cases found

/-- Numbers that are written alike are one number. -/
theorem IsScalar.eq_of_print (hv : v.IsScalar .number) (hw : w.IsScalar .number)
    (same : v.print 4 0 = w.print 4 0) : v = w := by
  have word := FloatLayout.document_hasWord
  cases hv with
  | int n =>
    cases hw with
    | int m => rw [intText_inj same]
    | @float y _ => exact absurd same (intText_ne_text word n y)
  | @float x canonical =>
    cases hw with
    | int m => exact absurd same.symm (intText_ne_text word m x)
    | @float y canonical' => rw [FloatLayout.text_inj word canonical canonical' same]

/-- The same value is of one kind. -/
theorem SameValue.kind_eq (hv : v.IsScalar kind) (hw : w.IsScalar kind') (same : v.SameValue w) :
    kind = kind' := by
  rcases same with written | ⟨x, y, left, right, -⟩
  · exact hv.opens.unique (written ▸ hw.opens)
  · rw [hv.kind_of_worth left, hw.kind_of_worth right]

theorem sameValue_number {x y : Worth} (hv : v.IsScalar .number) (hw : w.IsScalar .number)
    (left : v.worth? = some x) (right : w.worth? = some y) :
    v.SameValue w ↔ x.equal y = true := by
  constructor
  · rintro (written | ⟨x', y', left', right', same⟩)
    · cases hv.eq_of_print hw written
      cases left.symm.trans right
      exact Worth.equal_iff.mpr rfl
    · cases left.symm.trans left'
      cases right.symm.trans right'
      exact same
  · exact fun same => .inr ⟨x, y, left, right, same⟩

theorem sameValue_text {s t : Text} : (text s).SameValue (text t) ↔ s.units = t.units := by
  rw [← quote_inj]
  exact or_iff_left nofun

end Json

namespace Value

/-- A collection, bytes or a point in time: what a document shows by its quoted text. -/
def IsComposite (v : Value) : Prop := DebugJson.isShownAsIs v = false

def isTruth : Value → Bool
  | .bool _ => true
  | _ => false

structure WrittenLike (a b : Value) : Prop where
  truth : a.isTruth = b.isTruth
  composite : a.IsComposite → a = b

/-- Whether a document writes two identities in one way though they may differ. -/
inductive MistakenFor : Value → Value → Prop
  /-- All that are not a number are written alike. -/
  | notANumber (object object' : Nat) : MistakenFor (.nan object) (.nan object')
  /-- Half a pair and the other one are written like the character. -/
  | texts {a b : Value} {s t : Text} (left : a.text? = some s) (right : b.text? = some t)
    (units : s.units = t.units) : MistakenFor a b
  /-- A text can be what another identity is written as. -/
  | quoted {a b : Value} {s : Text} (text : a.text? = some s) (other : b.IsComposite)
    (units : s.units = (b.quoted : Text).units) : MistakenFor a b
  | quoting {a b : Value} {s : Text} (other : a.IsComposite) (text : b.text? = some s)
    (units : (a.quoted : Text).units = s.units) : MistakenFor a b
  /-- What is not a number is written alike inside of others. -/
  | composites {a b : Value} (left : a.IsComposite) (right : b.IsComposite)
    (alike : a.blurred = b.blurred) : MistakenFor a b

def shown (v : Value) : Json :=
  if DebugJson.isShownAsIs v then .ofValue v else .text v.quoted

inductive Family where
  | number
  | notANumber
  | text
  | composite
  | nothing

def family (m : Meaning) : Family :=
  match m with
  | .number _ | .infinite _ => .number
  | .notANumber _ => .notANumber
  | .text _ => .text
  | .bytes _ | .date _ | .moment _ _ | .tuple _ => .composite
  | .null | .nothing => .nothing

/-- How an identity that can be shown is shown, by what it is to equality and by what its text tells
of it. -/
inductive Showing (v : Value) : Family → Json.Kind → Prop
  | truth (b : Bool) (same : v = .bool b) : Showing v .number (.truth b)
  | number {x : Worth} (plain : v.isTruth = false) (worth : v.worth? = some x)
    (worth' : v.shown.worth? = some x) (scalar : v.shown.IsScalar .number) :
    Showing v .number .number
  | notANumber (object : Nat) (same : v = .nan object) : Showing v .notANumber .notANumber
  | text {s : Text} (text : v.text? = some s) : Showing v .text .text
  | composite (other : v.IsComposite) : Showing v .composite .text

variable {a b v : Value} {s t : Text}

theorem shown_text (text : v.text? = some s) : v.shown = .text s := by
  cases v with
  | text => cases text; simp [shown, DebugJson.isShownAsIs, text?, Json.ofValue]
  | direction => cases text; simp [shown, DebugJson.isShownAsIs, text?, Json.ofValue]
  | _ => cases text

theorem shown_composite (other : v.IsComposite) : v.shown = .text v.quoted := by
  rw [IsComposite] at other
  simp [shown, other]

theorem exists_showing (key : v.IsKey) (bound : v.isNull = false)
    (writable : v.isWritable = true) : ∃ family kind, v.Showing family kind := by
  have canonical := key.canonical
  cases v with
  | null => cases bound
  | bool b => exact ⟨_, _, .truth b rfl⟩
  | int n =>
    have same : (Value.int n).shown = .int n := by
      rw [isWritable] at writable
      simp [shown, DebugJson.isShownAsIs, isNumber, worth?, Json.ofValue, writable]
    exact ⟨_, _, .number rfl rfl (same ▸ rfl) (same ▸ .int n)⟩
  | float x =>
    have same : (Value.float x).shown = .float x := by
      cases x <;> simp [shown, DebugJson.isShownAsIs, isNumber, worth?, Json.ofValue]
    rw [IsCanonical] at canonical
    cases x with
    | infinite negative => exact ⟨_, _, .number rfl rfl (same ▸ rfl) (same ▸ .float canonical)⟩
    | finite negative m e => exact ⟨_, _, .number rfl rfl (same ▸ rfl) (same ▸ .float canonical)⟩
  | nan object => exact ⟨_, _, .notANumber object rfl⟩
  | text s => exact ⟨_, _, .text rfl⟩
  | direction d => exact ⟨_, _, .text rfl⟩
  | bytes | date | moment | tuple => exact ⟨_, _, .composite rfl⟩
  | list | mapping | set | knot | again => exact absurd key.hashable (by simp [isHashable])

theorem family_of_worth {x : Worth} (worth : v.worth? = some x) :
    family v.meaning = .number := by
  rw [meaning_of_worth worth]
  cases x <;> rfl

theorem family_of_text (text : v.text? = some s) : family v.meaning = .text := by
  cases v with
  | text | direction => rfl
  | _ => cases text

theorem family_of_composite (key : v.IsKey) (other : v.IsComposite) :
    family v.meaning = .composite := by
  cases v with
  | bytes | date | tuple => rfl
  | moment m =>
    change family m.meaning = .composite
    cases known : m.offset <;> simp only [Moment.meaning, known, family]
  | list | mapping | set | knot | again => exact absurd key.hashable (by simp [isHashable])
  | float x => cases x <;> cases other
  | null | bool | int | nan | text | direction => cases other

variable {f f' : Family} {kind kind' : Json.Kind}

theorem Showing.family_eq (h : v.Showing f kind) (key : v.IsKey) : family v.meaning = f := by
  cases h with
  | truth b same => exact same ▸ rfl
  | number _ worth _ _ => exact family_of_worth worth
  | notANumber object same => exact same ▸ rfl
  | text text => exact family_of_text text
  | composite other => exact family_of_composite key other

theorem Showing.isScalar (h : v.Showing f kind) : v.shown.IsScalar kind := by
  cases h with
  | truth b same => exact same ▸ .truth b
  | number _ _ _ scalar => exact scalar
  | notANumber object same => exact same ▸ .notANumber
  | text text => exact shown_text text ▸ .text _
  | composite other => exact shown_composite other ▸ .text _

theorem equal_truth_iff {c d : Bool} : (Value.bool c).equal (.bool d) = true ↔ c = d := by
  rw [equal_iff_of_keys rfl rfl]
  cases c <;> cases d <;>
    simp [meaning, Worth.meaning, Dyadic.toRat, Dyadic.ofInt, isNotANumber]

theorem equal_text_iff (ha : a.IsKey) (hb : b.IsKey) (left : a.text? = some s)
    (right : b.text? = some t) : a.equal b = true ↔ s = t := by
  have meaning {v : Value} {s : Text} (text : v.text? = some s) :
      v.meaning = .text s ∧ v.isNotANumber = false := by
    cases v with
    | text | direction => cases text; exact ⟨rfl, rfl⟩
    | _ => cases text
  rw [equal_iff_of_keys ha.hashable hb.hashable, (meaning left).1, (meaning right).1,
    and_iff_left (meaning left).2, Meaning.text.injEq]

theorem sameValue_composite (ha : a.IsKey) (hb : b.IsKey) (left : a.IsComposite)
    (right : b.IsComposite) : a.shown.SameValue b.shown ↔ a.blurred = b.blurred := by
  rw [shown_composite left, shown_composite right, Json.sameValue_text, Text.units_ofString_inj,
    quoted_iff ha hb]

/-- Only numbers are truth values. -/
theorem Showing.isTruth_eq (h : v.Showing f kind) (other : f ≠ .number) : v.isTruth = false := by
  cases h with
  | truth | number => exact absurd rfl other
  | notANumber object same => exact same ▸ rfl
  | text text =>
    cases v with
    | bool => cases text
    | _ => rfl
  | composite composite =>
    cases v with
    | bool => cases composite
    | _ => rfl

theorem Showing.not_isComposite (h : v.Showing f kind) (key : v.IsKey) (other : f ≠ .composite) :
    ¬ v.IsComposite := fun composite =>
  other ((h.family_eq key).symm.trans (family_of_composite key composite))

theorem sameValue_of_equal (ha : a.IsKey) (hb : b.IsKey) (left : a.Showing f kind)
    (right : b.Showing f' kind') (joined : a.equal b = true) :
    a.shown.SameValue b.shown ↔ a.WrittenLike b := by
  have standing := ((equal_iff_of_keys ha.hashable hb.hashable).mp joined).1
  obtain rfl : f = f' :=
    (left.family_eq ha).symm.trans ((congrArg family standing).trans (right.family_eq hb))
  -- one family has one kind of value, but for numbers, of which some are truth values
  have kinds := Json.SameValue.kind_eq left.isScalar right.isScalar
  have simple := left.not_isComposite ha
  cases left with
  | truth s same =>
    cases right with
    | truth t same' =>
      subst same same'
      obtain rfl := equal_truth_iff.mp joined
      exact iff_of_true (.inl rfl) ⟨rfl, fun other => absurd other (simple nofun)⟩
    | number plain worth worth' scalar =>
      subst same
      exact iff_of_false (fun written => nomatch kinds written)
        fun like => nomatch like.truth.trans plain
  | number plain worth worth' scalar =>
    cases right with
    | truth t same' =>
      subst same'
      exact iff_of_false (fun written => nomatch kinds written)
        fun like => nomatch plain.symm.trans like.truth
    | number plain' worth₂ worth₂' scalar' =>
      rw [meaning_of_worth worth, meaning_of_worth worth₂] at standing
      refine iff_of_true ?_ ⟨plain.trans plain'.symm, fun other => absurd other (simple nofun)⟩
      exact (Json.sameValue_number scalar scalar' worth' worth₂').mpr (Worth.equal_iff.mpr standing)
  | notANumber object same =>
    rw [same] at joined
    cases joined
  | text text =>
    have plain := (Showing.text text).isTruth_eq nofun
    have plain' := right.isTruth_eq nofun
    cases right with
    | text text' =>
      have same := (equal_text_iff ha hb text text').mp joined
      refine iff_of_true ?_ ⟨plain.trans plain'.symm, fun other => absurd other (simple nofun)⟩
      exact .inl (by rw [shown_text text, shown_text text', same])
  | composite other =>
    have plain := (Showing.composite other).isTruth_eq nofun
    have plain' := right.isTruth_eq nofun
    cases right with
    | composite other' =>
      rw [sameValue_composite ha hb other other']
      constructor
      · intro alike
        refine ⟨plain.trans plain'.symm, fun _ => eq_of_blurred ?_ alike⟩
        exact (same_iff ha.hashable hb.hashable).mpr standing
      · exact fun like => congrArg blurred (like.composite other)

theorem sameValue_of_unequal (ha : a.IsKey) (hb : b.IsKey) (left : a.Showing f kind)
    (right : b.Showing f' kind') (apart : ¬ a.equal b = true) :
    a.shown.SameValue b.shown ↔ a.MistakenFor b := by
  constructor
  · intro written
    -- values of one kind come of one family, but for texts, which also stand for what is composite
    obtain rfl := written.kind_eq left.isScalar right.isScalar
    cases left with
    | truth s same =>
      cases right with
      | truth t same' =>
        subst same same'
        exact absurd (equal_truth_iff.mpr rfl) apart
    | number plain worth worth' scalar =>
      cases right with
      | number plain' worth₂ worth₂' scalar' =>
        have same := (Json.sameValue_number scalar scalar' worth' worth₂').mp written
        refine absurd ?_ apart
        rw [equal_iff_of_keys ha.hashable hb.hashable, meaning_of_worth worth,
          meaning_of_worth worth₂]
        refine ⟨Worth.equal_iff.mp same, ?_⟩
        cases a with
        | nan => cases worth
        | _ => rfl
    | notANumber object same =>
      cases right with
      | notANumber object' same' => exact same ▸ same' ▸ .notANumber object object'
    | text text =>
      rw [shown_text text] at written
      cases right with
      | text text' =>
        rw [shown_text text'] at written
        exact .texts text text' (Json.sameValue_text.mp written)
      | composite other' =>
        rw [shown_composite other'] at written
        exact .quoted text other' (Json.sameValue_text.mp written)
    | composite other =>
      cases right with
      | text text' =>
        rw [shown_composite other, shown_text text'] at written
        exact .quoting other text' (Json.sameValue_text.mp written)
      | composite other' =>
        exact .composites other other' ((sameValue_composite ha hb other other').mp written)
  · intro mistaken
    cases mistaken with
    | notANumber object object' => exact .inl rfl
    | texts text text' units =>
      rw [shown_text text, shown_text text', Json.sameValue_text]
      exact units
    | quoted text other' units =>
      rw [shown_text text, shown_composite other', Json.sameValue_text]
      exact units
    | quoting other text' units =>
      rw [shown_composite other, shown_text text', Json.sameValue_text]
      exact units
    | composites other other' alike => exact (sameValue_composite ha hb other other').mpr alike

end Value

end Schematic
