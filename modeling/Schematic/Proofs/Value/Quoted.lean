import Schematic.Proofs.Text.Calendar
import Schematic.Proofs.Text.Quoted
import Schematic.Value.Equality
import Schematic.Value.Text

/-! The quoted text of a key tells the key, but for which object a not-a-number is. A quoted value
opens with a character that tells its kind, and where it ends is seen from what follows it. -/

namespace Schematic

namespace Value

mutual

/-- Whether the floating-point numbers in a key are in their canonical form. -/
def IsCanonical : Value → Prop
  | .float x => x.IsCanonical
  | .tuple items => AreCanonical items
  | _ => True

def AreCanonical : List Value → Prop
  | [] => True
  | v :: vs => IsCanonical v ∧ AreCanonical vs

end

mutual

/-- A key without what tells one not-a-number from another. -/
def blurred : Value → Value
  | .nan _ => .nan 0
  | .tuple items => .tuple (allBlurred items)
  | v => v

def allBlurred : List Value → List Value
  | [] => []
  | v :: vs => blurred v :: allBlurred vs

end

structure IsKey (v : Value) : Prop where
  hashable : v.isHashable = true
  canonical : v.IsCanonical

variable {a b v : Value} {items : List Value} {x y : List Char}

theorem areHashable_iff : areHashable items = true ↔ ∀ v ∈ items, v.isHashable = true := by
  induction items with
  | nil => simp [areHashable]
  | cons v items ih => rw [areHashable, Bool.and_eq_true, ih, List.forall_mem_cons]

theorem areCanonical_iff : AreCanonical items ↔ ∀ v ∈ items, v.IsCanonical := by
  induction items with
  | nil => simp [AreCanonical]
  | cons v items ih => rw [AreCanonical, ih, List.forall_mem_cons]

theorem isKey_tuple : (Value.tuple items).IsKey ↔ ∀ v ∈ items, v.IsKey := by
  refine ⟨fun h v hv => ⟨areHashable_iff.mp ?_ v hv, areCanonical_iff.mp ?_ v hv⟩,
    fun h => ⟨?_, ?_⟩⟩
  · simpa only [isHashable] using h.hashable
  · simpa only [IsCanonical] using h.canonical
  · simpa only [isHashable] using areHashable_iff.mpr fun v hv => (h v hv).hashable
  · simpa only [IsCanonical] using areCanonical_iff.mpr fun v hv => (h v hv).canonical

theorem quotedAll_eq (items : List Value) : quotedAll [] items = items.map quoted := by
  induction items with
  | nil => rfl
  | cons v items ih => rw [quotedAll, ih, List.map_cons, quoted]

inductive Opening where
  | null
  | truth (b : Bool)
  | number
  | notANumber
  | text
  | bytes
  | calendar
  | tuple
  | direction
  | nothing

def Opening.of (c : Char) : Opening :=
  match c with
  | 'N' => .null
  | 'T' => .truth true
  | 'F' => .truth false
  | 'n' => .notANumber
  | '\'' | '"' => .text
  | 'b' => .bytes
  | 'd' => .calendar
  | '(' => .tuple
  | '<' => .direction
  | ')' => .nothing
  | _ => .number

def opening : Value → Opening
  | .null => .null
  | .bool b => .truth b
  | .int _ | .float _ => .number
  | .nan _ => .notANumber
  | .text _ => .text
  | .bytes _ => .bytes
  | .date _ | .moment _ => .calendar
  | .tuple _ => .tuple
  | .direction _ => .direction
  | _ => .nothing

theorem of_opening (v : Value) :
    match v.opening with
    | .null => v = .null
    | .truth b => v = .bool b
    | .number => (∃ n, v = .int n) ∨ ∃ x, v = .float x
    | .notANumber => ∃ object, v = .nan object
    | .text => ∃ s, v = .text s
    | .bytes => ∃ content, v = .bytes content
    | .calendar => (∃ d, v = .date d) ∨ ∃ m, v = .moment m
    | .tuple => ∃ items, v = .tuple items
    | .direction => ∃ d, v = .direction d
    | .nothing => v.isHashable = false := by
  cases v <;> simp [opening, isHashable]

def Opens {κ : Type} (of : Char → κ) (kind : κ) (cs : List Char) : Prop :=
  ∃ c rest, cs = c :: rest ∧ of c = kind

section Opens

variable {κ : Type} {of : Char → κ} {kind kind' : κ} {cs : List Char}

theorem Opens.append (h : Opens of kind cs) (x : List Char) : Opens of kind (cs ++ x) := by
  obtain ⟨c, rest, rfl, known⟩ := h
  exact ⟨c, rest ++ x, rfl, known⟩

theorem Opens.unique (h : Opens of kind cs) (h' : Opens of kind' cs) : kind = kind' := by
  obtain ⟨c, rest, rfl, rfl⟩ := h
  obtain ⟨d, rest', same, rfl⟩ := h'
  cases same
  rfl

structure IsNumeric (of : Char → κ) (kind : κ) : Prop where
  digit : ∀ c : Char, c.isDigit = true → of c = kind
  minus : of '-' = kind

variable (numeric : IsNumeric of kind)

include numeric

theorem opens_signed {negative : Bool} {body : List Char} (h : Opens of kind body) :
    Opens of kind ((if negative then ['-'] else []) ++ body) := by
  cases negative with
  | false => exact h
  | true => exact ⟨'-', body, rfl, numeric.minus⟩

theorem opens_int (n : Int) : Opens of kind (toString n).toList := by
  obtain ⟨c, cs, digits⟩ :=
    List.exists_cons_of_ne_nil (Nat.toDigits_ne_nil (n := n.natAbs) (b := 10))
  have plain := areDigits_toDigits n.natAbs
  rw [digits] at plain
  rw [toList_intText, digits]
  exact opens_signed numeric ⟨c, cs, rfl, numeric.digit c (plain c List.mem_cons_self)⟩

theorem opens_float {f : FloatLayout} (infinity : Opens of kind f.infinity.toList)
    (x : Binary64) : Opens of kind (f.text x).toList := by
  obtain ⟨body, text, written⟩ := FloatLayout.exists_text f x
  rw [text]
  refine opens_signed numeric ?_
  cases hq : x.written? with
  | some q =>
    rw [hq] at written
    obtain ⟨c, rest, starts, digit⟩ := written.numeral.starts
    exact ⟨c, rest, starts, numeric.digit c digit⟩
  | none =>
    rw [hq] at written
    exact written ▸ infinity

end Opens

theorem isNumeric_opening : IsNumeric Opening.of .number where
  digit c digit := by
    unfold Opening.of
    split <;> first | rfl | exact absurd digit (by decide)
  minus := rfl

def closing : List Value → List Char
  | [] => [',', ')']
  | items => furtherItems (items.map quoted) ++ [')']

theorem toList_tuple_cons (v : Value) (items : List Value) :
    (Value.tuple (v :: items)).quoted.toList = '(' :: (v.quoted.toList ++ closing items) := by
  change (inTupleBrackets (quotedAll [] (v :: items))).toList = _
  rw [quotedAll_eq, List.map_cons]
  cases items with
  | nil =>
    simp only [List.map_nil, inTupleBrackets, String.toList_append, List.append_assoc]
    rfl
  | cons w items =>
    simp only [List.map_cons, inTupleBrackets, String.toList_append, toList_items, closing,
      List.append_assoc]
    rfl

theorem opens_quoted (h : v.isHashable = true) : Opens Opening.of v.opening v.quoted.toList := by
  cases v with
  | null => exact ⟨'N', _, rfl, rfl⟩
  | bool b => cases b <;> exact ⟨_, _, rfl, rfl⟩
  | int n => exact opens_int isNumeric_opening n
  | float x => exact opens_float isNumeric_opening ⟨'i', ['n', 'f'], by decide, rfl⟩ x
  | nan object =>
    change Opens Opening.of .notANumber FloatLayout.display.notANumber.toList
    exact ⟨'n', ['a', 'n'], by decide, rfl⟩
  | text s =>
    change Opens Opening.of .text s.inQuotes.toList
    rw [toList_inQuotes]
    rcases Quoted.quoteFor_isQuote s with single | double
    · rw [single]
      exact ⟨_, _, rfl, rfl⟩
    · rw [double]
      exact ⟨_, _, rfl, rfl⟩
  | bytes content =>
    obtain ⟨quote, -, written⟩ := exists_quotedBytes content
    exact ⟨'b', _, written, rfl⟩
  | date d =>
    change Opens Opening.of .calendar d.quoted.toList
    rw [Date.toList_quoted]
    exact ⟨'d', _, rfl, rfl⟩
  | moment m =>
    change Opens Opening.of .calendar m.quoted.toList
    rw [Moment.toList_quoted]
    exact ⟨'d', _, rfl, rfl⟩
  | tuple items =>
    cases items with
    | nil => exact ⟨'(', _, rfl, rfl⟩
    | cons v items => exact ⟨'(', _, toList_tuple_cons v items, rfl⟩
  | direction d => cases d <;> exact ⟨'<', _, rfl, rfl⟩
  | list | mapping | set | knot | again => cases h

theorem atEnd_closing (items : List Value) (x : List Char) : AtEnd (closing items ++ x) := by
  cases items with
  | nil => exact atEnd_comma _
  | cons v items => exact atEnd_comma _

/-- The comma behind a single item is none between two. -/
theorem closing_inj {vs ws : List Value} (same : closing vs ++ x = closing ws ++ y) :
    furtherItems (vs.map quoted) ++ ')' :: x = furtherItems (ws.map quoted) ++ ')' :: y := by
  cases vs with
  | nil =>
    cases ws with
    | nil => exact congrArg (')' :: ·) (List.append_cancel_left same)
    | cons => cases same
  | cons v vs =>
    cases ws with
    | nil => cases same
    | cons w ws =>
      rw [closing, closing, List.append_assoc, List.append_assoc] at same
      · exact same
      · nofun
      · nofun

theorem opening_eq (ha : a.IsKey) (hb : b.IsKey)
    (same : a.quoted.toList ++ x = b.quoted.toList ++ y) : a.opening = b.opening :=
  ((opens_quoted ha.hashable).append x).unique (same ▸ (opens_quoted hb.hashable).append y)

theorem quoted_ne_bracket (h : v.isHashable = true) : v.quoted.toList ++ x ≠ ')' :: y := by
  intro same
  have opens : Opens Opening.of .nothing (v.quoted.toList ++ x) := ⟨')', y, same, rfl⟩
  have kind := v.of_opening
  rw [((opens_quoted h).append x).unique opens] at kind
  exact Bool.false_ne_true (kind.symm.trans h)

/-- A day is not written as a moment. -/
theorem date_ne_moment (d : Date) (m : Moment) :
    d.quoted.toList ++ x ≠ m.quoted.toList ++ y := by
  rw [Date.toList_quoted, Moment.toList_quoted]
  intro same
  simp at same

theorem toList_direction (d : Direction) : (Value.direction d).quoted.toList =
    (match d with
      | .input => "<Direction.INPUT: 'input'>"
      | .output => "<Direction.OUTPUT: 'output'>").toList := by
  cases d <;> rfl

theorem direction_inj {d e : Direction}
    (same : (Value.direction d).quoted.toList ++ x = (Value.direction e).quoted.toList ++ y) :
    d = e ∧ x = y := by
  rw [toList_direction, toList_direction] at same
  cases d <;> cases e
  · exact ⟨rfl, List.append_cancel_left same⟩
  · simp at same
  · simp at same
  · exact ⟨rfl, List.append_cancel_left same⟩

mutual

theorem quoted_inj : ∀ {a b : Value}, a.IsKey → b.IsKey → ∀ {x y : List Char}, AtEnd x → AtEnd y →
    a.quoted.toList ++ x = b.quoted.toList ++ y → a.blurred = b.blurred ∧ x = y := by
  intro a b ha hb x y hx hy same
  -- the first character of the text tells of what family the other value is
  have other := b.of_opening
  rw [← opening_eq ha hb same] at other
  cases a with
  | null =>
    cases other
    exact ⟨rfl, List.append_cancel_left same⟩
  | bool t =>
    cases other
    exact ⟨rfl, List.append_cancel_left same⟩
  | int n =>
    rcases other with ⟨m, rfl⟩ | ⟨z, rfl⟩
    · obtain ⟨text, ends⟩ := item_inj (intText_isWhole n) (intText_isWhole m) hx hy same
      cases intText_inj (String.toList_inj.mp text)
      exact ⟨rfl, ends⟩
    · have text := (item_inj (intText_isWhole n)
        (FloatLayout.text_isWhole FloatLayout.display_hasWord z) hx hy same).1
      exact absurd (String.toList_inj.mp text) (intText_ne_text FloatLayout.display_hasWord n z)
  | float z =>
    have word := FloatLayout.display_hasWord
    rcases other with ⟨m, rfl⟩ | ⟨w, rfl⟩
    · have text := (item_inj (FloatLayout.text_isWhole word z) (intText_isWhole m) hx hy same).1
      exact absurd (String.toList_inj.mp text).symm (intText_ne_text word m z)
    · obtain ⟨text, ends⟩ := item_inj (FloatLayout.text_isWhole word z)
        (FloatLayout.text_isWhole word w) hx hy same
      cases FloatLayout.text_inj word (by simpa [IsCanonical] using ha.canonical)
        (by simpa [IsCanonical] using hb.canonical) (String.toList_inj.mp text)
      exact ⟨rfl, ends⟩
  | nan object =>
    obtain ⟨object', rfl⟩ := other
    exact ⟨rfl, List.append_cancel_left same⟩
  | text s =>
    obtain ⟨t, rfl⟩ := other
    obtain ⟨rfl, ends⟩ := inQuotes_inj same
    exact ⟨rfl, ends⟩
  | bytes content =>
    obtain ⟨content', rfl⟩ := other
    obtain ⟨rfl, ends⟩ := quotedBytes_inj same
    exact ⟨rfl, ends⟩
  | date d =>
    rcases other with ⟨e, rfl⟩ | ⟨m, rfl⟩
    · obtain ⟨rfl, ends⟩ := Date.quoted_inj same
      exact ⟨rfl, ends⟩
    · exact absurd same (date_ne_moment d m)
  | moment m =>
    rcases other with ⟨d, rfl⟩ | ⟨n, rfl⟩
    · exact absurd same.symm (date_ne_moment d m)
    · obtain ⟨rfl, ends⟩ := Moment.quoted_inj same
      exact ⟨rfl, ends⟩
  | direction d =>
    obtain ⟨e, rfl⟩ := other
    obtain ⟨rfl, ends⟩ := direction_inj same
    exact ⟨rfl, ends⟩
  | tuple vs =>
    obtain ⟨ws, rfl⟩ := other
    rw [isKey_tuple] at ha hb
    cases vs with
    | nil =>
      cases ws with
      | nil => exact ⟨rfl, List.append_cancel_left same⟩
      | cons w ws =>
        rw [toList_tuple_cons, List.cons_append, List.append_assoc] at same
        have inner := (List.cons.inj same).2
        exact absurd inner.symm (quoted_ne_bracket (hb w List.mem_cons_self).hashable)
    | cons v vs =>
      rw [toList_tuple_cons, List.cons_append, List.append_assoc] at same
      cases ws with
      | nil =>
        have inner := (List.cons.inj same).2
        exact absurd inner (quoted_ne_bracket (ha v List.mem_cons_self).hashable)
      | cons w ws =>
        rw [toList_tuple_cons, List.cons_append, List.append_assoc] at same
        obtain ⟨first, rest⟩ := quoted_inj (ha v List.mem_cons_self) (hb w List.mem_cons_self)
          (atEnd_closing vs x) (atEnd_closing ws y) (List.cons.inj same).2
        obtain ⟨others, ends⟩ := items_inj (fun u hu => ha u (List.mem_cons_of_mem _ hu))
          (fun u hu => hb u (List.mem_cons_of_mem _ hu)) (closing_inj rest)
        refine ⟨?_, ends⟩
        rw [blurred, blurred, allBlurred, allBlurred, first, others]
  | list | mapping | set | knot | again => exact absurd ha.hashable (by simp [isHashable])

theorem items_inj : ∀ {vs ws : List Value}, (∀ v ∈ vs, v.IsKey) → (∀ w ∈ ws, w.IsKey) →
    ∀ {x y : List Char}, furtherItems (vs.map quoted) ++ ')' :: x =
      furtherItems (ws.map quoted) ++ ')' :: y → allBlurred vs = allBlurred ws ∧ x = y := by
  intro vs ws hv hw x y same
  cases vs with
  | nil =>
    cases ws with
    | nil => exact ⟨rfl, (List.cons.inj same).2⟩
    | cons => cases same
  | cons v vs =>
    cases ws with
    | nil => cases same
    | cons w ws =>
      simp only [furtherItems, List.map_cons, List.flatMap_cons, List.cons_append,
        List.append_assoc, List.cons.injEq, true_and] at same
      obtain ⟨first, rest⟩ := quoted_inj (hv v List.mem_cons_self) (hw w List.mem_cons_self)
        (atEnd_furtherItems _ x) (atEnd_furtherItems _ y) same
      obtain ⟨others, ends⟩ := items_inj (fun u hu => hv u (List.mem_cons_of_mem _ hu))
        (fun u hu => hw u (List.mem_cons_of_mem _ hu)) rest
      exact ⟨by rw [allBlurred, allBlurred, first, others], ends⟩

end

mutual

theorem quotedIn_blurred (around : List KnotId) : ∀ v : Value,
    v.blurred.quotedIn around = v.quotedIn around
  | .tuple items => by rw [blurred, quotedIn, quotedIn, quotedAll_blurred around items]
  | .nan _ => by rw [blurred, quotedIn, quotedIn]
  | .null | .bool _ | .int _ | .float _ | .text _ | .bytes _ | .date _ | .moment _ | .list _
  | .mapping _ | .set _ | .direction _ | .knot _ _ | .again _ _ => by
    rw [blurred] <;> nofun

theorem quotedAll_blurred (around : List KnotId) : ∀ items : List Value,
    quotedAll around (allBlurred items) = quotedAll around items
  | [] => rfl
  | v :: items => by
    rw [allBlurred, quotedAll, quotedAll, quotedIn_blurred around v,
      quotedAll_blurred around items]

end

/-- The quoted texts of two keys are the same if the keys are, but for which objects the
not-a-numbers in them are. -/
theorem quoted_iff (ha : a.IsKey) (hb : b.IsKey) : a.quoted = b.quoted ↔ a.blurred = b.blurred := by
  constructor
  · intro same
    exact (quoted_inj ha hb atEnd_nil atEnd_nil (by rw [same])).1
  · intro same
    rw [quoted, quoted, ← quotedIn_blurred, same, quotedIn_blurred]

theorem blurred_cases (v : Value) :
    v.blurred = v ∨ (∃ object, v = .nan object) ∨ ∃ items, v = .tuple items := by
  cases v <;> simp [blurred]

mutual

/-- Keys that are the same for a table and are written alike are one key. -/
theorem eq_of_blurred : ∀ {a b : Value}, a.same b = true → a.blurred = b.blurred → a = b := by
  intro a b same alike
  cases a with
  | nan object =>
    cases b with
    | nan object' =>
      rw [Value.same, beq_iff_eq] at same
      rw [same]
    | _ => simp [blurred] at alike
  | tuple vs =>
    cases b with
    | tuple ws =>
      rw [Value.same] at same
      rw [blurred, blurred, Value.tuple.injEq] at alike
      rw [eq_of_allBlurred same alike]
    | _ => simp [blurred] at alike
  | _ =>
    rcases b.blurred_cases with plain | ⟨object, rfl⟩ | ⟨items, rfl⟩
    · rwa [plain, blurred] at alike
      all_goals nofun
    · simp [blurred] at alike
    · simp [blurred] at alike

theorem eq_of_allBlurred : ∀ {vs ws : List Value}, sameItems vs ws = true →
    allBlurred vs = allBlurred ws → vs = ws := by
  intro vs ws same alike
  cases vs with
  | nil =>
    cases ws with
    | nil => rfl
    | cons => cases alike
  | cons v vs =>
    cases ws with
    | nil => cases alike
    | cons w ws =>
      rw [sameItems, Bool.and_eq_true] at same
      rw [allBlurred, allBlurred, List.cons.injEq] at alike
      rw [eq_of_blurred same.1 alike.1, eq_of_allBlurred same.2 alike.2]

end

end Value

end Schematic
