import Schematic.Calendar
import Schematic.Proofs.Number.Numeral

/-! Quoted days and moments tell what they are, whatever follows them: they list their numbers, and
a moment says behind them how far its clock is ahead. -/

namespace Schematic

theorem furtherItems_append (as bs : List String) :
    furtherItems (as ++ bs) = furtherItems as ++ furtherItems bs := List.flatMap_append

variable {x y : List Char}

namespace Date

theorem toList_quoted (d : Date) : d.quoted.toList = "datetime.date(".toList ++
    ((toString d.year).toList ++ (furtherItems [toString d.month, toString d.day] ++ [')'])) := by
  simp only [quoted, numbers, List.map_cons, List.map_nil, String.toList_append, toList_items,
    List.append_assoc]
  rfl

theorem quoted_inj {d e : Date} (same : d.quoted.toList ++ x = e.quoted.toList ++ y) :
    d = e ∧ x = y := by
  simp only [toList_quoted, List.append_assoc, List.append_cancel_left_eq,
    List.singleton_append] at same
  have whole (d : Date) : ∀ i ∈ [toString d.year, toString d.month, toString d.day],
      IsWhole i.toList := by
    simp only [List.forall_mem_cons, natText_isWhole, true_and]
    nofun
  obtain ⟨items, ends⟩ := items_inj (whole d) (whole e) same
  have numbers : [d.year, d.month, d.day] = [e.year, e.month, e.day] := natTexts_inj items
  cases d
  cases e
  simp only [List.cons.injEq, and_true] at numbers
  obtain ⟨rfl, rfl, rfl⟩ := numbers
  exact ⟨rfl, ends⟩

end Date

namespace Moment

def named (name : String) (n : Int) : List String := if n = 0 then [] else [name ++ toString n]

def durationItems (seconds : Int) : List String :=
  named "days=" (seconds / daySeconds) ++ named "seconds=" (seconds % daySeconds)

def zoneStart : String := "tzinfo=" ++ ("datetime.timezone(" ++ "datetime.timedelta(")

/-- What a moment lists behind its numbers, up to the first closing bracket. -/
def zoneItems : Option Int → List String
  | none => []
  | some seconds =>
    if seconds = 0 then ["tzinfo=datetime.timezone.utc"]
    else (zoneStart ++ (durationItems seconds).headD "0") :: (durationItems seconds).tail

def zoneEnd (offset : Option Int) : List Char := if offset.getD 0 = 0 then [] else [')', ')']

def fine (second microsecond : Nat) : List Nat :=
  if microsecond ≠ 0 then [second, microsecond] else if second ≠ 0 then [second] else []

def furtherNumbers (m : Moment) : List Nat :=
  [m.date.month, m.date.day, m.hour, m.minute] ++ fine m.second m.microsecond

theorem named_inj {name : String} {m n : Int} (same : named name m = named name n) : m = n := by
  unfold named at same
  split at same <;> split at same
  · next zero zero' => exact zero.trans zero'.symm
  · cases same
  · cases same
  · have chars := congrArg String.toList (List.cons.inj same).1
    rw [String.toList_append, String.toList_append, List.append_cancel_left_eq] at chars
    exact intText_inj (String.toList_inj.mp chars)

theorem durationItems_inj {s t : Int} (same : durationItems s = durationItems t) : s = t := by
  have days (n : Int) : ∀ i ∈ named "days=" n, (i.toList.head? == some 'd') = true := by
    unfold named
    split <;> simp
  have seconds (n : Int) :
      ∀ i ∈ (named "seconds=" n).head?, (i.toList.head? == some 'd') = false := by
    unfold named
    split <;> simp
  obtain ⟨sameDays, sameSeconds⟩ := run_inj (p := fun i : String => i.toList.head? == some 'd')
    (days _) (days _) (seconds _) (seconds _) same
  rw [← Int.emod_add_mul_ediv s daySeconds, ← Int.emod_add_mul_ediv t daySeconds,
    named_inj sameDays, named_inj sameSeconds]

/-- A clock that is ahead or behind shows by how much. -/
theorem exists_zoneItems {seconds : Int} (ahead : seconds ≠ 0) : ∃ item items,
    durationItems seconds = item :: items ∧
      zoneItems (some seconds) = (zoneStart ++ item) :: items := by
  have some : durationItems seconds ≠ [] := fun none =>
    ahead (durationItems_inj (none.trans (show durationItems 0 = [] from rfl).symm))
  obtain ⟨item, items, shown⟩ := List.exists_cons_of_ne_nil some
  refine ⟨item, items, shown, ?_⟩
  rw [zoneItems, if_neg ahead, shown]
  rfl

theorem zoneItems_inj {a b : Option Int} (same : zoneItems a = zoneItems b) : a = b := by
  have listed (s : Int) : zoneItems (some s) ≠ [] := by
    rw [zoneItems]
    split <;> nofun
  have other {s : Int} (ahead : s ≠ 0) : zoneItems (some s) ≠ zoneItems (some 0) := by
    intro same
    obtain ⟨item, items, -, shown⟩ := exists_zoneItems ahead
    have chars := congrArg String.toList (List.cons.inj (shown.symm.trans same)).1
    rw [String.toList_append] at chars
    cases chars
  cases a with
  | none =>
    cases b with
    | none => rfl
    | some t => exact absurd same.symm (listed t)
  | some s =>
    cases b with
    | none => exact absurd same (listed s)
    | some t =>
      by_cases hs : s = 0
      · by_cases ht : t = 0
        · rw [hs, ht]
        · exact absurd (hs ▸ same.symm) (other ht)
      · by_cases ht : t = 0
        · exact absurd (ht ▸ same) (other hs)
        · obtain ⟨item, items, left, shown⟩ := exists_zoneItems hs
          obtain ⟨item', items', right, shown'⟩ := exists_zoneItems ht
          rw [shown, shown'] at same
          obtain ⟨first, rest⟩ := List.cons.inj same
          have chars := congrArg String.toList first
          rw [String.toList_append, String.toList_append, List.append_cancel_left_eq] at chars
          rw [durationItems_inj (left.trans (by
            rw [String.toList_inj.mp chars, rest, right]) : durationItems s = durationItems t)]

theorem fine_inj {s t u v : Nat} (same : fine s u = fine t v) : s = t ∧ u = v := by
  grind [fine]

def zone (offset : Option Int) : List String :=
  match offset with
  | some seconds => ["tzinfo=" ++ zoneText seconds]
  | none => []

theorem durationText_eq {seconds : Int} {item : String} {items : List String}
    (shown : durationItems seconds = item :: items) :
    durationText seconds = "datetime.timedelta(" ++ ", ".intercalate (item :: items) ++ ")" := by
  rw [← shown]
  change "datetime.timedelta(" ++ (if (durationItems seconds).isEmpty then "0"
    else ", ".intercalate (durationItems seconds)) ++ ")" = _
  rw [shown]
  rfl

theorem furtherItems_zone (offset : Option Int) : furtherItems (zone offset) ++ [')'] =
    furtherItems (zoneItems offset) ++ ')' :: zoneEnd offset := by
  cases offset with
  | none => rfl
  | some seconds =>
    by_cases ahead : seconds = 0
    · rw [ahead]
      rfl
    · obtain ⟨item, items, shown, listed⟩ := exists_zoneItems ahead
      rw [listed, zone, zoneText, if_neg ahead, durationText_eq shown, zoneEnd, Option.getD_some,
        if_neg ahead]
      simp only [furtherItems, List.flatMap_cons, List.flatMap_nil, String.toList_append,
        toList_items, List.append_assoc, List.append_nil, List.cons_append, zoneStart]
      rfl

theorem toList_quoted (m : Moment) : m.quoted.toList = "datetime.datetime(".toList ++
    ((toString m.date.year).toList ++
      (furtherItems (m.furtherNumbers.map toString ++ zoneItems m.offset) ++
        ')' :: zoneEnd m.offset)) := by
  have listed : m.quoted = "datetime.datetime(" ++ ", ".intercalate
      (toString m.date.year :: (m.furtherNumbers.map toString ++ zone m.offset)) ++ ")" := by
    rfl
  rw [furtherItems_append, List.append_assoc, ← furtherItems_zone, listed]
  simp only [String.toList_append, toList_items, furtherItems_append, List.append_assoc]
  rfl

theorem furtherNumbers_inj {m n : Moment} (year : m.date.year = n.date.year)
    (same : m.furtherNumbers = n.furtherNumbers) (offset : m.offset = n.offset) : m = n := by
  simp only [furtherNumbers, List.cons_append, List.nil_append, List.cons.injEq] at same
  obtain ⟨month, day, hour, minute, small⟩ := same
  obtain ⟨second, microsecond⟩ := fine_inj small
  obtain ⟨⟨_, _, _⟩, _, _, _, _, _⟩ := m
  obtain ⟨⟨_, _, _⟩, _, _, _, _, _⟩ := n
  simp_all

theorem isWhole_named {name : String} (whole : IsWhole name.toList) (n : Int) :
    ∀ i ∈ named name n, IsWhole i.toList := by
  unfold named
  split
  · nofun
  · rw [List.forall_mem_singleton, String.toList_append, isWhole_append]
    exact ⟨whole, intText_isWhole n⟩

theorem isWhole_zoneItems (offset : Option Int) : ∀ i ∈ zoneItems offset, IsWhole i.toList := by
  cases offset with
  | none => nofun
  | some seconds =>
    by_cases ahead : seconds = 0
    · rw [ahead]
      decide
    · obtain ⟨item, items, shown, listed⟩ := exists_zoneItems ahead
      have whole : ∀ i ∈ durationItems seconds, IsWhole i.toList :=
        List.forall_mem_append.mpr ⟨isWhole_named (by decide) _, isWhole_named (by decide) _⟩
      rw [shown, List.forall_mem_cons] at whole
      rw [listed, List.forall_mem_cons, String.toList_append, isWhole_append]
      exact ⟨⟨by decide, whole.1⟩, whole.2⟩

/-- The numbers of a moment start with a digit, and what is behind them does not. -/
def isNumber (item : String) : Bool := item.toList.head?.any Char.isDigit

theorem isNumber_natText (n : Nat) : isNumber (toString n) = true := by
  obtain ⟨c, cs, digits⟩ := List.exists_cons_of_ne_nil (Nat.toDigits_ne_nil (n := n) (b := 10))
  have plain := areDigits_toDigits n
  rw [digits] at plain
  rw [isNumber, toList_natText, digits]
  exact plain c List.mem_cons_self

theorem isNumber_zoneItems (offset : Option Int) :
    ∀ i ∈ (zoneItems offset).head?, isNumber i = false := by
  cases offset with
  | none => nofun
  | some seconds =>
    by_cases ahead : seconds = 0
    · rw [ahead]
      decide
    · obtain ⟨item, items, -, listed⟩ := exists_zoneItems ahead
      rw [listed]
      rintro i ⟨⟩
      rw [isNumber, String.toList_append]
      rfl

theorem quoted_inj {m n : Moment} (same : m.quoted.toList ++ x = n.quoted.toList ++ y) :
    m = n ∧ x = y := by
  simp only [toList_quoted, List.append_assoc, List.append_cancel_left_eq,
    List.cons_append] at same
  have whole (m : Moment) : ∀ i ∈ toString m.date.year :: (m.furtherNumbers.map toString ++
      zoneItems m.offset), IsWhole i.toList := by
    rw [List.forall_mem_cons, List.forall_mem_append]
    refine ⟨natText_isWhole _, ?_, isWhole_zoneItems _⟩
    intro i hi
    obtain ⟨k, -, rfl⟩ := List.mem_map.mp hi
    exact natText_isWhole k
  obtain ⟨items, ends⟩ := items_inj (whole m) (whole n) same
  obtain ⟨year, items⟩ := List.cons.inj items
  have digits (m : Moment) : ∀ i ∈ m.furtherNumbers.map toString, isNumber i = true := by
    intro i hi
    obtain ⟨k, -, rfl⟩ := List.mem_map.mp hi
    exact isNumber_natText k
  obtain ⟨numbers, zones⟩ := run_inj (digits m) (digits n) (isNumber_zoneItems m.offset)
    (isNumber_zoneItems n.offset) items
  have offset := zoneItems_inj zones
  refine ⟨furtherNumbers_inj (natText_inj year) (natTexts_inj numbers) offset, ?_⟩
  rw [offset] at ends
  exact List.append_cancel_left ends

end Moment

end Schematic
