import Schematic.Number.Layout
import Schematic.Proofs.Number.Shortest
import Schematic.Proofs.Text.Codes

/-! The texts of numbers. What is read off the text of a floating-point number is the value of the
decimal that it was made from, whichever notation was taken, so different numbers have different
texts. The text of a whole number has neither a point nor an exponent. -/

namespace Schematic

namespace Numeral

inductive IsTail : List Char → Prop
  | none : IsTail []
  | signed {sign : Char} {ds : List Char} (known : sign = '-' ∨ sign = '+') (hds : AreDigits ds) :
    IsTail ('e' :: sign :: ds)

def pointed (fraction : List Char) : List Char := if fraction = [] then [] else '.' :: fraction

def exponent : List Char → Int
  | 'e' :: '-' :: ds => -(Nat.ofDigitChars 10 ds 0 : Int)
  | 'e' :: _ :: ds => Nat.ofDigitChars 10 ds 0
  | _ => 0

def value (cs : List Char) : ℚ :=
  let front := cs.takeWhile (· ≠ 'e')
  let whole := front.takeWhile (· ≠ '.')
  let fraction := (front.dropWhile (· ≠ '.')).tail
  Nat.ofDigitChars 10 (whole ++ fraction) 0 *
    10 ^ (exponent (cs.dropWhile (· ≠ 'e')) - fraction.length)

structure IsNumeral (cs : List Char) : Prop where
  starts : ∃ c rest, cs = c :: rest ∧ c.isDigit = true
  marked : '.' ∈ cs ∨ 'e' ∈ cs
  whole : IsWhole cs

variable {whole fraction tail cs : List Char}

theorem isNumeral (hw : AreDigits whole) (hf : AreDigits fraction) (ht : IsTail tail)
    (some : whole ≠ []) (marked : fraction ≠ [] ∨ tail ≠ []) :
    IsNumeral (whole ++ pointed fraction ++ tail) where
  starts := by
    cases whole with
    | nil => exact absurd rfl some
    | cons c whole => exact ⟨c, _, rfl, hw c List.mem_cons_self⟩
  marked := by
    rw [List.mem_append, List.mem_append, List.mem_append, List.mem_append]
    by_cases none : fraction = []
    · cases ht with
      | none => simp [none] at marked
      | signed => exact .inr (.inr List.mem_cons_self)
    · rw [pointed, if_neg none]
      exact .inl (.inl (.inr List.mem_cons_self))
  whole := by
    rw [isWhole_append, isWhole_append]
    refine ⟨⟨hw.isWhole, ?_⟩, ?_⟩
    · unfold pointed
      split
      · nofun
      · exact isWhole_cons.mpr ⟨by decide, hf.isWhole⟩
    · cases ht with
      | none => nofun
      | signed known hds =>
        rw [isWhole_cons, isWhole_cons]
        rcases known with rfl | rfl <;> exact ⟨by decide, by decide, hds.isWhole⟩

theorem value_eq (hw : AreDigits whole) (hf : AreDigits fraction) (ht : IsTail tail) :
    value (whole ++ pointed fraction ++ tail) = Nat.ofDigitChars 10 (whole ++ fraction) 0 *
      10 ^ (exponent tail - fraction.length) := by
  have other {cs : List Char} {mark : Char} (clear : mark ∉ cs) :
      ∀ c ∈ cs, decide (c ≠ mark) = true := fun c hc =>
    decide_eq_true fun same => clear (same ▸ hc)
  have clear : 'e' ∉ whole ++ pointed fraction := by
    rw [List.mem_append, not_or, pointed]
    refine ⟨hw.not_mem rfl, ?_⟩
    split
    · exact List.not_mem_nil
    · rw [List.mem_cons, not_or]
      exact ⟨by decide, hf.not_mem rfl⟩
  have marks : ∀ c ∈ tail.head?, decide (c ≠ 'e') = false := by
    cases ht with
    | none => nofun
    | signed => simp
  have points : ∀ c ∈ (pointed fraction).head?, decide (c ≠ '.') = false := by
    unfold pointed
    split
    · nofun
    · simp
  have rest : (pointed fraction).tail = fraction := by
    unfold pointed
    split
    · next none => exact none.symm
    · rfl
  unfold value
  rw [takeWhile_run (other clear) marks, dropWhile_run (other clear) marks]
  dsimp only
  rw [takeWhile_run (other (hw.not_mem rfl)) points, dropWhile_run (other (hw.not_mem rfl)) points,
    rest]

structure Spells (cs : List Char) (q : ℚ) : Prop where
  numeral : IsNumeral cs
  worth : value cs = q

theorem spells {q : ℚ} (hw : AreDigits whole) (hf : AreDigits fraction) (ht : IsTail tail)
    (some : whole ≠ []) (marked : fraction ≠ [] ∨ tail ≠ [])
    (worth : (Nat.ofDigitChars 10 (whole ++ fraction) 0 : ℚ) *
      10 ^ (exponent tail - fraction.length) = q) :
    Spells (whole ++ pointed fraction ++ tail) q :=
  ⟨isNumeral hw hf ht some marked, (value_eq hw hf ht).trans worth⟩

/-- Zeros before digits are worth nothing. -/
theorem ofDigitChars_padded (k n : Nat) :
    Nat.ofDigitChars 10 (List.replicate k '0' ++ Nat.toDigits 10 n) 0 = n := by
  rw [Nat.ofDigitChars_append, Nat.ofDigitChars_replicate_zero, Nat.mul_zero,
    Nat.ofDigitChars_ten_toDigits]

end Numeral

namespace FloatLayout

open Numeral

variable (f : FloatLayout)

theorem toList_zeros (n : Nat) : (zeros n).toList = List.replicate n '0' := String.toList_ofList

theorem toList_exponentText (e : Int) : ∃ sign ds, (f.exponentText e).toList = 'e' :: sign :: ds ∧
    (sign = '-' ∨ sign = '+') ∧ AreDigits ds ∧ exponent ('e' :: sign :: ds) = e := by
  let ds := List.replicate (f.exponentWidth - (toString e.natAbs).length) '0' ++
    Nat.toDigits 10 e.natAbs
  have digits : AreDigits ds := (areDigits_zeros _).append (areDigits_toDigits _)
  have worth : Nat.ofDigitChars 10 ds 0 = e.natAbs := ofDigitChars_padded _ _
  have text : (f.exponentText e).toList = 'e' :: (if e < 0 then '-' else '+') :: ds := by
    simp only [exponentText, String.toList_append, toList_zeros, toList_natText]
    split <;> rfl
  by_cases below : e < 0
  · rw [if_pos below] at text
    refine ⟨'-', ds, text, .inl rfl, digits, ?_⟩
    change -(Nat.ofDigitChars 10 ds 0 : Int) = e
    omega
  · rw [if_neg below] at text
    refine ⟨'+', ds, text, .inr rfl, digits, ?_⟩
    change (Nat.ofDigitChars 10 ds 0 : Int) = e
    omega

theorem cast_mul_zpow {n j : Nat} {p q : Int} (shift : p = q + j) :
    ((10 ^ j * n : Nat) : ℚ) * 10 ^ q = n * 10 ^ p := by
  rw [shift, zpow_add₀ (by norm_num), zpow_natCast]
  push_cast
  ring

variable {n : Nat} {tail : List Char}

/-- Digits behind the point. -/
theorem spells_behind (n k : Nat) :
    Spells ('0' :: '.' :: (List.replicate k '0' ++ Nat.toDigits 10 n))
      (n * 10 ^ (-(k + (Nat.toDigits 10 n).length : Int))) := by
  have plain := (areDigits_zeros k).append (areDigits_toDigits n)
  have some : List.replicate k '0' ++ Nat.toDigits 10 n ≠ [] :=
    List.append_ne_nil_of_right_ne_nil _ Nat.toDigits_ne_nil
  have spelled := spells (q := n * 10 ^ (-(k + (Nat.toDigits 10 n).length : Int)))
    (areDigits_zeros 1) plain .none nofun (.inl some) (by
      rw [List.replicate_one, ← List.replicate_one, ← List.append_assoc,
        List.replicate_append_replicate, ofDigitChars_padded, List.length_append,
        List.length_replicate]
      rw [show exponent [] = 0 from rfl, Int.zero_sub]
      push_cast
      rfl)
  rwa [pointed, if_neg some, List.append_nil] at spelled

/-- Digits before the point, and zeros to fill up. -/
theorem spells_before (n k : Nat) :
    Spells (Nat.toDigits 10 n ++ List.replicate k '0' ++ ['.', '0']) (n * 10 ^ (k : Int)) := by
  have plain := (areDigits_toDigits n).append (areDigits_zeros k)
  have some : Nat.toDigits 10 n ++ List.replicate k '0' ≠ [] :=
    List.append_ne_nil_of_left_ne_nil Nat.toDigits_ne_nil _
  have spelled := spells (q := n * 10 ^ (k : Int)) plain (areDigits_zeros 1) .none some
    (.inl nofun) (by
      rw [List.append_assoc, List.replicate_append_replicate, Nat.ofDigitChars_append,
        Nat.ofDigitChars_replicate_zero, Nat.ofDigitChars_ten_toDigits]
      exact cast_mul_zpow (by simp [exponent]))
  rwa [List.append_nil] at spelled

/-- Digits on both sides of the point or the first one before it only, with an exponent or not. -/
theorem spells_cut (n : Nat) {i : Nat} (first : 0 < i) (inside : i ≤ (Nat.toDigits 10 n).length)
    (ht : IsTail tail) (marked : i < (Nat.toDigits 10 n).length ∨ tail ≠ []) :
    Spells ((Nat.toDigits 10 n).take i ++ pointed ((Nat.toDigits 10 n).drop i) ++ tail)
      (n * 10 ^ (exponent tail + i - (Nat.toDigits 10 n).length)) := by
  have plain := areDigits_toDigits n
  refine spells (plain.of_sublist (List.take_sublist i _))
    (plain.of_sublist (List.drop_sublist i _)) ht ?_ (marked.imp_left ?_) ?_
  · intro none
    have short := congrArg List.length none
    rw [List.length_take, List.length_nil] at short
    omega
  · intro more none
    have short := congrArg List.length none
    rw [List.length_drop, List.length_nil] at short
    omega
  · rw [List.take_append_drop, Nat.ofDigitChars_ten_toDigits, List.length_drop]
    congr 2
    omega

theorem toList_pointed (cs : List Char) :
    (if String.ofList cs = "" then "" else "." ++ String.ofList cs).toList = pointed cs := by
  cases cs with
  | nil => rfl
  | cons c cs =>
    have some : String.ofList (c :: cs) ≠ "" := by simp
    simp only [if_neg some, String.toList_append, String.toList_ofList]
    rfl

/-- A decimal is written as a number that has its value. -/
theorem decimalText_spells (d : Decimal) : Spells (f.decimalText d).toList d.toRat := by
  have chars : (toString d.digits).toList = Nat.toDigits 10 d.digits := toList_natText _
  have count : (toString d.digits).length = (Nat.toDigits 10 d.digits).length := by
    rw [← String.length_toList, chars]
  have some : 0 < (Nat.toDigits 10 d.digits).length := Nat.length_toDigits_pos
  have at_power {cs : List Char} {p : Int} (spelled : Spells cs (d.digits * 10 ^ p))
      (same : p = d.power) : Spells cs d.toRat := by
    rwa [same] at spelled
  unfold decimalText
  dsimp only
  rw [chars, count]
  generalize he : d.power + (Nat.toDigits 10 d.digits).length - 1 = e
  split
  · split
    · have text : ("0." ++ zeros (-e - 1).toNat ++ toString d.digits).toList =
          '0' :: '.' :: (List.replicate (-e - 1).toNat '0' ++ Nat.toDigits 10 d.digits) := by
        simp only [String.toList_append, toList_zeros, chars]
        rfl
      rw [text]
      exact at_power (spells_behind d.digits _) (by omega)
    · split
      · have text : (toString d.digits ++
            zeros (e + 1 - (Nat.toDigits 10 d.digits).length).toNat ++ ".0").toList =
            Nat.toDigits 10 d.digits ++
              List.replicate (e + 1 - (Nat.toDigits 10 d.digits).length).toNat '0' ++
              ['.', '0'] := by
          simp only [String.toList_append, toList_zeros, chars]
          rfl
        rw [text]
        exact at_power (spells_before d.digits _) (by omega)
      · have more : (Nat.toDigits 10 d.digits).drop (e + 1).toNat ≠ [] := by
          intro none
          have short := congrArg List.length none
          rw [List.length_drop, List.length_nil] at short
          omega
        have spelled := spells_cut d.digits (i := (e + 1).toNat) (by omega) (by omega) .none
          (.inl (by omega))
        rw [pointed, if_neg more, List.append_nil] at spelled
        rw [show exponent [] = 0 from rfl] at spelled
        simp only [String.toList_append, String.toList_ofList, List.append_assoc]
        exact at_power spelled (by omega)
  · obtain ⟨sign, ds, text, known, plain, worth⟩ := f.toList_exponentText e
    have spelled := spells_cut d.digits Nat.one_pos some (.signed known plain) (.inr nofun)
    rw [worth] at spelled
    simp only [String.toList_append, String.toList_ofList, toList_pointed, text]
    exact at_power spelled (by omega)

structure HasWord (f : FloatLayout) : Prop where
  starts : ∃ c rest, f.infinity.toList = c :: rest ∧ c.isDigit = false ∧ c ≠ '-'
  whole : IsWhole f.infinity.toList

theorem display_hasWord : display.HasWord where
  starts := ⟨'i', ['n', 'f'], by decide, by decide, by decide⟩
  whole := by decide

theorem document_hasWord : document.HasWord where
  starts := ⟨'I', ['n', 'f', 'i', 'n', 'i', 't', 'y'], by decide, by decide, by decide⟩
  whole := by decide

end FloatLayout

namespace Binary64

variable {x y : Binary64}

def IsCanonical : Binary64 → Prop
  | .finite _ m e => AreCanonical m e
  | .infinite _ => True

/-- What is written of a number behind its sign: the value of its shortest decimal, or nothing for
an infinity. -/
def written? : Binary64 → Option ℚ
  | .finite _ m e => some (if m = 0 then 0 else (shortestDecimal m e).toRat)
  | .infinite _ => none

theorem eq_of_written? (hx : x.IsCanonical) (hy : y.IsCanonical)
    (sign : x.isNegative = y.isNegative) (same : x.written? = y.written?) : x = y := by
  cases x with
  | infinite negative =>
    cases y with
    | infinite => exact congrArg infinite sign
    | finite => cases same
  | finite negative m e =>
    cases y with
    | infinite => cases same
    | finite negative' n f =>
      have parts : m = n ∧ e = f := by
        replace same := Option.some.inj same
        split at same
        · next zero =>
          split at same
          · next zero' =>
            have least := hx.normal.resolve_left (by omega)
            have least' := hy.normal.resolve_left (by omega)
            exact ⟨zero.trans zero'.symm, least.trans least'.symm⟩
          · next other => exact absurd same (shortestDecimal_pos hy (by omega)).ne
        · next other =>
          split at same
          · exact absurd same (shortestDecimal_pos hx (by omega)).ne'
          · next other' => exact shortestDecimal_unique hx hy (by omega) (by omega) same
      rw [parts.1, parts.2, show negative = negative' from sign]

end Binary64

namespace FloatLayout

open Numeral

variable {f : FloatLayout} {x y : Binary64}

/-- What a number is written as: a sign or none, and then a number without one or the word for an
infinity. -/
theorem exists_text (f : FloatLayout) (x : Binary64) : ∃ body,
    (f.text x).toList = (if x.isNegative then ['-'] else []) ++ body ∧
      match x.written? with
      | some q => Spells body q
      | none => body = f.infinity.toList := by
  cases x with
  | infinite negative =>
    refine ⟨f.infinity.toList, ?_, rfl⟩
    cases negative <;> simp [text, Binary64.isNegative]
  | finite negative m e =>
    by_cases zero : m = 0
    · have spelled : Spells ['0', '.', '0'] 0 := by
        have spelled := spells_before 0 0
        simpa using spelled
      refine ⟨['0', '.', '0'], ?_, ?_⟩
      · cases negative <;> simp [text, Binary64.isNegative, zero]
      · simp only [Binary64.written?, if_pos zero]
        exact spelled
    · refine ⟨(f.decimalText (shortestDecimal m e)).toList, ?_, ?_⟩
      · cases negative <;> simp [text, Binary64.isNegative, zero]
      · simp only [Binary64.written?, if_neg zero]
        exact f.decimalText_spells _

/-- A sign is told from what is behind it. -/
theorem sign_inj {negative negative' : Bool} {body body' : List Char}
    (plain : ∀ c ∈ body.head?, c ≠ '-') (plain' : ∀ c ∈ body'.head?, c ≠ '-')
    (same : (if negative then ['-'] else []) ++ body = (if negative' then ['-'] else []) ++ body') :
    negative = negative' ∧ body = body' := by
  have inside (b : Bool) : ∀ c ∈ (if b then ['-'] else []), decide (c = '-') = true := by
    cases b <;> simp
  obtain ⟨signs, bodies⟩ := run_inj (inside negative) (inside negative')
    (fun c hc => decide_eq_false (plain c hc)) (fun c hc => decide_eq_false (plain' c hc)) same
  refine ⟨?_, bodies⟩
  cases negative <;> cases negative' <;> first | rfl | cases signs

theorem isNumeral_ne_infinity (hf : f.HasWord) {body : List Char} (numeral : IsNumeral body) :
    body ≠ f.infinity.toList := by
  intro same
  obtain ⟨c, rest, rfl, digit⟩ := numeral.starts
  obtain ⟨d, rest', word, other, -⟩ := hf.starts
  cases same.trans word
  exact Bool.false_ne_true (other.symm.trans digit)

/-- What is behind a sign does not start with another. -/
theorem unsigned_body (hf : f.HasWord) {body : List Char} {q? : Option ℚ}
    (written : match q? with
      | some q => Spells body q
      | none => body = f.infinity.toList) : ∀ c ∈ body.head?, c ≠ '-' := by
  cases q? with
  | some q =>
    obtain ⟨c, rest, rfl, digit⟩ := written.numeral.starts
    rintro d ⟨⟩ rfl
    exact absurd digit (by decide)
  | none =>
    obtain ⟨c, rest, word, -, other⟩ := hf.starts
    rw [written, word]
    rintro d ⟨⟩
    exact other

/-- Different numbers have different texts. -/
theorem text_inj (hf : f.HasWord) (hx : x.IsCanonical) (hy : y.IsCanonical)
    (same : f.text x = f.text y) : x = y := by
  obtain ⟨body, text, written⟩ := exists_text f x
  obtain ⟨body', text', written'⟩ := exists_text f y
  rw [same, text'] at text
  obtain ⟨sign, rfl⟩ := sign_inj (unsigned_body hf written') (unsigned_body hf written) text
  refine Binary64.eq_of_written? hx hy sign.symm ?_
  cases hq : x.written? with
  | some q =>
    rw [hq] at written
    cases hr : y.written? with
    | some r =>
      rw [hr] at written'
      exact congrArg some (written.worth.symm.trans written'.worth)
    | none =>
      rw [hr] at written'
      exact absurd written' (isNumeral_ne_infinity hf written.numeral)
  | none =>
    rw [hq] at written
    cases hr : y.written? with
    | some r =>
      rw [hr] at written'
      exact absurd written (isNumeral_ne_infinity hf written'.numeral)
    | none => rfl

/-- What tells a text of a number from that of a whole number. -/
theorem exists_mark (hf : f.HasWord) (x : Binary64) :
    ∃ c ∈ (f.text x).toList, c.isDigit = false ∧ c ≠ '-' := by
  obtain ⟨body, text, written⟩ := exists_text f x
  rw [text]
  cases hq : x.written? with
  | some q =>
    rw [hq] at written
    rcases written.numeral.marked with point | mark
    · exact ⟨'.', List.mem_append_right _ point, rfl, by decide⟩
    · exact ⟨'e', List.mem_append_right _ mark, rfl, by decide⟩
  | none =>
    rw [hq] at written
    obtain ⟨c, rest, word, other, unsigned⟩ := hf.starts
    refine ⟨c, List.mem_append_right _ ?_, other, unsigned⟩
    rw [written, word]
    exact List.mem_cons_self

theorem text_isWhole (hf : f.HasWord) (x : Binary64) : IsWhole (f.text x).toList := by
  obtain ⟨body, text, written⟩ := exists_text f x
  rw [text, isWhole_append]
  constructor
  · split
    · decide
    · nofun
  · cases hq : x.written? with
    | some q =>
      rw [hq] at written
      exact written.numeral.whole
    | none =>
      rw [hq] at written
      rw [written]
      exact hf.whole

end FloatLayout

theorem toList_intText (n : Int) : (toString n).toList =
    (if decide (n < 0) then ['-'] else []) ++ Nat.toDigits 10 n.natAbs := by
  rw [Int.toString_eq_repr, Int.repr_eq_if]
  by_cases below : n < 0
  · rw [if_neg (by omega), decide_eq_true below, String.toList_append,
      Nat.repr_eq_ofList_toDigits, show (-n).toNat = n.natAbs by omega,
      String.toList_ofList (l := Nat.toDigits 10 n.natAbs)]
    rfl
  · rw [if_pos (by omega), decide_eq_false below, Nat.repr_eq_ofList_toDigits,
      String.toList_ofList, show n.toNat = n.natAbs by omega]
    rfl

theorem mem_intText {n : Int} {c : Char} (h : c ∈ (toString n).toList) :
    c = '-' ∨ c.isDigit = true := by
  rw [toList_intText, List.mem_append] at h
  rcases h with sign | digit
  · split at sign
    · exact .inl (List.mem_singleton.mp sign)
    · cases sign
  · exact .inr (areDigits_toDigits _ c digit)

theorem intText_inj {m n : Int} (same : toString m = toString n) : m = n := by
  have unsigned (k : Nat) : ∀ c ∈ (Nat.toDigits 10 k).head?, c ≠ '-' := fun c hc =>
    fun same => (areDigits_toDigits k).not_mem rfl (same ▸ List.mem_of_mem_head? hc)
  have chars := congrArg String.toList same
  rw [toList_intText, toList_intText] at chars
  obtain ⟨sign, digits⟩ := FloatLayout.sign_inj (unsigned _) (unsigned _) chars
  have magnitude := toDigits_inj digits
  have side : m < 0 ↔ n < 0 := decide_eq_decide.mp sign
  omega

theorem intText_isWhole (n : Int) : IsWhole (toString n).toList := by
  rw [toList_intText, isWhole_append]
  refine ⟨?_, (areDigits_toDigits _).isWhole⟩
  split
  · decide
  · nofun

/-- No whole number is written like a floating-point number. -/
theorem intText_ne_text {f : FloatLayout} (hf : f.HasWord) (n : Int) (x : Binary64) :
    toString n ≠ f.text x := by
  intro same
  obtain ⟨c, member, other, unsigned⟩ := FloatLayout.exists_mark hf x
  rw [← same] at member
  rcases mem_intText member with sign | digit
  · exact unsigned sign
  · exact Bool.false_ne_true (other.symm.trans digit)

end Schematic
