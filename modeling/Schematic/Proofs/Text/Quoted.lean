import Schematic.Json.Printer
import Schematic.Proofs.Text.Codes
import Schematic.Text.Quoted
import Mathlib.Algebra.Group.Nat.Defs

/-! Quoted texts, raw bytes and strings of documents tell what they quote. A reader takes the
escapes off one by one, and the quote at the end is none of them. A document writes a text by its
16-bit units, so it tells texts up to their units. -/

namespace Schematic

/-- How the escapes of a notation are read: which marks are followed by how many hexadecimal digits,
and what the others stand for. -/
structure EscapeNotation where
  width? : Char → Option Nat
  short? : Char → Option Char

namespace EscapeNotation

variable (e : EscapeNotation)

/-- The number of the first character of a text, escaped or not, and the rest of the text. -/
def read? : List Char → Option (Nat × List Char)
  | [] => none
  | '\\' :: mark :: rest =>
    match e.width? mark with
    | some width => (Json.hexValue? (rest.take width)).map (·, rest.drop width)
    | none => (e.short? mark).map fun c => (c.toNat, rest)
  | c :: rest => if c = '\\' then none else some (c.toNat, rest)

variable {e}

theorem read?_plain {c : Char} (plain : c ≠ '\\') (x : List Char) :
    e.read? (c :: x) = some (c.toNat, x) := by
  rw [read?]
  · rw [if_neg plain]
  · rintro mark rest rfl
    exact absurd rfl plain

theorem read?_short {mark c : Char} (width : e.width? mark = none) (short : e.short? mark = some c)
    (x : List Char) : e.read? ('\\' :: mark :: x) = some (c.toNat, x) := by
  rw [read?, width]
  dsimp only
  rw [short]
  rfl

theorem read?_hex {mark : Char} {width n : Nat} (known : e.width? mark = some width)
    (positive : 0 < width) (fits : n < 16 ^ width) (x : List Char) :
    e.read? ('\\' :: mark :: (List.replicate (width - (Nat.toDigits 16 n).length) '0' ++
      Nat.toDigits 16 n ++ x)) = some (n, x) := by
  have short := (Nat.length_toDigits_le_iff (by decide) positive).mpr fits
  have length : (List.replicate (width - (Nat.toDigits 16 n).length) '0' ++
      Nat.toDigits 16 n).length = width := by
    rw [List.length_append, List.length_replicate]
    omega
  rw [read?, known]
  dsimp only
  rw [List.take_left' length, List.drop_left' length, hexValue?_padded]
  rfl

/-- How a character with a number can be written between two quotes: as it is, with a mark of its
own, or by its number. -/
inductive Writes (e : EscapeNotation) (quote : Char) : Nat → List Char → Prop
  | plain {c : Char} (unmarked : c ≠ '\\') (inner : c ≠ quote) : Writes e quote c.toNat [c]
  | short (mark : Char) {c : Char} (width : e.width? mark = none) (known : e.short? mark = some c) :
    Writes e quote c.toNat ['\\', mark]
  | hex (mark : Char) {width n : Nat} (known : e.width? mark = some width) (positive : 0 < width)
    (fits : n < 16 ^ width) : Writes e quote n ('\\' :: mark ::
      (List.replicate (width - (Nat.toDigits 16 n).length) '0' ++ Nat.toDigits 16 n))

variable {quote : Char} {n : Nat} {cs : List Char}

theorem Writes.reads (written : e.Writes quote n cs) (x : List Char) :
    e.read? (cs ++ x) = some (n, x) := by
  cases written with
  | plain unmarked _ => exact read?_plain unmarked x
  | short mark width known => exact read?_short width known x
  | hex mark known positive fits => exact read?_hex known positive fits x

theorem Writes.starts (written : e.Writes quote n cs) (unmarked : quote ≠ '\\') :
    ∃ c rest, cs = c :: rest ∧ c ≠ quote := by
  cases written with
  | plain _ inner => exact ⟨_, _, rfl, inner⟩
  | short | hex => exact ⟨_, _, rfl, unmarked.symm⟩

/-- A text between two quotes is told from whatever follows it. -/
theorem quoted_inj {α : Type} {P : α → Prop} {word : α → List Char} {number : α → Nat}
    (written : ∀ a, P a → e.Writes quote (number a) (word a)) (unmarked : quote ≠ '\\')
    (inj : ∀ a b, P a → P b → number a = number b → a = b) {as bs : List α} {x y : List Char}
    (ha : ∀ a ∈ as, P a) (hb : ∀ b ∈ bs, P b)
    (same : as.flatMap word ++ quote :: x = bs.flatMap word ++ quote :: y) : as = bs ∧ x = y := by
  have separates : Separates P word :=
    .of_reader (fun a h => (written a h).reads) inj
  have ends (z : List Char) : NoWord P word (quote :: z) := by
    intro a h rest same
    obtain ⟨c, tail, starts, other⟩ := (written a h).starts unmarked
    rw [starts] at same
    exact other (List.cons.inj same).1
  obtain ⟨rfl, rest⟩ := separates.flatMap_inj ha hb (ends x) (ends y) same
  exact ⟨rfl, (List.cons.inj rest).2⟩

end EscapeNotation

theorem toNat_charOf {n : Nat} (valid : n.isValidChar) : (Char.ofNat n).toNat = n := by
  rw [Char.ofNat, dif_pos valid]
  rfl

theorem CodePoint.eq_of_code {p q : CodePoint} (same : p.code = q.code) : p = q := by
  cases p
  cases q
  simpa using same

namespace Quoted

open EscapeNotation

def escapes : EscapeNotation where
  width? mark := [('x', 2), ('u', 4), ('U', 8)].lookup mark
  short? mark := some (([('n', '\n'), ('r', '\r'), ('t', '\t')].lookup mark).getD mark)

variable {quote : Char}

theorem toList_hex (width n : Nat) : (hex width n).toList =
    List.replicate (width - (Nat.toDigits 16 n).length) '0' ++ Nat.toDigits 16 n :=
  String.toList_ofList

theorem codeEscape_writes {n : Nat} (valid : n < 0x110000) :
    escapes.Writes quote n (codeEscape n).toList := by
  unfold codeEscape
  split
  · rw [String.toList_append, toList_hex]
    exact .hex 'x' rfl (by decide) (by omega)
  · split
    · rw [String.toList_append, toList_hex]
      exact .hex 'u' rfl (by decide) (by omega)
    · rw [String.toList_append, toList_hex]
      exact .hex 'U' rfl (by decide) (by omega)

def IsQuote (c : Char) : Prop := c = '\'' ∨ c = '"'

theorem escape_writes (hq : IsQuote quote) (p : CodePoint) :
    escapes.Writes quote p.code (escape quote p).toList := by
  unfold escape
  cases shown : p.toChar? with
  | none => exact codeEscape_writes p.isLt
  | some c =>
    cases CodePoint.eq_of_toChar? shown
    rw [CodePoint.code_ofChar]
    dsimp only
    split
    · next marked =>
      rw [String.toList_ofList]
      rcases marked with rfl | rfl
      · exact .short _ rfl rfl
      · rcases hq with rfl | rfl <;> exact .short _ rfl rfl
    · next unmarked =>
      rw [not_or] at unmarked
      split
      · next same => exact same ▸ .short 'n' rfl rfl
      · split
        · next same => exact same ▸ .short 'r' rfl rfl
        · split
          · next same => exact same ▸ .short 't' rfl rfl
          · split
            · rw [String.toList_singleton]
              exact .plain unmarked.1 unmarked.2
            · exact codeEscape_writes (CodePoint.ofChar c).isLt

theorem byteEscape_writes (hq : IsQuote quote) (b : UInt8) :
    escapes.Writes quote b.toNat (byteEscape quote b).toList := by
  unfold byteEscape
  split
  · rw [String.toList_append, toList_hex]
    exact .hex 'x' rfl (by decide) b.toNat_lt
  · next ascii =>
    have small : b.toNat < 0x7f := by
      rw [UInt8.le_iff_toNat_le] at ascii
      exact Nat.lt_of_not_le ascii
    have valid : b.toNat.isValidChar := .inl (by omega)
    have written := escape_writes hq (.ofChar (Char.ofNat b.toNat))
    rwa [CodePoint.code_ofChar, toNat_charOf valid] at written

theorem quoteFor_isQuote (t : Text) : IsQuote (quoteFor t) := by
  unfold quoteFor
  split
  · exact .inr rfl
  · exact .inl rfl

theorem IsQuote.unmarked (hq : IsQuote quote) : quote ≠ '\\' := by
  rcases hq with rfl | rfl <;> decide

end Quoted

open Quoted

variable {x y : List Char}

theorem toList_inQuotes (t : Text) : t.inQuotes.toList =
    [quoteFor t] ++ t.points.flatMap (fun p => (escape (quoteFor t) p).toList) ++
      [quoteFor t] := by
  simp only [Text.inQuotes, String.toList_append, String.toList_singleton, String.toList_join,
    List.flatMap_map]

theorem exists_quotedBytes (content : List UInt8) : ∃ quote, IsQuote quote ∧
    (quotedBytes content).toList =
      ['b'] ++ [quote] ++ content.flatMap (fun b => (byteEscape quote b).toList) ++ [quote] := by
  refine ⟨_, quoteFor_isQuote (.ofChars (content.map fun b => Char.ofNat b.toNat)), ?_⟩
  simp only [quotedBytes, String.toList_append, String.toList_singleton, String.toList_join,
    List.flatMap_map]
  rfl

/-- A quoted text tells the text, whatever follows it. -/
theorem inQuotes_inj {s t : Text} (same : s.inQuotes.toList ++ x = t.inQuotes.toList ++ y) :
    s = t ∧ x = y := by
  simp only [toList_inQuotes, List.append_assoc, List.singleton_append] at same
  obtain ⟨quotes, same⟩ := List.cons.inj same
  have hq := quoteFor_isQuote t
  rw [quotes] at same
  obtain ⟨points, rest⟩ := EscapeNotation.quoted_inj (P := fun _ => True)
    (fun p _ => escape_writes hq p) hq.unmarked (fun _ _ _ _ => CodePoint.eq_of_code)
    (fun _ _ => trivial) (fun _ _ => trivial) same
  exact ⟨Text.ext points, rest⟩

theorem quotedBytes_inj {b c : List UInt8}
    (same : (quotedBytes b).toList ++ x = (quotedBytes c).toList ++ y) : b = c ∧ x = y := by
  obtain ⟨quote, hq, left⟩ := exists_quotedBytes b
  obtain ⟨quote', -, right⟩ := exists_quotedBytes c
  simp only [left, right, List.append_assoc, List.singleton_append] at same
  obtain ⟨rfl, same⟩ := List.cons.inj (List.cons.inj same).2
  exact EscapeNotation.quoted_inj (P := fun _ => True) (fun p _ => byteEscape_writes hq p)
    hq.unmarked (fun _ _ _ _ => UInt8.toNat_inj.mp) (fun _ _ => trivial) (fun _ _ => trivial) same

/-- The 16-bit units of a character: itself or the two halves of a pair. -/
def CodePoint.units (p : CodePoint) : List Nat :=
  if p.code < 0x10000 then [p.code]
  else [0xd800 + (p.code - 0x10000) / 0x400, 0xdc00 + (p.code - 0x10000) % 0x400]

def Text.units (t : Text) : List Nat := t.points.flatMap CodePoint.units

theorem CodePoint.lt_of_mem_units {p : CodePoint} {n : Nat} (h : n ∈ p.units) : n < 0x10000 := by
  have valid := p.isLt
  unfold units at h
  split at h
  · next small => exact List.mem_singleton.mp h ▸ small
  · rw [List.mem_cons, List.mem_singleton] at h
    omega

theorem Text.lt_of_mem_units {t : Text} : ∀ n ∈ t.units, n < 0x10000 := by
  intro n h
  obtain ⟨p, -, member⟩ := List.mem_flatMap.mp h
  exact CodePoint.lt_of_mem_units member

theorem CodePoint.units_of_small {p : CodePoint} (small : p.code < 0x10000) :
    p.units = [p.code] := if_pos small

theorem CodePoint.units_of_large {p : CodePoint} (large : ¬ p.code < 0x10000) :
    p.units = [0xd800 + (p.code - 0x10000) / 0x400, 0xdc00 + (p.code - 0x10000) % 0x400] :=
  if_neg large

theorem CodePoint.units_ne_nil (p : CodePoint) : p.units ≠ [] := by
  unfold units
  split <;> nofun

/-- Characters are no halves of pairs, so their units tell them. -/
theorem CodePoint.units_separate : Separates (fun _ => True) fun c : Char => (ofChar c).units := by
  intro c d _ _ x y same
  have valid (c : Char) : c.toNat < 0xd800 ∨ 0xdfff < c.toNat ∧ c.toNat < 0x110000 := c.valid
  have hc := valid c
  have hd := valid d
  have eq_of_toNat (same : c.toNat = d.toNat) : c = d := ofChar_inj.mp (eq_of_code same)
  change (ofChar c).units ++ x = (ofChar d).units ++ y at same
  by_cases small : (ofChar c).code < 0x10000 <;> by_cases small' : (ofChar d).code < 0x10000
  · rw [units_of_small small, units_of_small small'] at same
    obtain ⟨first, rest⟩ := List.cons.inj same
    exact ⟨eq_of_toNat first, rest⟩
  · rw [units_of_small small, units_of_large small'] at same
    have first := (List.cons.inj same).1
    simp only [code_ofChar] at first small small'
    omega
  · rw [units_of_large small, units_of_small small'] at same
    have first := (List.cons.inj same).1
    simp only [code_ofChar] at first small small'
    omega
  · rw [units_of_large small, units_of_large small'] at same
    obtain ⟨first, rest⟩ := List.cons.inj same
    obtain ⟨second, rest⟩ := List.cons.inj rest
    simp only [code_ofChar] at first second small small'
    exact ⟨eq_of_toNat (by omega), rest⟩

/-- A text without halves of pairs is told by its units. -/
theorem Text.units_ofString_inj {s t : String} :
    (ofString s).units = (ofString t).units ↔ s = t := by
  refine ⟨fun same => ?_, fun same => same ▸ rfl⟩
  have noUnit : NoWord (fun _ => True) (fun c : Char => (CodePoint.ofChar c).units) [] :=
    fun c _ z none => CodePoint.units_ne_nil _ (List.append_eq_nil_iff.mp none).1
  simp only [units, points_ofString, List.flatMap_map] at same
  have chars : s.toList = t.toList ∧ [] = [] := CodePoint.units_separate.flatMap_inj
    (fun _ _ => trivial) (fun _ _ => trivial) noUnit noUnit (by rw [same])
  exact String.toList_inj.mp chars.1

namespace Json

open EscapeNotation

def escapes : EscapeNotation where
  width? mark := [('u', 4)].lookup mark
  short? := shortEscape?

def unitText (n : Nat) : String :=
  match shortEscapes.lookup n with
  | some short => short
  | none => if 0x20 ≤ n ∧ n < 0x7f then String.singleton (Char.ofNat n) else unitEscape n

theorem shortEscapes_write : ∀ e ∈ shortEscapes, escapes.Writes '"' e.1 e.2.toList := by
  have write {mark c : Char} (known : shortEscape? mark = some c) (other : mark ≠ 'u') :
      escapes.Writes '"' c.toNat ['\\', mark] := by
    refine .short mark ?_ known
    simp only [escapes, List.lookup_cons, beq_false_of_ne other, List.lookup_nil]
  simp only [shortEscapes, List.forall_mem_cons]
  exact ⟨write (c := '"') rfl (by decide), write (c := '\\') rfl (by decide),
    write (c := '\n') rfl (by decide), write (c := '\r') rfl (by decide),
    write (c := '\t') rfl (by decide), write (c := '\x08') rfl (by decide),
    write (c := '\x0c') rfl (by decide), List.forall_mem_nil _⟩

theorem toList_unitEscape (n : Nat) : (unitEscape n).toList = '\\' :: 'u' ::
    (List.replicate (4 - (Nat.toDigits 16 n).length) '0' ++ Nat.toDigits 16 n) := by
  simp only [unitEscape, String.toList_append, String.toList_ofList]
  rfl

theorem unitText_writes {n : Nat} (small : n < 0x10000) :
    escapes.Writes '"' n (unitText n).toList := by
  unfold unitText
  cases short : shortEscapes.lookup n with
  | some text =>
    obtain ⟨before, after, split, -⟩ := List.lookup_eq_some_iff.mp short
    exact shortEscapes_write (n, text) (split ▸ List.mem_append_right _ List.mem_cons_self)
  | none =>
    dsimp only
    split
    · next ascii =>
      have code : (Char.ofNat n).toNat = n := toNat_charOf (.inl (by omega))
      have other {c : Char} (known : (shortEscapes.lookup c.toNat).isSome) : Char.ofNat n ≠ c := by
        rintro rfl
        rw [code, short] at known
        cases known
      rw [String.toList_singleton]
      have plain : escapes.Writes '"' (Char.ofNat n).toNat [Char.ofNat n] :=
        .plain (other rfl) (other rfl)
      rwa [code] at plain
    · rw [toList_unitEscape]
      exact .hex 'u' rfl (by decide) small

theorem lookup_of_large {n : Nat} (large : 0x7f ≤ n) : shortEscapes.lookup n = none := by
  have ascii : ∀ e ∈ shortEscapes, e.1 < 0x7f := by decide
  rw [List.lookup_eq_none_iff]
  intro e he
  have small := ascii e he
  rw [bne_iff_ne]
  omega

theorem unitText_of_large {n : Nat} (large : 0x7f ≤ n) : unitText n = unitEscape n := by
  rw [unitText, lookup_of_large large]
  exact if_neg (by omega)

theorem toList_escape (p : CodePoint) :
    (escape p).toList = p.units.flatMap fun n => (unitText n).toList := by
  by_cases small : p.code < 0x10000
  · rw [CodePoint.units_of_small small, List.flatMap_singleton, unitText, escape]
    cases shortEscapes.lookup p.code with
    | some short => rfl
    | none => simp only [if_pos small]
  · rw [CodePoint.units_of_large small, List.flatMap_cons, List.flatMap_singleton,
      unitText_of_large (by omega), unitText_of_large (by omega), ← String.toList_append, escape,
      lookup_of_large (by omega)]
    dsimp only
    rw [if_neg (by omega), if_neg small]

theorem toList_foldl {α : Type} (word : α → String) (as : List α) (start : String) :
    (as.foldl (fun out a => out ++ word a) start).toList =
      start.toList ++ as.flatMap fun a => (word a).toList := by
  induction as generalizing start with
  | nil => simp
  | cons a as ih =>
    rw [List.foldl_cons, ih, String.toList_append, List.flatMap_cons, List.append_assoc]

theorem toList_quote (t : Text) :
    (quote t).toList = ['"'] ++ t.units.flatMap (fun n => (unitText n).toList) ++ ['"'] := by
  rw [quote, String.toList_append, String.toList_append, toList_foldl, Text.units,
    List.flatMap_assoc]
  simp only [toList_escape]
  rfl

/-- Documents tell texts up to their units. -/
theorem quote_inj {s t : Text} : quote s = quote t ↔ s.units = t.units := by
  rw [← String.toList_inj, toList_quote, toList_quote]
  refine ⟨fun same => ?_, fun same => same ▸ rfl⟩
  simp only [List.singleton_append] at same
  exact (EscapeNotation.quoted_inj (fun _ => unitText_writes) (by decide) (fun _ _ _ _ => id)
    Text.lt_of_mem_units Text.lt_of_mem_units (List.cons.inj same).2).1

end Json

end Schematic
