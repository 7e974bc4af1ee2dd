/-!
Texts as simulations and files hold them: sequences of Unicode code points. Escapes in files can
write the halves of surrogate pairs one by one, so a text may hold a half without its partner, and
then no encoding can write it.
-/

namespace Schematic

/-- A Unicode code point: a character, or half a surrogate pair. -/
structure CodePoint where
  code : Nat
  isLt : code < 0x110000
  deriving DecidableEq, Repr

namespace CodePoint

instance : Inhabited CodePoint := ⟨⟨0, by decide⟩⟩

def ofChar (c : Char) : CodePoint := ⟨c.toNat, by
  have h : c.toNat.isValidChar := c.valid
  simp only [Nat.isValidChar] at h
  omega⟩

instance : Coe Char CodePoint := ⟨ofChar⟩

/-- The code point with a number; a number beyond the last one gives the replacement character. -/
def ofNat (n : Nat) : CodePoint := if h : n < 0x110000 then ⟨n, h⟩ else '\ufffd'

/-- The character at a code point; half a pair is none. -/
def toChar? (p : CodePoint) : Option Char :=
  if h : p.code.isValidChar then some (Char.ofNatAux p.code h) else none

@[simp] theorem code_ofChar (c : Char) : (ofChar c).code = c.toNat := rfl

@[simp] theorem toChar?_ofChar (c : Char) : (ofChar c).toChar? = some c := by
  have h : c.toNat.isValidChar := c.valid
  have same : Char.ofNatAux c.toNat h = Char.ofNat c.toNat := by rw [Char.ofNat, dif_pos h]
  refine (dif_pos (show (ofChar c).code.isValidChar from h)).trans ?_
  exact congrArg some (same.trans (Char.ofNat_toNat c))

theorem eq_of_toChar? {p : CodePoint} {c : Char} (h : p.toChar? = some c) : p = ofChar c := by
  unfold toChar? at h
  by_cases valid : p.code.isValidChar
  · rw [dif_pos valid] at h
    cases h
    rfl
  · rw [dif_neg valid] at h
    cases h

theorem ofChar_inj {c d : Char} : ofChar c = ofChar d ↔ c = d := by
  refine ⟨fun h => ?_, fun h => h ▸ rfl⟩
  simpa using congrArg toChar? h

end CodePoint

structure Text where
  points : List CodePoint
  deriving DecidableEq, Repr, Inhabited

namespace Text

def ofChars (cs : List Char) : Text := ⟨cs.map .ofChar⟩

def ofString (s : String) : Text := ofChars s.toList

instance : Coe String Text := ⟨ofString⟩

def empty : Text := ⟨[]⟩

def isEmpty (t : Text) : Bool := t.points.isEmpty

def length (t : Text) : Nat := t.points.length

def append (t u : Text) : Text := ⟨t.points ++ u.points⟩

instance : Append Text := ⟨append⟩

def join (ts : List Text) : Text := ⟨ts.flatMap points⟩

def intercalate (between : Text) (ts : List Text) : Text :=
  ⟨between.points.intercalate (ts.map points)⟩

def blanks (n : Nat) : Text := ⟨List.replicate n (.ofChar ' ')⟩

def startsWith (t start : Text) : Bool := start.points.isPrefixOf t.points

def endsWith (t ending : Text) : Bool := ending.points.isSuffixOf t.points

def isRunOf (run : List CodePoint) : List CodePoint → Bool
  | [] => run.isEmpty
  | p :: ps => run.isPrefixOf (p :: ps) || isRunOf run ps

def mentions (t part : Text) : Bool := isRunOf part.points t.points

def holds (t : Text) (c : Char) : Bool := t.points.contains (.ofChar c)

def codes (t : Text) : List Nat := t.points.map CodePoint.code

def le (t u : Text) : Bool := !u.codes.lex t.codes fun m n => decide (m < n)

/-- The string of a text, if it holds no half of a pair alone. -/
def toString? (t : Text) : Option String := (t.points.mapM CodePoint.toChar?).map String.ofList

@[simp] theorem points_append (t u : Text) : (t ++ u).points = t.points ++ u.points := rfl

@[simp] theorem points_ofString (s : String) : (ofString s).points = s.toList.map .ofChar := rfl

@[ext] theorem ext {t u : Text} (h : t.points = u.points) : t = u := by
  cases t; cases u; exact congrArg mk h

theorem append_assoc (t u v : Text) : t ++ u ++ v = t ++ (u ++ v) := ext (List.append_assoc ..)

@[simp] theorem length_append (t u : Text) : (t ++ u).length = t.length + u.length := by
  simp [length]

@[simp] theorem toString?_ofString (s : String) : (ofString s).toString? = some s := by
  have h (cs : List Char) : (cs.map CodePoint.ofChar).mapM CodePoint.toChar? = some cs := by
    induction cs with
    | nil => rfl
    | cons c cs ih => simp [ih]
  simp [toString?, h]

theorem points_of_mapM {points : List CodePoint} {cs : List Char}
    (h : points.mapM CodePoint.toChar? = some cs) : points = cs.map .ofChar := by
  induction points generalizing cs with
  | nil =>
    cases h
    rfl
  | cons p points ih =>
    rw [List.mapM_cons] at h
    obtain ⟨c, first, rest⟩ := Option.bind_eq_some_iff.mp h
    obtain ⟨cs, others, same⟩ := Option.bind_eq_some_iff.mp rest
    cases same
    rw [CodePoint.eq_of_toChar? first, List.map_cons, ih others]

theorem eq_of_toString? {t : Text} {s : String} (h : t.toString? = some s) : t = ofString s := by
  obtain ⟨cs, found, rfl⟩ := Option.map_eq_some_iff.mp h
  exact ext (by rw [points_of_mapM found, points_ofString, String.toList_ofList])

theorem ofString_inj {s t : String} : ofString s = ofString t ↔ s = t := by
  refine ⟨fun h => ?_, fun h => h ▸ rfl⟩
  simpa using congrArg toString? h

end Text

end Schematic
