import Schematic.Text.Basic

/-!
Texts as bytes. Files are read as text: the bytes must be well-formed UTF-8, and each way of ending
a line becomes a single newline. Names of files are bytes of any kind: some halves of surrogate
pairs stand for bytes that are no UTF-8. Two names are the same when their bytes are.
-/

namespace Schematic

/-- The text that bytes encode, or `none` when they are not well-formed UTF-8. -/
def decodeUtf8? (bytes : ByteArray) : Option String := String.fromUTF8? bytes

/-- Line ends `\r\n` and `\r` become `\n`. -/
def unifyNewlines : List Char → List Char
  | [] => []
  | '\r' :: '\n' :: rest => '\n' :: unifyNewlines rest
  | '\r' :: rest => '\n' :: unifyNewlines rest
  | c :: rest => c :: unifyNewlines rest

def readableText? (bytes : ByteArray) : Option (List Char) :=
  (decodeUtf8? bytes).map fun s => unifyNewlines s.toList

def CodePoint.isStrayByte (p : CodePoint) : Bool := 0xdc80 ≤ p.code && p.code ≤ 0xdcff

def CodePoint.byteCount (p : CodePoint) : Nat :=
  if p.code < 0x80 || p.isStrayByte then 1
  else if p.code < 0x800 then 2
  else if p.code < 0x10000 then 3 else 4

def Text.byteCount (t : Text) : Nat := (t.points.map CodePoint.byteCount).foldr (· + ·) 0

/-- Whether a text can be a name: it holds no half of a pair but those that stand for bytes. -/
def Text.isName (t : Text) : Bool := t.points.all fun p => p.toChar?.isSome || p.isStrayByte

def CodePoint.strayByte? (p : CodePoint) : Option UInt8 :=
  if p.isStrayByte then some (p.code - 0xdc00).toUInt8 else none

def charOfStray? (ps : List CodePoint) : Option Char := do
  let bytes ← ps.mapM CodePoint.strayByte?
  let s ← decodeUtf8? ⟨bytes.toArray⟩
  match s.toList with
  | [c] => some c
  | _ => none

/-- The character that stray bytes at the front of a list write, and their number. -/
def leadingChar? (ps : List CodePoint) : Option (Nat × Char) :=
  [2, 3, 4].findSome? fun n => (charOfStray? (ps.take n)).map fun c => (n, c)

/-- Code points behind some that are passed over, with characters for the stray bytes that write
them. -/
def joinStray : Nat → List CodePoint → List CodePoint
  | _, [] => []
  | skip + 1, _ :: ps => joinStray skip ps
  | 0, p :: ps =>
    match leadingChar? (p :: ps) with
    | some (n, c) => .ofChar c :: joinStray (n - 1) ps
    | none => p :: joinStray 0 ps

def Text.asName (t : Text) : Text := ⟨joinStray 0 t.points⟩

end Schematic
