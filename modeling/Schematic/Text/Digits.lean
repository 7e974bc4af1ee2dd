import Schematic.Text.Basic

/-!
The decimal digits and the blanks of all scripts, by the tables of Unicode (version 14). Numbers in
files may be written with them.
-/

namespace Schematic.Digits

def zeros : Array Nat := #[
  0x660, 0x6f0, 0x7c0, 0x966, 0x9e6, 0xa66, 0xae6, 0xb66, 0xbe6, 0xc66, 0xce6, 0xd66, 0xde6, 0xe50,
  0xed0, 0xf20, 0x1040, 0x1090, 0x17e0, 0x1810, 0x1946, 0x19d0, 0x1a80, 0x1a90, 0x1b50, 0x1bb0,
  0x1c40, 0x1c50, 0xa620, 0xa8d0, 0xa900, 0xa9d0, 0xa9f0, 0xaa50, 0xabf0, 0xff10, 0x104a0, 0x10d30,
  0x11066, 0x110f0, 0x11136, 0x111d0, 0x112f0, 0x11450, 0x114d0, 0x11650, 0x116c0, 0x11730, 0x118e0,
  0x11950, 0x11c50, 0x11d50, 0x11da0, 0x16a60, 0x16ac0, 0x16b50, 0x1d7ce, 0x1d7d8, 0x1d7e2, 0x1d7ec,
  0x1d7f6, 0x1e140, 0x1e2f0, 0x1e950, 0x1fbf0]

def blanks : Array (Nat × Nat) := #[
  (0x85, 0x85), (0xa0, 0xa0), (0x1680, 0x1680), (0x2000, 0x200a), (0x2028, 0x2029),
  (0x202f, 0x202f), (0x205f, 0x205f), (0x3000, 0x3000)]

/-- The ASCII character that counts for a code point in the text of a number: digits and blanks of
other scripts stand for the ASCII ones, and a question mark, which no number holds, for the
rest. -/
def toAscii (p : CodePoint) : Char :=
  if p.code < 0x7f then Char.ofNat p.code
  else if blanks.any fun (first, last) => decide (first ≤ p.code ∧ p.code ≤ last) then ' '
  else
    match zeros.find? fun first => decide (first ≤ p.code ∧ p.code < first + 10) with
    | some first => Char.ofNat ('0'.toNat + (p.code - first))
    | none => '?'

def isBlank (c : Char) : Bool := c == ' ' || decide (0x09 ≤ c.toNat ∧ c.toNat ≤ 0x0d)

def trimmed (t : Text) : List Char :=
  let cs := (t.points.map toAscii).dropWhile isBlank
  (cs.reverse.dropWhile isBlank).reverse

end Schematic.Digits
