/-!
Raw bytes written in base 64: four characters stand for three bytes. Characters outside the alphabet
are passed over, and padding that completes a group of four ends the text.
-/

namespace Schematic.Base64

def sextet? (c : Char) : Option Nat :=
  if 'A' ≤ c ∧ c ≤ 'Z' then some (c.toNat - 'A'.toNat)
  else if 'a' ≤ c ∧ c ≤ 'z' then some (c.toNat - 'a'.toNat + 26)
  else if c.isDigit then some (c.toNat - '0'.toNat + 52)
  else if c = '+' then some 62
  else if c = '/' then some 63
  else none

/-- Where a text stands within a group: how many characters of the group are read, the bits of them
that belong to no byte yet, and how much padding came since. -/
structure Position where
  count : Nat := 0
  bits : Nat := 0
  padding : Nat := 0

namespace Position

def advance (p : Position) (sextet : Nat) : Position × List UInt8 :=
  match p.count with
  | 0 => ({ count := 1, bits := sextet }, [])
  | 1 => ({ count := 2, bits := sextet % 16 }, [(p.bits * 4 + sextet / 16).toUInt8])
  | 2 => ({ count := 3, bits := sextet % 4 }, [(p.bits * 16 + sextet / 4).toUInt8])
  | _ => ({}, [(p.bits * 64 + sextet).toUInt8])

/-- The position behind padding, which counts from the second character of a group on. -/
def pad (p : Position) : Position :=
  if 2 ≤ p.count then { p with padding := p.padding + 1 } else p

def isPadded (p : Position) : Bool := decide (2 ≤ p.count ∧ 4 ≤ p.count + p.padding)

end Position

/-- The bytes of the rest of a text. A group must be complete at the end. -/
def decodeFrom (p : Position) : List Char → Option (List UInt8)
  | [] => if p.count = 0 then some [] else none
  | c :: cs =>
    if c = '=' then
      let p := p.pad
      if p.isPadded then some [] else decodeFrom p cs
    else
      match sextet? c with
      | none => decodeFrom p cs
      | some sextet =>
        let (p, bytes) := p.advance sextet
        (decodeFrom p cs).map (bytes ++ ·)

def decode? (cs : List Char) : Option (List UInt8) := decodeFrom {} cs

end Schematic.Base64
