import Schematic.Text.Basic

/-!
Comparing a word with lower-case ASCII names whatever its case. Of all characters only the ASCII
capitals and the Kelvin sign have a lower case in ASCII, so no other letter can take part in a
match, and all others are left as they are.
-/

namespace Schematic

/-- The sign for kelvin, whose lower case is the letter `k`. -/
def kelvinSign : CodePoint := '\u212a'

/-- The lower case of a code point where that lies in ASCII; any other code point is kept. -/
def lowerToAscii (p : CodePoint) : CodePoint :=
  if p = kelvinSign then 'k' else if 0x41 ≤ p.code ∧ p.code ≤ 0x5a then .ofNat (p.code + 32) else p

def foldedToAscii (t : Text) : Text := ⟨t.points.map lowerToAscii⟩

def namesIgnoringCase (t : Text) (name : String) : Bool := foldedToAscii t == (name : Text)

end Schematic
