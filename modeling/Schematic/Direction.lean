import Schematic.Text.Basic

/-!
The two directions of a port.
-/

namespace Schematic

/-- Where data flows at a port: into its component, or out of it. -/
inductive Direction where
  | input
  | output
  deriving DecidableEq, Repr, Inhabited

namespace Direction

def word : Direction → String
  | input => "input"
  | output => "output"

def symbol : Direction → String
  | input => "INPUT"
  | output => "OUTPUT"

/-- The direction that a word names; words are compared exactly. -/
def ofWord? (s : Text) : Option Direction :=
  if s = "input" then some input else if s = "output" then some output else none

@[simp] theorem ofWord?_word (d : Direction) : ofWord? d.word = some d := by
  cases d <;> simp [ofWord?, word, Text.ofString_inj]

end Direction

end Schematic
