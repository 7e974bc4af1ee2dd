import Schematic.Snapshot.Object

/-!
Building objects one by one, each with the facts that objects of its sort report.
-/

namespace Schematic.SimObject

/-- A module. Without a type it is shown with its basename. -/
def module (basename : Value) (children : List SimObject) (typeName : Value := .text "")
    (kind : Value := .text "sc_module") : SimObject :=
  mk { basename, kind, typeName := typeName.orElse basename } children []

def port (basename kind direction : Value) (bound signal : Value := .null) : SimObject :=
  ofFacts { basename, kind, typeName := kind, direction, identity := bound, signal }

/-- A clock. Unless it is bound it drives a binding of its own name. -/
def clock (basename : Value) (bound : Value := .null) : SimObject :=
  ofFacts
    { basename
      kind := .text Kind.clock
      typeName := .text "sc_core::sc_clock"
      identity := if bound.isNull then basename else bound }

/-- A socket with two faces. A target takes the forward binding in and drives the backward one; an
initiator does the opposite. The kind tells which of them it is. -/
def socket (basename kind forward backward : Value) : Except Error SimObject := do
  let target ← kind.contains (.text "target")
  let stem ← basename.written
  let face (name : Value) (d : Direction) (identity : Value) : SimObject :=
    ofFacts { basename := name, kind, typeName := kind, direction := .text d.word, identity }
  let ending : Text := if target then "_port" else "_export"
  pure (mk { basename, kind, typeName := kind } []
    [face basename (if target then .input else .output) forward,
      face (.text (stem ++ ending)) (if target then .output else .input) backward])

def leaf (basename kind : Value) : SimObject := ofFacts { basename, kind, typeName := kind }

end Schematic.SimObject
