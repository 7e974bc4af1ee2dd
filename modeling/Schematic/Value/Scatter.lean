import Schematic.ScatterTable
import Schematic.Value.Equality

/-!
Sets of values in the order of their slots. A number scatters by its worth, so that numbers of the
same worth compete for the same slot whatever their type. No rule tells where other values go: a set
that holds one keeps the order of insertion.
-/

namespace Schematic

/-- The prime that scatter numbers are counted by: 61 is the number of bits of a digit. -/
def scatterPrime : Nat := Nat.pow 2 61 - 1

def scatterCount : Nat := Nat.pow 2 64

/-- A signed number as a scatter number. One below zero is kept free. -/
def scatterOfInt (n : Int) : Nat := ((if n = -1 then -2 else n) % (scatterCount : Int)).toNat

/-- The scatter number of a worth. A power of two counts by its exponent modulo 61. -/
def Worth.scatter : Worth → Nat
  | .infinite negative => scatterOfInt (if negative then -314159 else 314159)
  | .exact x =>
    let magnitude := x.coefficient.natAbs * Nat.pow 2 (x.exponent % 61).toNat % scatterPrime
    scatterOfInt (if x.coefficient < 0 then -(magnitude : Int) else magnitude)

namespace Value

def firstOfEach (members : List Value) : List Value :=
  members.foldl (fun kept v => if v.isAmong kept then kept else kept ++ [v]) []

def setOf (members : List Value) : Value :=
  let kept := firstOfEach members
  match kept.mapM fun v => v.worth?.map fun w => (w.scatter, v) with
  | some scattered => .set ((default : ScatterTable Value).insertAll same scattered).toList
  | none => .set kept

end Value

end Schematic
