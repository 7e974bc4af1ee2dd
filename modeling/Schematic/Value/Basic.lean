import Schematic.Calendar
import Schematic.Direction
import Schematic.Number.Binary64
import Schematic.Text.Basic

/-!
The values that a simulation reports about its objects, and that snapshot files hold. Nothing
forces a simulation to report a text as a name or a connectable value as a binding, so every
attribute of an object is a value, and what reads it decides what to do with an odd one.

A file can make a collection that contains itself. Such a collection is a knot: it carries the
identity of its object, and inside it that identity stands for the whole again.
-/

namespace Schematic

/-- The shape of a collection that can be on the way back to itself. -/
inductive Shape where
  | list
  | tuple
  | mapping
  deriving DecidableEq, Repr, Inhabited

/-- The identity of a collection that contains itself: a collection of a document, or the pair at a
place in it. -/
structure KnotId where
  collection : Nat
  place : Option Nat := none
  deriving DecidableEq, Repr, Inhabited

/-- A reported value. A mapping keeps its entries in the order of their first insertion, a set its
members in the order of their slots.

Not-a-number differs from itself, but a table finds it again when it is the same object; `nan`
therefore carries the number of its object. -/
inductive Value where
  | null
  | bool (b : Bool)
  | int (n : Int)
  | float (x : Binary64)
  | nan (object : Nat)
  | text (s : Text)
  | bytes (content : List UInt8)
  | date (d : Date)
  | moment (m : Moment)
  | list (items : List Value)
  | tuple (items : List Value)
  | mapping (entries : List (Value × Value))
  | set (members : List Value)
  | direction (d : Direction)
  | knot (object : KnotId) (content : Value)
  | again (object : KnotId) (shape : Shape)
  deriving Inhabited

namespace Value

mutual

def fill (object : KnotId) (whole : Value) : Value → Value
  | .again i shape => if i = object then whole else .again i shape
  | .list items => .list (fillAll object whole items)
  | .tuple items => .tuple (fillAll object whole items)
  | .mapping entries => .mapping (fillEntries object whole entries)
  | .knot i content => if i = object then .knot i content else .knot i (fill object whole content)
  | v => v

def fillAll (object : KnotId) (whole : Value) : List Value → List Value
  | [] => []
  | v :: vs => fill object whole v :: fillAll object whole vs

def fillEntries (object : KnotId) (whole : Value) : List (Value × Value) → List (Value × Value)
  | [] => []
  | (k, v) :: es => (k, fill object whole v) :: fillEntries object whole es

end

/-- What is in a knot: the collection, with the knot itself where it contains itself. All other
values are as they are. -/
def opened : Value → Value
  | .knot i content => fill i (.knot i content) content
  | v => v

def isKnot : Value → Bool
  | .knot _ _ => true
  | _ => false

def items? (v : Value) : Option (List Value) :=
  match v.opened with
  | .list items => some items
  | _ => none

def entries? (v : Value) : Option (List (Value × Value)) :=
  match v.opened with
  | .mapping entries => some entries
  | _ => none

def isNull : Value → Bool
  | .null => true
  | _ => false

def isTrue : Value → Bool
  | .null => false
  | .bool b => b
  | .int n => n != 0
  | .float x => !x.isZero
  | .text s => !s.isEmpty
  | .bytes content => !content.isEmpty
  | .list items => !items.isEmpty
  | .tuple items => !items.isEmpty
  | .mapping entries => !entries.isEmpty
  | .set members => !members.isEmpty
  | _ => true

def orElse (v fallback : Value) : Value := if v.isTrue then v else fallback

def shapeName : Shape → String
  | .list => "list"
  | .tuple => "tuple"
  | .mapping => "dict"

def typeName : Value → String
  | .null => "NoneType"
  | .bool _ => "bool"
  | .int _ => "int"
  | .float _ => "float"
  | .nan _ => "float"
  | .text _ => "str"
  | .bytes _ => "bytes"
  | .date _ => "date"
  | .moment _ => "datetime"
  | .list _ => shapeName .list
  | .tuple _ => shapeName .tuple
  | .mapping _ => shapeName .mapping
  | .set _ => "set"
  | .direction _ => "Direction"
  | .knot _ content => typeName content
  | .again _ shape => shapeName shape

/-- The text of a value that is one. A direction is the text of its word. -/
def text? : Value → Option Text
  | .text s => some s
  | .direction d => some d.word
  | _ => none

/-- Whether a value is raw bytes, which offer what texts offer but do not mix with them. -/
def isBytes : Value → Bool
  | .bytes _ => true
  | _ => false

def isSet : Value → Bool
  | .set _ => true
  | _ => false

mutual

/-- Whether a value can serve as a table key: collections that can change cannot, nor can a tuple
that holds one. Every knot holds one. -/
def isHashable : Value → Bool
  | .list _ => false
  | .mapping _ => false
  | .set _ => false
  | .knot _ _ => false
  | .again _ _ => false
  | .tuple items => areHashable items
  | _ => true

def areHashable : List Value → Bool
  | [] => true
  | v :: vs => isHashable v && areHashable vs

end

end Value

end Schematic
