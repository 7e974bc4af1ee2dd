import Schematic.Number.Layout
import Schematic.Text.Quoted
import Schematic.Value.Basic

/-!
Values as text. A value has a plain text, which is what messages and names are made of, and a
quoted text, which also tells a text from a number. They differ for texts, directions and points in
time only; inside a collection all values are quoted. A knot is written once, and dots stand for it
where it comes again.

Whole numbers of too many digits are written nowhere: what would hold such a number fails.
-/

namespace Schematic.Value

def dots : Shape → String
  | .list => "[...]"
  | .tuple => "(...)"
  | .mapping => "\x7b...\x7d"

def shape : Value → Shape
  | .tuple _ => .tuple
  | .mapping _ => .mapping
  | _ => .list

/-- Quoted texts of items in the brackets of a tuple; a single item is followed by a comma. -/
def inTupleBrackets : List String → String
  | [item] => "(" ++ item ++ ",)"
  | items => "(" ++ ", ".intercalate items ++ ")"

mutual

def quotedIn (around : List KnotId) : Value → String
  | .null => "None"
  | .bool b => if b then "True" else "False"
  | .int n => toString n
  | .float x => FloatLayout.display.text x
  | .nan _ => FloatLayout.display.notANumber
  | .text s => s.inQuotes
  | .bytes content => quotedBytes content
  | .date d => d.quoted
  | .moment m => m.quoted
  | .list items => "[" ++ ", ".intercalate (quotedAll around items) ++ "]"
  | .tuple items => inTupleBrackets (quotedAll around items)
  | .mapping entries => "\x7b" ++ ", ".intercalate (quotedEntries around entries) ++ "\x7d"
  | .set [] => "set()"
  | .set members => "\x7b" ++ ", ".intercalate (quotedAll around members) ++ "\x7d"
  | .direction d => "<Direction." ++ d.symbol ++ ": " ++ (d.word : Text).inQuotes ++ ">"
  | .knot i content =>
    if around.contains i then dots content.shape else quotedIn (i :: around) content
  | .again _ shape => dots shape

def quotedAll (around : List KnotId) : List Value → List String
  | [] => []
  | v :: vs => quotedIn around v :: quotedAll around vs

def quotedEntries (around : List KnotId) : List (Value × Value) → List String
  | [] => []
  | (k, v) :: es => (quotedIn around k ++ ": " ++ quotedIn around v) :: quotedEntries around es

end

def quoted (v : Value) : String := v.quotedIn []

def plain : Value → Text
  | .text s => s
  | .direction d => "Direction." ++ d.symbol
  | .date d => d.plain
  | .moment m => m.plain
  | v => v.quoted

@[simp] theorem plain_text (s : Text) : (Value.text s).plain = s := rfl

def mostDigits : Nat := 4300

def isWritableInt (n : Int) : Bool := decide (n.natAbs < Nat.pow 10 mostDigits)

mutual

/-- Whether a value can be written as text: no whole number in it is too long. -/
def isWritable : Value → Bool
  | .int n => isWritableInt n
  | .list items => areWritable items
  | .tuple items => areWritable items
  | .mapping entries => entriesWritable entries
  | .set members => areWritable members
  | .knot _ content => isWritable content
  | _ => true

def areWritable : List Value → Bool
  | [] => true
  | v :: vs => isWritable v && areWritable vs

def entriesWritable : List (Value × Value) → Bool
  | [] => true
  | (k, v) :: es => isWritable k && isWritable v && entriesWritable es

end

@[simp] theorem isWritable_text (s : Text) : (Value.text s).isWritable = true := by
  simp [isWritable]

end Schematic.Value
