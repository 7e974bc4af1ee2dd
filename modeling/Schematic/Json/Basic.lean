import Schematic.Value.Text

/-!
JSON documents as trees. Members of an object keep their order, which is the order they are
written in. A value that no document can hold leaves a gap, which tells why.
-/

namespace Schematic

inductive JsonFault where
  /-- Points in time, raw bytes and sets have no form in a document, tuples none as a name. -/
  | noForm
  | circular
  | tooLong
  deriving DecidableEq, Repr

/-- A JSON document. Besides the numbers of the standard it can hold the infinities and
not-a-number. -/
inductive Json where
  | null
  | bool (b : Bool)
  | int (n : Int)
  | float (x : Binary64)
  | notANumber
  | text (s : Text)
  | array (items : List Json)
  | object (members : List (Text × Json))
  | gap (fault : JsonFault)
  deriving Inhabited

namespace Json

/-- The name under which a member with this key is written. Collections are no keys of a
document. -/
def memberName : Value → Except JsonFault Text
  | .null => .ok "null"
  | .bool b => .ok (if b then "true" else "false")
  | .int n => if Value.isWritableInt n then .ok (toString n) else .error .tooLong
  | .float x => .ok (FloatLayout.document.text x)
  | .nan _ => .ok FloatLayout.document.notANumber
  | .direction d => .ok d.word
  | .text s => .ok s
  | _ => .error .noForm

mutual

/-- A value as a document. Tuples are written like lists and directions like their words. -/
def ofValue : Value → Json
  | .null => .null
  | .bool b => .bool b
  | .int n => if Value.isWritableInt n then .int n else .gap .tooLong
  | .float x => .float x
  | .nan _ => .notANumber
  | .text s => .text s
  | .direction d => .text d.word
  | .list items => .array (ofValues items)
  | .tuple items => .array (ofValues items)
  | .mapping entries => .object (ofEntries entries)
  | .knot _ content => ofValue content
  | .again _ _ => .gap .circular
  | .bytes _ => .gap .noForm
  | .date _ => .gap .noForm
  | .moment _ => .gap .noForm
  | .set _ => .gap .noForm

def ofValues : List Value → List Json
  | [] => []
  | v :: vs => ofValue v :: ofValues vs

def ofEntries : List (Value × Value) → List (Text × Json)
  | [] => []
  | (k, v) :: es =>
    match memberName k with
    | .ok name => (name, ofValue v) :: ofEntries es
    | .error fault => (.empty, .gap fault) :: ofEntries es

end

@[simp] theorem ofValue_text (s : Text) : ofValue (.text s) = .text s := by simp [ofValue]

mutual

def firstFault? : Json → Option JsonFault
  | .gap fault => some fault
  | .array items => firstFaultIn? items
  | .object members => firstFaultOf? members
  | _ => none

def firstFaultIn? : List Json → Option JsonFault
  | [] => none
  | j :: js => (firstFault? j).or (firstFaultIn? js)

def firstFaultOf? : List (Text × Json) → Option JsonFault
  | [] => none
  | (_, j) :: rest => (firstFault? j).or (firstFaultOf? rest)

end

end Json

end Schematic
