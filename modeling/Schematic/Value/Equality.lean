import Schematic.Value.Basic

/-!
Sameness of values. Numbers are compared by what they are worth, whatever their type, collections
item by item, and a direction like the text of its word.

* `same` is what tables and collections go by. It takes one not-a-number object for itself.
* `equal` compares two values by themselves. Not-a-number equals nothing.
-/

namespace Schematic

/-- What a number is worth: an exact value or an infinity. -/
inductive Worth where
  | exact (x : Dyadic)
  | infinite (negative : Bool)

namespace Worth

def equal : Worth → Worth → Bool
  | .exact x, .exact y => x.equal y
  | .infinite a, .infinite b => a == b
  | _, _ => false

def less : Worth → Worth → Bool
  | .exact x, .exact y => x.less y
  | .infinite a, .infinite b => a && !b
  | .infinite a, .exact _ => a
  | .exact _, .infinite b => !b

end Worth

namespace Value

/-- The worth of a number; truth values count as one and zero. -/
def worth? : Value → Option Worth
  | .bool b => some (.exact (.ofInt (if b then 1 else 0)))
  | .int n => some (.exact (.ofInt n))
  | .float (.infinite negative) => some (.infinite negative)
  | .float (.finite negative m e) => some (.exact ⟨if negative then -(m : Int) else m, e⟩)
  | _ => none

def sameWorth (a b : Value) : Bool :=
  match a.worth?, b.worth? with
  | some x, some y => x.equal y
  | _, _ => false

mutual

/-- Sameness of two table keys or of two items of collections. A knot is the same as itself. -/
def same : Value → Value → Bool
  | .null, .null => true
  | .nan a, .nan b => a == b
  | .text s, .text t => s == t
  | .text s, .direction d => s == (d.word : Text)
  | .direction d, .text s => (d.word : Text) == s
  | .direction d, .direction e => d == e
  | .bytes a, .bytes b => a == b
  | .date d, .date e => d == e
  | .moment m, .moment n => m.same n
  | .tuple xs, .tuple ys => sameItems xs ys
  | .list xs, .list ys => sameItems xs ys
  | .mapping xs, .mapping ys => xs.length == ys.length && entriesWithin xs ys
  | .set xs, .set ys => xs.length == ys.length && membersWithin xs ys
  | .knot i _, .knot j _ => i == j
  | .again i _, .again j _ => i == j
  | a, b => sameWorth a b

def sameItems : List Value → List Value → Bool
  | [], [] => true
  | x :: xs, y :: ys => same x y && sameItems xs ys
  | _, _ => false

def membersWithin : List Value → List Value → Bool
  | [], _ => true
  | x :: xs, ys => (ys.any fun y => same x y) && membersWithin xs ys

def entriesWithin : List (Value × Value) → List (Value × Value) → Bool
  | [], _ => true
  | (k, v) :: rest, ys => (ys.any fun (l, w) => same k l && same v w) && entriesWithin rest ys

end

def lookup (entries : List (Value × Value)) (key : Value) : Option Value :=
  (entries.find? fun entry => entry.1.same key).map Prod.snd

/-- The value that a mapping holds under a text; `none` also for a value that is no mapping. -/
def get? (v : Value) (key : Text) : Option Value :=
  match v.entries? with
  | some entries => lookup entries (.text key)
  | none => none

/-- The value under a text, or the given one where there is no such entry. -/
def getD (v : Value) (key : Text) (fallback : Value) : Value := (v.get? key).getD fallback

/-- A mapping with one more entry. A key that is there already keeps its place and gets the new
value. -/
def insertEntry {α : Type} (entries : List (Value × α)) (key : Value) (value : α) :
    List (Value × α) :=
  match entries with
  | [] => [(key, value)]
  | (k, v) :: rest =>
    if k.same key then (k, value) :: rest else (k, v) :: insertEntry rest key value

def equal : Value → Value → Bool
  | .nan _, _ => false
  | a, b => same a b

/-- Whether a list of values holds one that equals the given value, or that very object. -/
def isAmong (v : Value) (items : List Value) : Bool := items.any fun item => item.same v

/-- Whether a container holds a value: a sequence one of its items, a table one of its keys, a text
one of its parts. A table can be asked for what could be a key only, a text for texts only, and
nothing else is a container. -/
def holds? (container v : Value) : Option Bool :=
  match container.opened with
  | .list items => some (v.isAmong items)
  | .tuple items => some (v.isAmong items)
  | .set members => if v.isHashable || v.isSet then some (v.isAmong members) else none
  | .mapping entries => if v.isHashable then some (lookup entries v).isSome else none
  | .text s => v.text?.map s.mentions
  | .direction d => v.text?.map (Text.mentions d.word)
  | _ => none

/-- What a container holds, one by one: the items of a sequence, the keys of a table, the
characters of a text. -/
def members? (container : Value) : Option (List Value) :=
  let characters (t : Text) : List Value := t.points.map fun p => .text ⟨[p]⟩
  match container.opened with
  | .list items => some items
  | .tuple items => some items
  | .set members => some members
  | .mapping entries => some (entries.map Prod.fst)
  | .text s => some (characters s)
  | .direction d => some (characters d.word)
  | .bytes content => some (content.map fun (b : UInt8) => .int b.toNat)
  | _ => none

def distinctKeys : List Value → List Value
  | [] => []
  | v :: vs => v :: (distinctKeys vs).filter fun w => !v.same w

def isNumber : Value → Bool
  | .nan _ => true
  | v => v.worth?.isSome

/-- The strict order of two single values; `none` where they cannot be compared. Not-a-number is
neither less nor greater than any number. -/
def singleLess? (a b : Value) : Option Bool :=
  match a.text?, b.text?, a.worth?, b.worth? with
  | some s, some t, _, _ => some (!t.le s)
  | _, _, some x, some y => some (x.less y)
  | _, _, _, _ => if a.isNumber && b.isNumber then some false else none

mutual

/-- The strict order of two values; `none` where they cannot be compared. Tuples are ordered by the
first items that differ, and a tuple comes before its continuations. -/
def less? : Value → Value → Option Bool
  | .tuple xs, .tuple ys => itemsLess? xs ys
  | a, b => singleLess? a b

def itemsLess? : List Value → List Value → Option Bool
  | _, [] => some false
  | [], _ :: _ => some true
  | x :: xs, y :: ys => if same x y then itemsLess? xs ys else less? x y

end

end Value

end Schematic
