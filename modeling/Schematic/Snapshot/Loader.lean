import Schematic.Snapshot.Object

/-!
Snapshots as values: a mapping whose `objects` are entries, each a mapping with a name, a kind, and
further facts, children and faces as it likes. Fields of an odd type are kept as they are; only the
shape of the tree is checked. An entry that contains itself among its children or faces describes
no finite hierarchy.

A finite hierarchy is read however deep it is. The nesting of entries, and of the values in them,
is taken to stay below the recursion limit of the interpreter, so whether a snapshot is accepted
depends on what it says alone.
-/

namespace Schematic.SimObject

/-- What one entry says: the facts, and the lists of the entries of the children and of the faces,
where there are such lists. -/
structure EntryParts where
  facts : ObjectFacts
  children : Option Value
  faces : Option Value

/-- The list that an entry holds under a key. A missing or false value is no list. -/
def entryList (entry : Value) (key : String) (owner : Value) : Except Error (Option Value) :=
  match entry.get? key with
  | some v =>
    if !v.isTrue then .ok none
    else if v.items?.isSome then .ok (some v)
    else .error (.snapshot (.list key owner v))
  | none => .ok none

/-- Whether a kind of port takes data in when nothing else is said. A set is no kind, and asking is
no error. -/
def takesIn (kind : Value) : Except Error Bool :=
  if kind.isHashable || kind.isSet then
    .ok (match kind with
      | .text s => Kind.inputPorts.contains s
      | _ => false)
  else .error .wrongType

/-- The direction that an entry states or implies. A bound entry without faces is a port, and its
kind tells whether it takes data in. -/
def entryDirection (entry kind : Value) : Except Error Value :=
  let stated := entry.getD "direction" .null
  if stated.isNull ∧ (entry.get? "bound").isSome ∧ ¬ (entry.getD "faces" .null).isTrue then
    (takesIn kind).map fun into =>
      .text (if into then Direction.input else Direction.output).word
  else .ok stated

/-- The entry of a face as a mapping that has the kind of its socket unless it gives one. -/
def withKind (inherited : Option Value) (entry : Value) : Value :=
  match inherited, entry.entries? with
  | some kind, some entries =>
    .mapping (entries.foldl (fun es (k, v) => Value.insertEntry es k v) [(.text "kind", kind)])
  | _, _ => entry

def checkFaces (owner : Value) : List Value → Except Error Unit
  | [] => .ok ()
  | v :: rest =>
    if v.entries?.isSome then checkFaces owner rest else .error (.snapshot (.face owner v))

/-- The facts of an object as an entry with this name and kind states them. A clock that is not
bound drives a binding of its own name. -/
def entryFacts (entry name kind direction : Value) : ObjectFacts :=
  let bound := entry.getD "bound" .null
  let isClock := match kind with
    | .text s => s == Kind.clock
    | _ => false
  { basename := name
    kind
    typeName := entry.getD "type" kind
    name := entry.getD "path" (.text .empty)
    direction
    identity := if isClock && bound.isNull then name else bound
    signal := entry.getD "alias" .null }

def entryParts (inherited : Option Value) (entry : Value) : Except Error EntryParts :=
  match entry.entries?, entry.get? "name", (entry.get? "kind").or inherited with
  | some _, some name, some kind =>
    match entryDirection entry kind with
    | .error e => .error e
    | .ok direction =>
      match entryList entry "children" name with
      | .error e => .error e
      | .ok children =>
        match entryList entry "faces" name with
        | .error e => .error e
        | .ok faces =>
          match checkFaces name ((faces.bind Value.items?).getD []) with
          | .error e => .error e
          | .ok () => .ok ⟨entryFacts entry name kind direction, children, faces⟩
  | _, _, _ => .error (.snapshot (.entry (withKind inherited entry)))

theorem sizeOf_lookup_lt {entries : List (Value × Value)} {key v : Value}
    (h : Value.lookup entries key = some v) : sizeOf v + 1 < sizeOf (Value.mapping entries) := by
  obtain ⟨entry, hfind, rfl⟩ := Option.map_eq_some_iff.1 h
  have hmem := List.mem_of_find?_eq_some hfind
  have hlt := List.sizeOf_lt_of_mem hmem
  obtain ⟨k, v⟩ := entry
  simp only [Value.mapping.sizeOf_spec, Prod.mk.sizeOf_spec] at hlt ⊢
  omega

/-- What a value that is no knot holds under a key is smaller than the value. -/
theorem sizeOf_get?_lt {entry v : Value} {key : Text} (hknot : entry.isKnot = false)
    (h : entry.get? key = some v) : sizeOf v + 1 < sizeOf entry := by
  unfold Value.get? Value.entries? Value.opened at h
  cases entry with
  | mapping entries => exact sizeOf_lookup_lt (by simpa using h)
  | knot => simp [Value.isKnot] at hknot
  | _ => simp at h

/-- The list of an entry that is no knot and holds something is smaller than the entry. -/
theorem sizeOf_entryList_lt {entry : Value} {key : String} {owner : Value} {found : Option Value}
    (hknot : entry.isKnot = false) (hsize : 1 < sizeOf entry)
    (h : entryList entry key owner = .ok found) : sizeOf found < sizeOf entry := by
  have hnone : sizeOf (none : Option Value) < sizeOf entry := by simpa using hsize
  unfold entryList at h
  split at h
  · next v hget =>
    split at h
    · cases h
      exact hnone
    · split at h
      · cases h
        have hlt := sizeOf_get?_lt hknot hget
        simp only [Option.some.sizeOf_spec]
        omega
      · exact nomatch h
  · cases h
    exact hnone

/-- The lists of an entry that is no knot are smaller than the entry. -/
theorem sizeOf_entryParts_lt {inherited : Option Value} {entry : Value} {parts : EntryParts}
    (hknot : entry.isKnot = false) (h : entryParts inherited entry = .ok parts) :
    sizeOf parts.children < sizeOf entry ∧ sizeOf parts.faces < sizeOf entry := by
  unfold entryParts at h
  split at h
  · next hname _ =>
    have hsize : 1 < sizeOf entry := by
      have := sizeOf_get?_lt hknot hname
      omega
    split at h
    · exact nomatch h
    · split at h
      · exact nomatch h
      · next children hchildren =>
        split at h
        · exact nomatch h
        · next faces hfaces =>
          split at h
          · exact nomatch h
          · cases h
            exact ⟨sizeOf_entryList_lt hknot hsize hchildren,
              sizeOf_entryList_lt hknot hsize hfaces⟩
  · exact nomatch h

/-- The number of knots that may be opened on the way down to one object. What needs more never
ends. -/
def mostKnots : Nat := 1000

/-- The number of knots that may be opened behind a value, if it may be opened itself. -/
def knotsLeft? (knots : Nat) (v : Value) : Except Error Nat :=
  if v.isKnot then
    match knots with
    | 0 => .error .endless
    | knots + 1 => .ok knots
  else .ok knots

theorem knotsLeft?_lt {knots left : Nat} {v : Value} (h : knotsLeft? knots v = .ok left) :
    left < knots ∨ (v.isKnot = false ∧ left = knots) := by
  unfold knotsLeft? at h
  split at h
  · split at h
    · exact nomatch h
    · cases h
      omega
  · next hknot =>
    cases h
    exact .inr ⟨by simpa using hknot, rfl⟩

mutual

/-- The object that an entry describes. The kind is inherited by the faces of a socket. -/
def ofEntry (knots : Nat) (inherited : Option Value) (entry : Value) : Except Error SimObject :=
  match _h : entryParts inherited entry with
  | .error e => .error e
  | .ok parts =>
    match _hk : knotsLeft? knots entry with
    | .error e => .error e
    | .ok left =>
      match ofList left none parts.children with
      | .error e => .error e
      | .ok children =>
        match ofList left (some parts.facts.kind) parts.faces with
        | .error e => .error e
        | .ok faces => .ok (mk parts.facts children faces)
termination_by (knots, sizeOf entry)
decreasing_by
  all_goals
    rcases knotsLeft?_lt _hk with hlt | ⟨hknot, rfl⟩
    · exact Prod.Lex.left _ _ hlt
    · have := sizeOf_entryParts_lt hknot _h
      exact Prod.Lex.right _ (by simp_all)

def ofList (knots : Nat) (inherited : Option Value) (found : Option Value) :
    Except Error (List SimObject) :=
  match found with
  | none => .ok []
  | some (.list entries) => ofEntries knots inherited entries
  | some v =>
    match _hk : knotsLeft? knots v with
    | .error e => .error e
    | .ok left => if _h : left < knots then ofEntries left inherited (v.items?.getD []) else .ok []
termination_by (knots, sizeOf found)
decreasing_by
  · exact Prod.Lex.right _ (by simp only [Option.some.sizeOf_spec, Value.list.sizeOf_spec]; omega)
  · exact Prod.Lex.left _ _ _h

def ofEntries (knots : Nat) (inherited : Option Value) :
    List Value → Except Error (List SimObject)
  | [] => .ok []
  | entry :: entries =>
    match ofEntry knots inherited entry with
    | .error e => .error e
    | .ok o =>
      match ofEntries knots inherited entries with
      | .error e => .error e
      | .ok os => .ok (o :: os)
termination_by entries => (knots, sizeOf entries)

end

def ofSnapshot (data : Value) : Except Error (List SimObject) :=
  match (data.get? "objects").bind Value.items? with
  | some entries => (ofEntries mostKnots none entries).bind withNames
  | none => .error (.snapshot .noObjects)

end Schematic.SimObject
