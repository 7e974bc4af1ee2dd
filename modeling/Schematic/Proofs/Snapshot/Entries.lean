import Schematic.Proofs.Snapshot.Loading
import Schematic.Proofs.Value.Parts

/-! Entries of snapshots. Where an entry may hold a list of further entries it may also hold
nothing, or a value that stands for nothing. What the loader takes from one entry settles whether
the entry is legal, but for the entries inside it. -/

namespace Schematic

mutual

/-- The entry of an object, with the kind that it inherits. Only a mapping holds something under a
key. -/
inductive Value.IsEntry (empty : Value → Prop) : Option Value → Value → Prop
  | mk {inherited : Option Value} {entry name kind : Value} (named : entry.get? "name" = some name)
      (classed : (entry.get? "kind").or inherited = some kind)
      (children : Value.IsEntryList empty none (entry.get? "children"))
      (faces : Value.IsEntryList empty (some kind) (entry.get? "faces")) :
      Value.IsEntry empty inherited entry

inductive Value.IsEntryList (empty : Value → Prop) : Option Value → Option Value → Prop
  | missing {inherited : Option Value} : Value.IsEntryList empty inherited none
  | nothing {inherited : Option Value} {v : Value} (stands : empty v) :
      Value.IsEntryList empty inherited (some v)
  | entries {inherited : Option Value} {v : Value} {items : List Value}
      (held : v.items? = some items) (each : ∀ e ∈ items, Value.IsEntry empty inherited e) :
      Value.IsEntryList empty inherited (some v)

end

namespace Value

def IsSnapshot (empty : Value → Prop) (data : Value) : Prop :=
  ∃ items, (data.get? "objects").bind items? = some items ∧ ∀ e ∈ items, IsEntry empty none e

/-- What the loader takes for an empty list. -/
def IsFalse (v : Value) : Prop := v.isTrue = false

/-- An entry whose kind, its own or one that it may inherit, would tell its direction if a table
could be asked for it. -/
structure IsUndirected (entry kind : Value) : Prop where
  own : entry.getD "kind" kind = kind
  unstated : (entry.getD "direction" .null).isNull = true
  bound : (entry.get? "bound").isSome = true
  faceless : (entry.getD "faces" .null).isTrue = false
  unhashable : kind.isHashable = false
  noSet : kind.isSet = false

def HasUndirected (data : Value) : Prop :=
  ∃ entry kind, data.HasEntry entry ∧ data.HasKind kind ∧ IsUndirected entry kind

/-- How loading data fails without saying that they are malformed. -/
inductive Trips (data : Value) : Error → Prop
  | kind (undirected : data.HasUndirected) : Trips data .wrongType
  | long (unwritable : data.isWritable = false) : Trips data .tooLongToWrite
  | endless (knotted : data.isTree = false) : Trips data .endless

end Value

namespace SimObject

open Value

variable {α β : Type} {data entry owner v : Value} {inherited found : Option Value} {key : String}
  {knots : Nat} {entries : List Value} {parts : EntryParts} {legal legal' : Prop} {e : Error}

/-- What a result says of data and of a part of them that ought to be legal: it is, or why not. -/
def Settles (data : Value) (legal : Prop) : Except Error α → Prop
  | .ok _ => legal
  | .error (.snapshot why) => ¬ legal ∧ (data.isWritable = true → why.isWritable = true)
  | .error .wrongType => data.HasUndirected
  | .error .endless => data.isTree = false
  | .error _ => False

namespace Settles

theorem of_error (h : Settles data legal (.error e : Except Error α)) (less : legal' → legal) :
    Settles data legal' (.error e : Except Error β) := by
  cases e with
  | snapshot why => exact ⟨fun holds => h.1 (less holds), h.2⟩
  | _ => exact h

theorem bind {r : Except Error α} {next : α → Except Error β}
    (fails : ∀ e, r = .error e → Settles data legal (.error e : Except Error β))
    (later : ∀ a, r = .ok a → Settles data legal (next a)) : Settles data legal (r >>= next) := by
  cases r with
  | error e => exact fails e rfl
  | ok a => exact later a rfl

end Settles

def listed (found : Option Value) : List Value := (found.bind items?).getD []

theorem entryList_settles (inherited : Option Value)
    (read : entryList entry key owner = .ok found) :
    IsEntryList IsFalse inherited (entry.get? key) ↔
      ∀ e ∈ listed found, IsEntry IsFalse inherited e := by
  unfold entryList at read
  cases held : entry.get? key with
  | none =>
    rw [held] at read
    cases read
    exact iff_of_true .missing (List.forall_mem_nil _)
  | some v =>
    rw [held] at read
    dsimp only at read
    split_ifs at read with false' list
    · cases read
      exact iff_of_true (.nothing (by simpa [IsFalse] using false')) (List.forall_mem_nil _)
    · cases read
      obtain ⟨items, shown⟩ := Option.isSome_iff_exists.mp list
      have same : listed (some v) = items := by rw [listed, Option.bind_some, shown]; rfl
      rw [same]
      constructor
      · rintro (_ | stands | ⟨held', each⟩)
        · exact absurd stands (by simpa [IsFalse] using false')
        · cases shown.symm.trans held'
          exact each
      · exact .entries shown

theorem entryList_refuses (inherited : Option Value)
    (read : entryList entry key owner = .error e) :
    ¬ IsEntryList IsFalse inherited (entry.get? key) ∧ ∃ v, e = .snapshot (.list key owner v) := by
  unfold entryList at read
  cases held : entry.get? key with
  | none =>
    rw [held] at read
    cases read
  | some v =>
    rw [held] at read
    dsimp only at read
    split_ifs at read with false' list
    cases read
    refine ⟨?_, v, rfl⟩
    rintro (_ | stands | ⟨held', -⟩)
    · exact absurd stands (by simpa [IsFalse] using false')
    · exact list (by rw [held']; rfl)

theorem entryDirection_refuses {kind : Value}
    (classed : (entry.get? "kind").or inherited = some kind)
    (read : entryDirection entry kind = .error e) : e = .wrongType ∧ IsUndirected entry kind := by
  have own : entry.getD "kind" kind = kind := by
    rw [getD]
    rcases Option.or_eq_some_iff.mp classed with stated | ⟨none, -⟩
    · rw [stated, Option.getD_some]
    · rw [none, Option.getD_none]
  unfold entryDirection at read
  dsimp only at read
  split_ifs at read with asked
  unfold takesIn at read
  split_ifs at read with askable
  · cases read
  · cases read
    rw [Bool.or_eq_true, not_or] at askable
    exact ⟨rfl, own, asked.1, asked.2.1, by simpa using asked.2.2, by simpa using askable.1,
      by simpa using askable.2⟩

theorem checkFaces_refuses (read : checkFaces owner entries = .error e) :
    ∃ v ∈ entries, v.entries? = none ∧ e = .snapshot (.face owner v) := by
  induction entries with
  | nil => cases read
  | cons v entries ih =>
    rw [checkFaces] at read
    split_ifs at read with mapping
    · obtain ⟨w, hw, found⟩ := ih read
      exact ⟨w, List.mem_cons_of_mem _ hw, found⟩
    · cases read
      exact ⟨v, List.mem_cons_self, by simpa using mapping, rfl⟩

theorem lists_of_isEntry {empty : Value → Prop} {kind : Value}
    (legal : IsEntry empty inherited entry)
    (classed : (entry.get? "kind").or inherited = some kind) :
    IsEntryList empty none (entry.get? "children") ∧
      IsEntryList empty (some kind) (entry.get? "faces") := by
  obtain ⟨-, classed', children, faces⟩ := legal
  cases classed.symm.trans classed'
  exact ⟨children, faces⟩

theorem isMapping {empty : Value → Prop} (entry : IsEntry empty inherited v) :
    v.entries? ≠ none := by
  obtain ⟨named, -, -, -⟩ := entry
  intro none
  rw [get?, none] at named
  cases named

theorem hasEntry_of_listed (known : data.HasEntry entry)
    (read : entryList entry key owner = .ok found) (which : key = "children" ∨ key = "faces") :
    ∀ e ∈ listed found, data.HasEntry e := by
  intro e he
  rcases entryList_ok read with rfl | held
  · cases he
  · rw [listed, held] at he
    cases items : (entry.get? key).bind items? with
    | none =>
      rw [items] at he
      cases he
    | some vs =>
      rw [items] at he
      rcases which with rfl | rfl
      · exact .child known items he
      · exact .face known items he

/-- What every part of data has if they have it is what their entries have. -/
theorem passes_hasEntry {P : Value → Prop} (passes : Passes P) (all : P data)
    (known : data.HasEntry entry) : P entry := by
  have inside {w : Value} {k : Text} {items : List Value} (outer : P w)
      (held : (w.get? k).bind items? = some items) : ∀ e ∈ items, P e := by
    obtain ⟨list, found, shown⟩ := Option.bind_eq_some_iff.mp held
    exact passes.listed (passes.held outer found) shown
  induction known with
  | object held member => exact inside all held _ member
  | child _ held member ih => exact inside ih held _ member
  | face _ held member ih => exact inside ih held _ member

theorem passes_hasKind {P : Value → Prop} (passes : Passes P) (all : P data) {kind : Value}
    (known : data.HasKind kind) : P kind := by
  obtain ⟨entry, listed, held⟩ := known
  exact passes.held (passes_hasEntry passes all listed) held

theorem isWritable_withKind (written : entry.isWritable = true)
    (kinds : ∀ kind ∈ inherited, kind.isWritable = true) :
    (withKind inherited entry).isWritable = true := by
  unfold withKind
  split
  · next kind entries shown =>
    have all : entriesWritable entries = true := by
      unfold entries? at shown
      split at shown
      · next found =>
        cases shown
        have opened := isWritable_opened written
        rwa [found, isWritable] at opened
      · cases shown
    have start : entriesWritable [(.text "kind", kind)] = true := by
      simp [entriesWritable, kinds kind rfl]
    rw [isWritable]
    exact entriesWritable_insertAll all start
  · exact written

inductive PartFault (entry name kind : Value) : Error → Prop
  | direction (undirected : IsUndirected entry kind) : PartFault entry name kind .wrongType
  | children {v : Value} (unlisted : ¬ IsEntryList IsFalse none (entry.get? "children")) :
      PartFault entry name kind (.snapshot (.list "children" name v))
  | faces {v : Value} (unlisted : ¬ IsEntryList IsFalse (some kind) (entry.get? "faces")) :
      PartFault entry name kind (.snapshot (.list "faces" name v))
  | face {v : Value} {found : Option Value} (beside : entryList entry "faces" name = .ok found)
      (member : v ∈ listed found) (unmapped : v.entries? = none) :
      PartFault entry name kind (.snapshot (.face name v))

theorem entryParts_error (read : entryParts inherited entry = .error e) :
    (¬ IsEntry IsFalse inherited entry ∧ e = .snapshot (.entry (withKind inherited entry))) ∨
      ∃ name kind, entry.get? "name" = some name ∧
        (entry.get? "kind").or inherited = some kind ∧ PartFault entry name kind e := by
  unfold entryParts at read
  split at read
  · next name kind _ named classed =>
    refine .inr ⟨name, kind, named, classed, ?_⟩
    split at read
    · next direction =>
      cases read
      obtain ⟨rfl, undirected⟩ := entryDirection_refuses classed direction
      exact .direction undirected
    · split at read
      · next below =>
        cases read
        obtain ⟨unlisted, v, rfl⟩ := entryList_refuses none below
        exact .children unlisted
      · split at read
        · next beside =>
          cases read
          obtain ⟨unlisted, v, rfl⟩ := entryList_refuses (some kind) beside
          exact .faces unlisted
        · next faces beside =>
          split at read
          · next checked =>
            cases read
            obtain ⟨v, member, unmapped, rfl⟩ := checkFaces_refuses checked
            exact .face beside member unmapped
          · cases read
  · next none =>
    cases read
    refine .inl ⟨fun legal => ?_, rfl⟩
    obtain ⟨entries, mapping⟩ := Option.ne_none_iff_exists'.mp (isMapping legal)
    obtain ⟨named, classed, -, -⟩ := legal
    exact none _ _ _ mapping named classed

/-- What is wrong with an entry makes it no entry, and can be told if the data can be written. -/
theorem entryParts_refuses (known : data.HasEntry entry)
    (kinds : ∀ kind ∈ inherited, data.HasKind kind)
    (read : entryParts inherited entry = .error e) :
    Settles data (IsEntry IsFalse inherited entry) (.error e : Except Error α) := by
  have writable {v : Value} (part : data.HasEntry v) (all : data.isWritable = true) :
      v.isWritable = true := passes_hasEntry isWritable_passes all part
  rcases entryParts_error read with ⟨illegal, rfl⟩ | ⟨name, kind, named, classed, fault⟩
  · exact ⟨illegal, fun all => isWritable_withKind (writable known all) fun kind hk =>
      passes_hasKind isWritable_passes all (kinds kind hk)⟩
  · have called (all : data.isWritable = true) : name.isWritable = true :=
      isWritable_passes.held (writable known all) named
    cases fault with
    | direction undirected =>
      exact ⟨entry, kind, known, hasKind_of_classed known kinds classed, undirected⟩
    | children unlisted => exact ⟨fun legal => unlisted (lists_of_isEntry legal classed).1, called⟩
    | faces unlisted => exact ⟨fun legal => unlisted (lists_of_isEntry legal classed).2, called⟩
    | @face v found beside member unmapped =>
      refine ⟨fun legal => ?_, fun all => ?_⟩
      · have each := (entryList_settles (some kind) beside).mp (lists_of_isEntry legal classed).2
        exact isMapping (each v member) unmapped
      · have face := writable (hasEntry_of_listed known beside (.inr rfl) v member) all
        rw [SnapshotFault.isWritable, called all, face, Bool.and_self]

/-- The entries below one that is read make it one. -/
theorem entryParts_settles (read : entryParts inherited entry = .ok parts) :
    IsEntry IsFalse inherited entry ↔ (∀ e ∈ listed parts.children, IsEntry IsFalse none e) ∧
      ∀ e ∈ listed parts.faces, IsEntry IsFalse (some parts.facts.kind) e := by
  obtain ⟨name, kind, direction, named, classed, -, facts, below, beside⟩ := entryParts_ok read
  have kindly : parts.facts.kind = kind := by rw [facts]; rfl
  rw [kindly, ← entryList_settles none below, ← entryList_settles (some kind) beside]
  exact ⟨fun legal => lists_of_isEntry legal classed, fun both => .mk named classed both.1 both.2⟩

theorem knotsLeft?_refuses (read : knotsLeft? knots v = .error e) :
    e = .endless ∧ v.isTree = false := by
  unfold knotsLeft? at read
  split_ifs at read with knot
  split at read
  · cases read
    refine ⟨rfl, ?_⟩
    by_contra tree
    rw [isKnot_of_isTree (Bool.eq_true_of_not_eq_false tree)] at knot
    cases knot
  · cases read

theorem hasKind_of_parts (known : data.HasEntry entry)
    (kinds : ∀ kind ∈ inherited, data.HasKind kind)
    (read : entryParts inherited entry = .ok parts) :
    ∀ kind ∈ some parts.facts.kind, data.HasKind kind := by
  obtain ⟨name, kind, direction, -, classed, -, facts, -, -⟩ := entryParts_ok read
  rintro _ ⟨⟩
  rw [facts]
  exact hasKind_of_classed known kinds classed

theorem isTree_of_found (known : data.HasEntry entry)
    (read : entryList entry key owner = .ok found) (tree : data.isTree = true) :
    ∀ v ∈ found, v.isTree = true := by
  rcases entryList_ok read with rfl | rfl
  · nofun
  · exact fun v held => isTree_passes.held (passes_hasEntry isTree_passes tree known) held

end SimObject

end Schematic
