import Schematic.Value.Equality
import Schematic.Value.Text

/-! What the parts of a value have from the value: what a collection lists and what a mapping holds
can be written if the whole can, and contains itself only if something in the whole does. -/

namespace Schematic.Value

variable {v w whole : Value} {key : Text} {i : KnotId} {items : List Value}
  {entries : List (Value × Value)}

/-- What holds of all that a value lists and holds if it holds of the value. -/
structure Passes (P : Value → Prop) : Prop where
  held : ∀ {v w : Value} {key : Text}, P v → v.get? key = some w → P w
  listed : ∀ {v : Value} {items : List Value}, P v → v.items? = some items → ∀ w ∈ items, P w

theorem mem_of_get? (held : v.get? key = some w) :
    ∃ entries k, v.opened = .mapping entries ∧ (k, w) ∈ entries := by
  unfold get? entries? at held
  split at held
  · next entries found =>
    split at found
    · next entries' shown =>
      cases found
      obtain ⟨⟨k, w'⟩, met, same⟩ := Option.map_eq_some_iff.mp held
      cases same
      exact ⟨entries, k, shown, List.mem_of_find?_eq_some met⟩
    · cases found
  · cases held

theorem opened_of_items? (held : v.items? = some items) : v.opened = .list items := by
  unfold items? at held
  split at held
  · next items' shown =>
    cases held
    exact shown
  · cases held

theorem areWritable_iff : areWritable items = true ↔ ∀ v ∈ items, v.isWritable = true := by
  induction items with
  | nil => simp [areWritable]
  | cons v items ih => rw [areWritable, Bool.and_eq_true, ih, List.forall_mem_cons]

theorem entriesWritable_iff : entriesWritable entries = true ↔
    ∀ e ∈ entries, e.1.isWritable = true ∧ e.2.isWritable = true := by
  induction entries with
  | nil => simp [entriesWritable]
  | cons e entries ih =>
    obtain ⟨k, v⟩ := e
    rw [entriesWritable, Bool.and_eq_true, Bool.and_eq_true, ih, List.forall_mem_cons]

mutual

theorem isWritable_fill (all : whole.isWritable = true) :
    ∀ v : Value, v.isWritable = true → (fill i whole v).isWritable = true
  | .again j shape => by
    intro written
    rw [fill]
    split
    · exact all
    · exact written
  | .list items => by
    rw [fill, isWritable, isWritable]
    exact areWritable_fill all items
  | .tuple items => by
    rw [fill, isWritable, isWritable]
    exact areWritable_fill all items
  | .mapping entries => by
    rw [fill, isWritable, isWritable]
    exact entriesWritable_fill all entries
  | .knot j content => by
    intro written
    rw [fill]
    split
    · exact written
    · exact isWritable_fill all content written
  | .null | .bool _ | .int _ | .float _ | .nan _ | .text _ | .bytes _ | .date _ | .moment _
  | .set _ | .direction _ => by
    rw [fill]
    · exact id
    all_goals exact nofun

theorem areWritable_fill (all : whole.isWritable = true) :
    ∀ items : List Value, areWritable items = true → areWritable (fillAll i whole items) = true
  | [] => id
  | v :: items => by
    intro written
    rw [areWritable, Bool.and_eq_true] at written
    rw [fillAll, areWritable, Bool.and_eq_true]
    exact ⟨isWritable_fill all v written.1, areWritable_fill all items written.2⟩

theorem entriesWritable_fill (all : whole.isWritable = true) :
    ∀ entries : List (Value × Value), entriesWritable entries = true →
      entriesWritable (fillEntries i whole entries) = true
  | [] => id
  | (k, v) :: entries => by
    intro written
    simp only [entriesWritable, Bool.and_eq_true] at written
    simp only [fillEntries, entriesWritable, Bool.and_eq_true]
    exact ⟨⟨written.1.1, isWritable_fill all v written.1.2⟩,
      entriesWritable_fill all entries written.2⟩

end

theorem isWritable_opened (written : v.isWritable = true) : v.opened.isWritable = true := by
  cases v with
  | knot i content =>
    have whole : (Value.knot i content).isWritable = true := written
    exact isWritable_fill whole content written
  | _ => exact written

theorem isWritable_passes : Passes fun v => v.isWritable = true where
  held := fun {v w key} written held => by
    obtain ⟨entries, k, shown, listed⟩ := mem_of_get? held
    have opened := isWritable_opened written
    rw [shown, isWritable, entriesWritable_iff] at opened
    exact (opened _ listed).2
  listed := fun {v items} written held => by
    have opened := isWritable_opened written
    rwa [opened_of_items? held, isWritable, areWritable_iff] at opened

mutual

/-- Whether nothing in a value contains itself. -/
def isTree : Value → Bool
  | .list items => areTrees items
  | .tuple items => areTrees items
  | .mapping entries => entriesTrees entries
  | .set members => areTrees members
  | .knot _ _ => false
  | .again _ _ => false
  | _ => true

def areTrees : List Value → Bool
  | [] => true
  | v :: vs => isTree v && areTrees vs

def entriesTrees : List (Value × Value) → Bool
  | [] => true
  | (_, v) :: es => isTree v && entriesTrees es

end

theorem areTrees_iff : areTrees items = true ↔ ∀ v ∈ items, v.isTree = true := by
  induction items with
  | nil => simp [areTrees]
  | cons v items ih => rw [areTrees, Bool.and_eq_true, ih, List.forall_mem_cons]

theorem entriesTrees_iff : entriesTrees entries = true ↔ ∀ e ∈ entries, e.2.isTree = true := by
  induction entries with
  | nil => simp [entriesTrees]
  | cons e entries ih =>
    obtain ⟨k, v⟩ := e
    rw [entriesTrees, Bool.and_eq_true, ih, List.forall_mem_cons]

theorem isKnot_of_isTree (tree : v.isTree = true) : v.isKnot = false := by
  cases v with
  | knot => cases tree
  | _ => rfl

theorem opened_of_not_isKnot (plain : v.isKnot = false) : v.opened = v := by
  cases v with
  | knot => cases plain
  | _ => rfl

theorem isTree_passes : Passes fun v => v.isTree = true where
  held := fun {v w key} tree held => by
    obtain ⟨entries, k, shown, listed⟩ := mem_of_get? held
    rw [opened_of_not_isKnot (isKnot_of_isTree tree)] at shown
    rw [shown, isTree, entriesTrees_iff] at tree
    exact tree _ listed
  listed := fun {v items} tree held => by
    have shown := opened_of_items? held
    rw [opened_of_not_isKnot (isKnot_of_isTree tree)] at shown
    rwa [shown, isTree, areTrees_iff] at tree

theorem forall_insertEntry {P Q : Value → Prop} {k : Value} (key : P k) (value : Q v)
    (all : ∀ e ∈ entries, P e.1 ∧ Q e.2) : ∀ e ∈ insertEntry entries k v, P e.1 ∧ Q e.2 := by
  induction entries with
  | nil =>
    rw [insertEntry]
    exact List.forall_mem_singleton.mpr ⟨key, value⟩
  | cons e entries ih =>
    obtain ⟨l, w⟩ := e
    rw [List.forall_mem_cons] at all
    rw [insertEntry]
    split
    · exact List.forall_mem_cons.mpr ⟨⟨all.1.1, value⟩, all.2⟩
    · exact List.forall_mem_cons.mpr ⟨all.1, ih all.2⟩

theorem entriesWritable_insertEntry {k : Value} (key : k.isWritable = true)
    (value : v.isWritable = true) (all : entriesWritable entries = true) :
    entriesWritable (insertEntry entries k v) = true :=
  entriesWritable_iff.mpr (forall_insertEntry (P := fun l => l.isWritable = true)
    (Q := fun w => w.isWritable = true) key value (entriesWritable_iff.mp all))

theorem entriesTrees_insertEntry {k : Value} (value : v.isTree = true)
    (all : entriesTrees entries = true) : entriesTrees (insertEntry entries k v) = true := by
  have inserted := forall_insertEntry (P := fun _ => True) (Q := fun w => w.isTree = true)
    (k := k) trivial value fun e he => ⟨trivial, entriesTrees_iff.mp all e he⟩
  exact entriesTrees_iff.mpr fun e he => (inserted e he).2

theorem entriesWritable_insertAll {more : List (Value × Value)}
    (all : entriesWritable more = true) (start : entriesWritable entries = true) :
    entriesWritable (more.foldl (fun es (k, v) => insertEntry es k v) entries) = true := by
  induction more generalizing entries with
  | nil => exact start
  | cons e more ih =>
    obtain ⟨k, v⟩ := e
    simp only [entriesWritable, Bool.and_eq_true] at all
    exact ih all.2 (entriesWritable_insertEntry all.1.1 all.1.2 start)

def ofFields (fields : List (Text × Value)) : Value :=
  .mapping (fields.map fun field => (.text field.1, field.2))

@[simp] theorem entries?_ofFields (fields : List (Text × Value)) :
    (ofFields fields).entries? = some (fields.map fun field => (.text field.1, field.2)) := by
  simp only [entries?, ofFields, opened]

@[simp] theorem get?_ofFields (fields : List (Text × Value)) (key : Text) :
    (ofFields fields).get? key = (fields.find? fun field => field.1 == key).map Prod.snd := by
  have kept : (fun entry : Value × Value => entry.1.same (.text key)) ∘
      (fun field : Text × Value => (.text field.1, field.2)) = fun field => field.1 == key := by
    funext field
    simp only [Function.comp_apply, same]
  simp only [get?, entries?_ofFields, lookup, List.find?_map, kept, Option.map_map]
  rfl

end Schematic.Value
