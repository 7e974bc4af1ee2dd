import Schematic.Proofs.Survey.Naming
import Schematic.Proofs.Survey.Need
import Schematic.Snapshot.Loader

/-! What a snapshot is read to. Each object that is loaded reports what some entry of the snapshot
states, whatever the entry states it by; the kind may be that of the entry around it. -/

namespace Schematic

/-- The entries of a snapshot: the objects that it lists, and what entries list as children or
faces. -/
inductive Value.HasEntry (data : Value) : Value → Prop where
  | object {items : List Value} {entry : Value}
      (held : (data.get? "objects").bind Value.items? = some items) (listed : entry ∈ items) :
      data.HasEntry entry
  | child {around entry : Value} {items : List Value} (outer : data.HasEntry around)
      (held : (around.get? "children").bind Value.items? = some items) (listed : entry ∈ items) :
      data.HasEntry entry
  | face {around entry : Value} {items : List Value} (outer : data.HasEntry around)
      (held : (around.get? "faces").bind Value.items? = some items) (listed : entry ∈ items) :
      data.HasEntry entry

/-- A list with the objects of a snapshot, and with what the entries in it list, has all entries. -/
theorem Value.HasEntry.mem {data entry : Value} {all : List Value} (known : data.HasEntry entry)
    (objects : ∀ items ∈ (data.get? "objects").bind Value.items?, items ⊆ all)
    (closed : ∀ around ∈ all,
      (∀ items ∈ (around.get? "children").bind Value.items?, items ⊆ all) ∧
        ∀ items ∈ (around.get? "faces").bind Value.items?, items ⊆ all) : entry ∈ all := by
  induction known with
  | object held listed => exact objects _ held listed
  | child _ held listed ih => exact (closed _ ih).1 _ held listed
  | face _ held listed ih => exact (closed _ ih).2 _ held listed

def Value.HasKind (data kind : Value) : Prop :=
  ∃ entry, data.HasEntry entry ∧ entry.get? "kind" = some kind

def ObjectFacts.IsReadFrom (data : Value) (facts : ObjectFacts) : Prop :=
  ∃ entry name kind direction, data.HasEntry entry ∧ entry.get? "name" = some name ∧
    data.HasKind kind ∧ SimObject.entryDirection entry kind = .ok direction ∧
      facts = SimObject.entryFacts entry name kind direction

namespace SimObject

variable {data entry owner : Value} {inherited found : Option Value} {key : String} {knots : Nat}
  {entries : List Value} {parts : EntryParts} {o : SimObject} {os objects : List SimObject}

theorem entryList_ok (read : entryList entry key owner = .ok found) :
    found = none ∨ found = entry.get? key := by
  unfold entryList at read
  split at read
  · next v held =>
    split at read
    · cases read
      exact .inl rfl
    · split at read
      · cases read
        exact .inr held.symm
      · cases read
  · cases read
    exact .inl rfl

theorem entryParts_ok (read : entryParts inherited entry = .ok parts) :
    ∃ name kind direction, entry.get? "name" = some name ∧
      (entry.get? "kind").or inherited = some kind ∧ entryDirection entry kind = .ok direction ∧
      parts.facts = entryFacts entry name kind direction ∧
      entryList entry "children" name = .ok parts.children ∧
      entryList entry "faces" name = .ok parts.faces := by
  unfold entryParts at read
  split at read
  · next name kind _ named classed =>
    split at read
    · cases read
    · next direction directed =>
      split at read
      · cases read
      · next children below =>
        split at read
        · cases read
        · next faces beside =>
          split at read
          · cases read
          · cases read
            exact ⟨name, kind, direction, named, classed, directed, rfl, below, beside⟩
  · cases read

theorem ofEntry_eq : ofEntry knots inherited entry = (do
    let parts ← entryParts inherited entry
    let left ← knotsLeft? knots entry
    let children ← ofList left none parts.children
    let faces ← ofList left (some parts.facts.kind) parts.faces
    pure (mk parts.facts children faces)) := by
  rw [ofEntry]
  split
  · next e failed => rw [failed]; rfl
  · next parts found =>
    rw [found]
    change _ = (knotsLeft? knots entry >>= _)
    split
    · next e failed => rw [failed]; rfl
    · next left room =>
      rw [room]
      change _ = (ofList left none parts.children >>= _)
      split
      · next e failed => rw [failed]; rfl
      · next children below =>
        rw [below]
        change _ = (ofList left (some parts.facts.kind) parts.faces >>= _)
        split
        · next e failed => rw [failed]; rfl
        · next faces beside => rw [beside]; rfl

theorem ofEntry_ok (read : ofEntry knots inherited entry = .ok o) :
    ∃ parts left children faces, entryParts inherited entry = .ok parts ∧
      ofList left none parts.children = .ok children ∧
      ofList left (some parts.facts.kind) parts.faces = .ok faces ∧
      o = mk parts.facts children faces := by
  rw [ofEntry_eq] at read
  obtain ⟨parts, found, read⟩ := exists_of_bind_ok read
  obtain ⟨left, -, read⟩ := exists_of_bind_ok read
  obtain ⟨children, below, read⟩ := exists_of_bind_ok read
  obtain ⟨faces, beside, read⟩ := exists_of_bind_ok read
  cases read
  exact ⟨parts, left, children, faces, found, below, beside, rfl⟩

/-- Where there is a list, its items are read one after the other. -/
theorem ofList_ok (read : ofList knots inherited found = .ok os) :
    os = [] ∨ ∃ left items, found.bind Value.items? = some items ∧
      ofEntries left inherited items = .ok os := by
  cases found with
  | none =>
    rw [ofList] at read
    cases read
    exact .inl rfl
  | some v =>
    unfold ofList at read
    split at read
    · next held => cases held
    · next entries held =>
      cases held
      exact .inr ⟨knots, entries, rfl, read⟩
    · next w _ same =>
      cases same
      split at read
      · cases read
      · next left _ =>
        split at read
        · cases items : v.items? with
          | none =>
            rw [items, Option.getD_none, ofEntries] at read
            cases read
            exact .inl rfl
          | some entries =>
            rw [items, Option.getD_some] at read
            exact .inr ⟨left, entries, items, read⟩
        · cases read
          exact .inl rfl

theorem ofEntries_eq (v : Value) (rest : List Value) :
    ofEntries knots inherited (v :: rest) = (do
      let o ← ofEntry knots inherited v
      let os ← ofEntries knots inherited rest
      pure (o :: os)) := by
  rw [ofEntries]
  cases ofEntry knots inherited v with
  | error e => rfl
  | ok o => cases ofEntries knots inherited rest <;> rfl

theorem ofEntries_ok (read : ofEntries knots inherited entries = .ok (o :: os)) :
    ∃ first rest, entries = first :: rest ∧ ofEntry knots inherited first = .ok o ∧
      ofEntries knots inherited rest = .ok os := by
  cases entries with
  | nil =>
    rw [ofEntries] at read
    cases read
  | cons first rest =>
    rw [ofEntries_eq] at read
    obtain ⟨o', one, read⟩ := exists_of_bind_ok read
    obtain ⟨os', others, read⟩ := exists_of_bind_ok read
    cases read
    exact ⟨first, rest, rfl, one, others⟩

structure ReadsLeaf (entry : Value) (facts : ObjectFacts) : Prop where
  parts : entryParts none entry = .ok ⟨facts, none, none⟩
  plain : entry.isKnot = false

theorem ReadsLeaf.ofEntry {facts : ObjectFacts} (leaf : ReadsLeaf entry facts) :
    ofEntry knots none entry = .ok (ofFacts facts) := by
  have opened : knotsLeft? knots entry = .ok knots := if_neg (by simp [leaf.plain])
  rw [ofEntry_eq, leaf.parts]
  simp only [bind, Except.bind, opened, ofList]
  rfl

theorem ofEntries_leaves {stated : List ObjectFacts}
    (leaves : List.Forall₂ ReadsLeaf entries stated) :
    ofEntries knots none entries = .ok (stated.map ofFacts) := by
  induction leaves with
  | nil => rw [ofEntries, List.map_nil]
  | cons leaf _ ih => rw [ofEntries, leaf.ofEntry, ih, List.map_cons]

theorem hasKind_of_classed {kind : Value} (known : data.HasEntry entry)
    (kinds : ∀ kind ∈ inherited, data.HasKind kind)
    (classed : (entry.get? "kind").or inherited = some kind) : data.HasKind kind := by
  rcases Option.or_eq_some_iff.mp classed with own | ⟨-, passed⟩
  · exact ⟨entry, known, own⟩
  · exact kinds kind passed

mutual

/-- By recursion over the object that was made: what a child or a face was made of is an entry
again. -/
theorem readFrom_ofEntry : ∀ (o : SimObject) {knots : Nat} {inherited : Option Value}
    {entry : Value}, data.HasEntry entry → (∀ kind ∈ inherited, data.HasKind kind) →
      ofEntry knots inherited entry = .ok o → ∀ f ∈ o.reports, f.IsReadFrom data
  | mk facts children faces, knots, inherited, entry, known, kinds, read => by
    obtain ⟨parts, left, children', faces', split, below, beside, same⟩ := ofEntry_ok read
    cases same
    obtain ⟨name, kind, direction, named, classed, directed, facts, inner, outer⟩ :=
      entryParts_ok split
    have kindly := hasKind_of_classed known kinds classed
    have self : parts.facts.IsReadFrom data :=
      ⟨entry, name, kind, direction, known, named, kindly, directed, facts⟩
    rw [reports, List.forall_mem_cons, List.forall_mem_append]
    refine ⟨self, ?_, ?_⟩
    · have all : ∀ f ∈ reportsAmong faces, f.IsReadFrom data := by
        rcases ofList_ok beside with rfl | ⟨left', items, held, each⟩
        · exact nofun
        · refine readFrom_ofEntries faces (fun e he => ?_) ?_ each
          · rcases entryList_ok outer with none | some
            · rw [none] at held
              cases held
            · exact .face known (some ▸ held) he
          · rintro _ ⟨⟩
            rw [facts]
            exact kindly
      intro f hf
      obtain ⟨face, listed, rfl⟩ := List.mem_map.mp hf
      exact (reports_self (forall_reports all face listed)).1
    · rcases ofList_ok below with rfl | ⟨left', items, held, each⟩
      · exact nofun
      · refine readFrom_ofEntries children (fun e he => ?_) (by rintro _ ⟨⟩) each
        rcases entryList_ok inner with none | some
        · rw [none] at held
          cases held
        · exact .child known (some ▸ held) he

theorem readFrom_ofEntries : ∀ (os : List SimObject) {knots : Nat} {inherited : Option Value}
    {entries : List Value}, (∀ e ∈ entries, data.HasEntry e) →
      (∀ kind ∈ inherited, data.HasKind kind) → ofEntries knots inherited entries = .ok os →
        ∀ f ∈ reportsAmong os, f.IsReadFrom data
  | [], _, _, _, _, _, _ => nofun
  | o :: os, knots, inherited, entries, known, kinds, read => by
    obtain ⟨first, rest, rfl, one, others⟩ := ofEntries_ok read
    rw [List.forall_mem_cons] at known
    rw [reportsAmong, List.forall_mem_append]
    exact ⟨readFrom_ofEntry o known.1 kinds one, readFrom_ofEntries os known.2 kinds others⟩

end

/-- The objects of a snapshot report what its entries state, under the names that they are given. -/
theorem readFrom_ofSnapshot (loaded : ofSnapshot data = .ok objects) :
    ∃ raw, objects = nameForest raw ∧ ∀ f ∈ reportsAmong raw, f.IsReadFrom data := by
  unfold ofSnapshot at loaded
  split at loaded
  · next items held =>
    obtain ⟨raw, read, named⟩ := exists_of_bind_ok loaded
    exact ⟨raw, eq_of_withNames named,
      readFrom_ofEntries raw (fun e he => .object held he) (by rintro _ ⟨⟩) read⟩
  · cases loaded

end SimObject

end Schematic
