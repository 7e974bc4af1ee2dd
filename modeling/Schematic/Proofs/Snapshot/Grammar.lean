import Schematic.Proofs.Snapshot.Entries

/-! The grammar of snapshots, and what comes of data that follow it or not. The loader goes down the
entries and takes every false value for an empty list of them, not null alone. -/

namespace Schematic

namespace SimObject

open Value

variable {α : Type} {data : Value} {e : Error}

mutual

/-- By recursion like that of the loader, which opens knots and else goes down. -/
theorem settles_ofEntry (knots : Nat) (inherited : Option Value) (entry : Value)
    (known : data.HasEntry entry) (kinds : ∀ kind ∈ inherited, data.HasKind kind) :
    Settles data (IsEntry IsFalse inherited entry) (ofEntry knots inherited entry) := by
  rw [ofEntry_eq]
  refine .bind (fun e read => entryParts_refuses known kinds read) fun parts read => ?_
  refine .bind (fun e room => ?_) fun left room => ?_
  · obtain ⟨rfl, tied⟩ := knotsLeft?_refuses room
    refine Bool.eq_false_iff.mpr fun tree => ?_
    exact Bool.false_ne_true (tied.symm.trans (passes_hasEntry isTree_passes tree known))
  · have legal := entryParts_settles read
    obtain ⟨name, -, -, -, -, -, -, below, beside⟩ := entryParts_ok read
    have children := settles_ofList left none parts.children
      (hasEntry_of_listed known below (.inl rfl)) (isTree_of_found known below) nofun
    have faces := settles_ofList left (some parts.facts.kind) parts.faces
      (hasEntry_of_listed known beside (.inr rfl)) (isTree_of_found known beside)
      (hasKind_of_parts known kinds read)
    refine .bind (fun e failed => ?_) fun inner made => ?_
    · rw [failed] at children
      exact children.of_error fun all => (legal.mp all).1
    · refine .bind (fun e failed => ?_) fun outer made' => ?_
      · rw [failed] at faces
        exact faces.of_error fun all => (legal.mp all).2
      · rw [made] at children
        rw [made'] at faces
        exact legal.mpr ⟨children, faces⟩
termination_by (knots, sizeOf entry)
decreasing_by
  all_goals
    rcases knotsLeft?_lt room with fewer | ⟨plain, rfl⟩
    · exact Prod.Lex.left _ _ fewer
    · obtain ⟨children, faces⟩ := sizeOf_entryParts_lt plain read
      exact Prod.Lex.right _ (by assumption)

theorem settles_ofList (knots : Nat) (inherited found : Option Value)
    (known : ∀ e ∈ listed found, data.HasEntry e)
    (trees : data.isTree = true → ∀ v ∈ found, v.isTree = true)
    (kinds : ∀ kind ∈ inherited, data.HasKind kind) :
    Settles data (∀ e ∈ listed found, IsEntry IsFalse inherited e)
      (ofList knots inherited found) := by
  match found with
  | none =>
    rw [ofList]
    exact List.forall_mem_nil _
  | some v =>
    unfold ofList
    split
    · next none => cases none
    · next entries same =>
      have here : listed (some v) = entries := by rw [same]; rfl
      rw [here] at known ⊢
      exact settles_ofEntries knots inherited entries known kinds
    · next w other same =>
      cases same
      split
      -- only a node that lies inside itself can be refused for its depth
      · next e room =>
        obtain ⟨rfl, tied⟩ := knotsLeft?_refuses room
        refine Bool.eq_false_iff.mpr fun tree => ?_
        exact Bool.false_ne_true (tied.symm.trans (trees tree v rfl))
      · next left room =>
        split
        · next fewer => exact settles_ofEntries left inherited (v.items?.getD []) known kinds
        · next same =>
          have plain : v.isKnot = false := ((knotsLeft?_lt room).resolve_left same).1
          have unlisted : v.items? = none := by
            rw [Option.eq_none_iff_forall_ne_some]
            intro items held
            exact other items ((opened_of_not_isKnot plain).symm.trans (opened_of_items? held))
          have none : listed (some v) = [] := by rw [listed, Option.bind_some, unlisted]; rfl
          rw [none]
          exact List.forall_mem_nil _
termination_by (knots, sizeOf found)
decreasing_by
  · rw [‹some v = _›]
    exact Prod.Lex.right _ (by simp only [Option.some.sizeOf_spec, Value.list.sizeOf_spec]; omega)
  · exact Prod.Lex.left _ _ ‹_›

theorem settles_ofEntries (knots : Nat) (inherited : Option Value) (entries : List Value)
    (known : ∀ e ∈ entries, data.HasEntry e) (kinds : ∀ kind ∈ inherited, data.HasKind kind) :
    Settles data (∀ e ∈ entries, IsEntry IsFalse inherited e)
      (ofEntries knots inherited entries) := by
  match entries with
  | [] =>
    rw [ofEntries]
    exact List.forall_mem_nil _
  | entry :: entries =>
    rw [List.forall_mem_cons] at known
    have first := settles_ofEntry knots inherited entry known.1 kinds
    have rest := settles_ofEntries knots inherited entries known.2 kinds
    rw [ofEntries_eq]
    refine .bind (fun e failed => ?_) fun o made => .bind (fun e failed => ?_) fun os made' => ?_
    · rw [failed] at first
      exact first.of_error fun all => all entry List.mem_cons_self
    · rw [failed] at rest
      exact rest.of_error fun all e he => all e (List.mem_cons_of_mem _ he)
    · rw [made] at first
      rw [made'] at rest
      exact List.forall_mem_cons.mpr ⟨first, rest⟩
termination_by (knots, sizeOf entries)

end

/-- The failure of a snapshot that is reported in the end, and what it says of the data. -/
inductive Refuses (data : Value) : Error → Prop
  | malformed {why : SnapshotFault} (broken : ¬ data.IsSnapshot IsFalse) :
      Refuses data (.snapshot why)
  | trips {e : Error} (trips : data.Trips e) : Refuses data e

theorem Settles.refuses (h : Settles data (data.IsSnapshot IsFalse) (.error e : Except Error α)) :
    Refuses data e.reported := by
  rw [Error.reported]
  cases e with
  | snapshot why =>
    cases written : why.isWritable with
    | true =>
      rw [if_pos (show (Error.snapshot why).isWritable = true from written)]
      exact .malformed h.1
    | false =>
      have unwritable : ¬ (Error.snapshot why).isWritable = true := by
        simp [Error.isWritable, written]
      rw [if_neg unwritable]
      refine .trips (.long (Bool.eq_false_iff.mpr fun all => ?_))
      exact Bool.false_ne_true (written.symm.trans (h.2 all))
  | wrongType => exact .trips (.kind h)
  | endless => exact .trips (.endless h)
  | _ => exact h.elim

/-- What is read from data that can be written can be named. -/
theorem isNameable_of_isReadFrom {facts : ObjectFacts} (all : data.isWritable = true)
    (read : facts.IsReadFrom data) : facts.IsNameable := by
  obtain ⟨entry, name, kind, direction, known, named, -, -, rfl⟩ := read
  have written := passes_hasEntry isWritable_passes all known
  refine ⟨isWritable_passes.held written named, ?_⟩
  change (entry.getD "path" (.text .empty)).isWritable = true
  rw [getD]
  cases stated : entry.get? "path" with
  | none => exact isWritable_text _
  | some path => exact isWritable_passes.held written stated

theorem ofSnapshot_settles (data : Value) :
    (∀ objects, ofSnapshot data = .ok objects → data.IsSnapshot IsFalse) ∧
      ∀ e, ofSnapshot data = .error e → Refuses data e.reported := by
  unfold ofSnapshot
  split
  · next entries held =>
    have known : ∀ e ∈ entries, data.HasEntry e := fun e he => .object held he
    have settles := settles_ofEntries mostKnots none entries known nofun
    have legal : data.IsSnapshot IsFalse → ∀ e ∈ entries, IsEntry IsFalse none e := by
      rintro ⟨entries', held', each⟩
      cases held.symm.trans held'
      exact each
    cases read : ofEntries mostKnots none entries with
    | error e =>
      rw [read] at settles
      refine ⟨nofun, ?_⟩
      rintro _ ⟨⟩
      exact (settles.of_error legal : Settles data _ (.error e : Except Error Unit)).refuses
    | ok raw =>
      rw [read] at settles
      have whole : data.IsSnapshot IsFalse := ⟨entries, held, settles⟩
      refine ⟨fun _ _ => whole, fun e failed => ?_⟩
      change withNames raw = .error e at failed
      unfold withNames at failed
      split_ifs at failed with named
      cases failed
      refine .trips (.long (Bool.eq_false_iff.mpr fun all => named ?_))
      exact canNameAll_of_isNameable raw _ (isWritable_text _) fun f hf =>
        isNameable_of_isReadFrom all (readFrom_ofEntries raw known (by rintro _ ⟨⟩) read f hf)
  · next none =>
    refine ⟨nofun, ?_⟩
    rintro _ ⟨⟩
    refine .malformed ?_
    rintro ⟨entries, held, -⟩
    cases none.symm.trans held

end SimObject

namespace Value

variable {data v : Value} {empty empty' : Value → Prop} {items : List Value}

def Offers (data v : Value) : Prop :=
  ∃ entry, data.HasEntry entry ∧ (entry.get? "children" = some v ∨ entry.get? "faces" = some v)

theorem Offers.hasEntry (offered : data.Offers v) (held : v.items? = some items) :
    ∀ e ∈ items, data.HasEntry e := by
  obtain ⟨entry, known, below | beside⟩ := offered
  · exact fun e he => .child known (by rw [below, Option.bind_some, held]) he
  · exact fun e he => .face known (by rw [beside, Option.bind_some, held]) he

mutual

theorem IsEntry.weaken (allows : ∀ v, data.Offers v → empty v → empty' v ∨ v.items? = some []) :
    ∀ {inherited : Option Value} {entry : Value}, data.HasEntry entry →
      IsEntry empty inherited entry → IsEntry empty' inherited entry
  | _, entry, known, .mk named classed children faces =>
    .mk named classed (children.weaken allows fun _ held => ⟨entry, known, .inl held⟩)
      (faces.weaken allows fun _ held => ⟨entry, known, .inr held⟩)

theorem IsEntryList.weaken
    (allows : ∀ v, data.Offers v → empty v → empty' v ∨ v.items? = some []) :
    ∀ {inherited found : Option Value}, (∀ v ∈ found, data.Offers v) →
      IsEntryList empty inherited found → IsEntryList empty' inherited found
  | _, _, _, .missing => .missing
  | _, _, known, .nothing stands => by
    rcases allows _ (known _ rfl) stands with same | none
    · exact .nothing same
    · exact .entries none (List.forall_mem_nil _)
  | _, _, known, .entries held each =>
    .entries held fun e he => (each e he).weaken allows ((known _ rfl).hasEntry held e he)

end

/-- Data that can be written and contain no part of themselves, with kinds that a table can be asked
for wherever they tell a direction, and with null or an empty list where nothing is listed. -/
structure IsRegular (data : Value) : Prop where
  written : data.isWritable = true
  tree : data.isTree = true
  directed : ¬ data.HasUndirected
  empty : ∀ v, data.Offers v → IsFalse v → v = .null ∨ v.items? = some []

theorem isSnapshot_weaken (allows : ∀ v, data.Offers v → empty v → empty' v ∨ v.items? = some [])
    (snapshot : data.IsSnapshot empty) : data.IsSnapshot empty' := by
  obtain ⟨items, held, each⟩ := snapshot
  exact ⟨items, held, fun e he => (each e he).weaken allows (.object held he)⟩

theorem IsRegular.isSnapshot_iff (regular : data.IsRegular) :
    data.IsSnapshot IsFalse ↔ data.IsSnapshot (· = .null) := by
  refine ⟨isSnapshot_weaken regular.empty, isSnapshot_weaken ?_⟩
  rintro _ - rfl
  exact .inl rfl

theorem IsRegular.not_trips {e : Error} (regular : data.IsRegular) : ¬ data.Trips e := by
  intro trips
  cases trips with
  | kind undirected => exact regular.directed undirected
  | long unwritable => exact Bool.false_ne_true (unwritable.symm.trans regular.written)
  | endless knotted => exact Bool.false_ne_true (knotted.symm.trans regular.tree)

/-- What is wrong with regular data can only be that they are no snapshot. -/
theorem IsRegular.of_refuses {e : Error} (regular : data.IsRegular)
    (refuses : SimObject.Refuses data e) : (∃ why, e = .snapshot why) ∧
      ¬ data.IsSnapshot (· = .null) := by
  cases refuses with
  | malformed broken =>
    exact ⟨⟨_, rfl⟩, fun snapshot => broken (regular.isSnapshot_iff.mpr snapshot)⟩
  | trips trips => exact absurd trips regular.not_trips

end Value

open Value in
/-- What is loaded follows the grammar, with any false value for an empty list, and what is refused
breaks it, unless it has a kind that no table can be asked for, cannot be written or never ends. Of
regular data exactly those that follow the grammar with nothing but null for an empty list are
loaded, and all others are refused as malformed. -/
theorem snapshots_follow_grammar (data : Value) :
    (∀ objects, SimObject.ofSnapshot data = .ok objects → data.IsSnapshot IsFalse) ∧
      (∀ e, SimObject.ofSnapshot data = .error e → SimObject.Refuses data e.reported) ∧
      (data.IsRegular →
        ((∃ objects, SimObject.ofSnapshot data = .ok objects) ↔ data.IsSnapshot (· = .null)) ∧
          ((∃ why e, SimObject.ofSnapshot data = .error e ∧ e.reported = .snapshot why) ↔
            ¬ data.IsSnapshot (· = .null))) := by
  obtain ⟨accepts, refuses⟩ := SimObject.ofSnapshot_settles data
  refine ⟨accepts, refuses, fun regular => ?_⟩
  cases read : SimObject.ofSnapshot data with
  | ok objects =>
    have snapshot := regular.isSnapshot_iff.mp (accepts objects read)
    exact ⟨iff_of_true ⟨objects, rfl⟩ snapshot,
      iff_of_false (by rintro ⟨_, _, ⟨⟩, _⟩) (not_not_intro snapshot)⟩
  | error e =>
    obtain ⟨⟨why, reported⟩, none⟩ := regular.of_refuses (refuses e read)
    exact ⟨iff_of_false (by rintro ⟨_, ⟨⟩⟩) none, iff_of_true ⟨why, e, rfl, reported⟩ none⟩

def boundFace : Value := .ofFields [("name", .text "t"), ("direction", .text "input")]

def facedSocket : Value :=
  .ofFields [("name", .text "t"), ("kind", .text "tlm_target_socket"), ("faces", .list [boundFace])]

def facelessModule : Value :=
  .ofFields [("name", .text "top"), ("kind", .text "sc_module"),
    ("children", .list [facedSocket]), ("faces", .null)]

def snapshotOf (entry : Value) : Value := .ofFields [("objects", .list [entry])]

@[simp] theorem listed_snapshotOf (entry : Value) :
    ((snapshotOf entry).get? "objects").bind Value.items? = some [entry] := by
  simp [snapshotOf, Value.items?, Value.opened]

theorem isSnapshot_snapshotOf {entry : Value} {empty : Value → Prop} :
    (snapshotOf entry).IsSnapshot empty ↔ Value.IsEntry empty none entry := by
  simp [Value.IsSnapshot]

def zeroEntry : Value :=
  .ofFields [("name", .text "a"), ("kind", .text "sc_module"), ("children", .int 0)]

def listEntry : Value :=
  .ofFields [("name", .text "a"), ("kind", .list [.text "x"]), ("bound", .int 1)]

theorem mem_facelessModule {entry : Value} (known : (snapshotOf facelessModule).HasEntry entry) :
    entry ∈ [facelessModule, facedSocket, boundFace] := by
  refine known.mem ?_ ?_
  · simp
  · simp [facelessModule, facedSocket, boundFace, Text.ofString_inj, Value.items?, Value.opened]

theorem regular_facelessModule : (snapshotOf facelessModule).IsRegular where
  written := by decide +kernel
  tree := by decide +kernel
  directed := by
    rintro ⟨entry, kind, known, -, ⟨-, -, bound, -, -, -⟩⟩
    have entries := mem_facelessModule known
    simp only [List.mem_cons, List.not_mem_nil, or_false] at entries
    rcases entries with rfl | rfl | rfl <;>
      simp [facelessModule, facedSocket, boundFace, Text.ofString_inj] at bound
  empty := by
    rintro v ⟨entry, known, offered⟩ none
    have entries := mem_facelessModule known
    simp only [List.mem_cons, List.not_mem_nil, or_false] at entries
    rcases entries with rfl | rfl | rfl <;>
      simp [facelessModule, facedSocket, boundFace, Text.ofString_inj] at offered
    · obtain rfl | rfl := offered
      · cases none
      · exact .inl rfl
    · subst offered
      cases none

theorem isEntry_boundFace :
    Value.IsEntry (· = .null) (some (.text "tlm_target_socket")) boundFace := by
  have named : boundFace.get? "name" = some (.text "t") := by simp [boundFace]
  have classed : (boundFace.get? "kind").or (some (.text "tlm_target_socket")) =
      some (.text "tlm_target_socket") := by simp [boundFace, Text.ofString_inj]
  refine .mk named classed ?_ ?_ <;>
    simp [boundFace, Text.ofString_inj, Value.IsEntryList.missing]

theorem isEntry_facedSocket : Value.IsEntry (· = .null) none facedSocket := by
  have named : facedSocket.get? "name" = some (.text "t") := by simp [facedSocket]
  have classed : (facedSocket.get? "kind").or none = some (.text "tlm_target_socket") := by
    simp [facedSocket, Text.ofString_inj]
  have below : facedSocket.get? "children" = none := by simp [facedSocket, Text.ofString_inj]
  have beside : facedSocket.get? "faces" = some (.list [boundFace]) := by
    simp [facedSocket, Text.ofString_inj]
  refine .mk named classed ?_ ?_
  · rw [below]
    exact .missing
  · rw [beside]
    exact .entries rfl (List.forall_mem_singleton.mpr isEntry_boundFace)

theorem isEntry_facelessModule : Value.IsEntry (· = .null) none facelessModule := by
  have named : facelessModule.get? "name" = some (.text "top") := by simp [facelessModule]
  have classed : (facelessModule.get? "kind").or none = some (.text "sc_module") := by
    simp [facelessModule, Text.ofString_inj]
  have below : facelessModule.get? "children" = some (.list [facedSocket]) := by
    simp [facelessModule, Text.ofString_inj]
  have beside : facelessModule.get? "faces" = some .null := by
    simp [facelessModule, Text.ofString_inj]
  refine .mk named classed ?_ ?_
  · rw [below]
    exact .entries rfl (List.forall_mem_singleton.mpr isEntry_facedSocket)
  · rw [beside]
    exact .nothing rfl

theorem isEntry_listEntry : Value.IsEntry (· = .null) none listEntry := by
  have named : listEntry.get? "name" = some (.text "a") := by simp [listEntry]
  have classed : (listEntry.get? "kind").or none = some (.list [.text "x"]) := by
    simp [listEntry, Text.ofString_inj]
  refine .mk named classed ?_ ?_ <;>
    simp [listEntry, Text.ofString_inj, Value.IsEntryList.missing]

theorem not_isEntry_zeroEntry : ¬ Value.IsEntry (· = .null) none zeroEntry := by
  rintro ⟨-, -, children, -⟩
  have held : zeroEntry.get? "children" = some (.int 0) := by
    simp [zeroEntry, Text.ofString_inj]
  rw [held] at children
  rcases children with _ | none | ⟨list, -⟩
  · cases none
  · cases list

theorem read_zeroEntry :
    ∃ objects, SimObject.ofSnapshot (snapshotOf zeroEntry) = .ok objects := by
  let facts := SimObject.entryFacts zeroEntry (.text "a") (.text "sc_module") .null
  have parts : SimObject.entryParts none zeroEntry = .ok ⟨facts, none, none⟩ := by
    simp [facts, SimObject.entryParts, SimObject.entryDirection, SimObject.entryList,
      SimObject.checkFaces, zeroEntry, Value.getD, Value.isTrue, Text.ofString_inj]
  have leaves : List.Forall₂ SimObject.ReadsLeaf [zeroEntry] [facts] := .cons ⟨parts, rfl⟩ .nil
  have named : SimObject.canNameAll (.text .empty) [.ofFacts facts] = true := by decide +kernel
  refine ⟨SimObject.nameForest [.ofFacts facts], ?_⟩
  rw [SimObject.ofSnapshot, listed_snapshotOf]
  dsimp only
  rw [SimObject.ofEntries_leaves leaves]
  exact if_pos named

theorem refused_listEntry : SimObject.ofSnapshot (snapshotOf listEntry) = .error .wrongType := by
  have parts : SimObject.entryParts none listEntry = .error .wrongType := by
    simp [SimObject.entryParts, SimObject.entryDirection, SimObject.takesIn, listEntry, Value.getD,
      Value.isTrue, Value.isNull, Value.isHashable, Value.isSet, Text.ofString_inj, Except.map]
  simp [SimObject.ofSnapshot, SimObject.ofEntries_eq, SimObject.ofEntry_eq, parts, bind,
    Except.bind]

theorem snapshots_follow_grammar_but_for_slips :
    ((snapshotOf facelessModule).IsRegular ∧
        ∃ objects, SimObject.ofSnapshot (snapshotOf facelessModule) = .ok objects) ∧
      ((∃ objects, SimObject.ofSnapshot (snapshotOf zeroEntry) = .ok objects) ∧
        ¬ (snapshotOf zeroEntry).IsSnapshot (· = .null)) ∧
      (SimObject.ofSnapshot (snapshotOf listEntry) = .error .wrongType ∧
        (snapshotOf listEntry).IsSnapshot (· = .null)) := by
  refine ⟨⟨regular_facelessModule, ?_⟩, ⟨read_zeroEntry, ?_⟩, refused_listEntry, ?_⟩
  · exact ((snapshots_follow_grammar (snapshotOf facelessModule)).2.2 regular_facelessModule).1.mpr
      (isSnapshot_snapshotOf.mpr isEntry_facelessModule)
  · exact fun snapshot => not_isEntry_zeroEntry (isSnapshot_snapshotOf.mp snapshot)
  · exact isSnapshot_snapshotOf.mpr isEntry_listEntry

end Schematic
