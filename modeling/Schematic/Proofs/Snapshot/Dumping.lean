import Schematic.Proofs.Snapshot.Legible
import Schematic.Proofs.Snapshot.Loading
import Schematic.Proofs.Value.Parts

/-! What happens to a snapshot once it is loaded. If its entries are legible, nothing fails from
there on: the survey carries out its plan, and all formats show what is extracted. -/

namespace Schematic

/-- An entry that states something legible, whatever else is odd about it. Its direction need not be
one, a table need not hold what it is bound to, and nobody needs to know its kind. -/
structure Value.IsLegible (entry : Value) : Prop where
  name : ∀ v ∈ entry.get? "name", v.IsText
  kind : ∀ v ∈ entry.get? "kind", v.isHashable = true ∧ v.isWritable = true
  typeName : ∀ v ∈ entry.get? "type", (Json.ofValue v).IsSound
  signal : ∀ v ∈ entry.get? "alias", (v.orElse .null).IsTextIfAny
  path : ∀ v ∈ entry.get? "path", v.isWritable = true
  direction : ∀ v ∈ entry.get? "direction", v.isWritable = true
  bound : ∀ v ∈ entry.get? "bound", v.isWritable = true

theorem Value.of_getD {entry fallback : Value} {key : Text} {p : Value → Prop}
    (stated : ∀ v ∈ entry.get? key, p v) (otherwise : p fallback) :
    p (entry.getD key fallback) := by
  unfold Value.getD
  cases held : entry.get? key with
  | none => exact otherwise
  | some v => exact stated v held

namespace SimObject

variable {entry kind direction : Value} {facts : ObjectFacts}

theorem writable_entryDirection (stated : ∀ v ∈ entry.get? "direction", v.isWritable = true)
    (directed : entryDirection entry kind = .ok direction) : direction.isWritable = true := by
  unfold entryDirection at directed
  dsimp only at directed
  split at directed
  · cases asked : takesIn kind with
    | error e =>
      rw [asked] at directed
      cases directed
    | ok into =>
      rw [asked] at directed
      cases directed
      exact Value.isWritable_text _
  · cases directed
    exact Value.of_getD stated rfl

theorem legible_nameFacts (enclosing : Value) (legible : facts.IsLegible) :
    (nameFacts enclosing facts).IsLegible := by
  unfold nameFacts
  split
  · exact legible
  · refine { legible with name := ?_ }
    unfold qualify
    split
    · exact Value.isWritable_text _
    · exact legible.basename.isWritable

end SimObject

theorem ObjectFacts.IsReadFrom.isLegible {data : Value} {facts : ObjectFacts}
    (legible : ∀ entry, data.HasEntry entry → entry.IsLegible) (read : facts.IsReadFrom data) :
    facts.IsLegible := by
  obtain ⟨entry, name, kind, direction, known, named, ⟨source, listed, classed⟩, directed, rfl⟩ :=
    read
  have self := legible entry known
  have text : name.IsText := self.name name named
  have bound : (entry.getD "bound" .null).isWritable = true := Value.of_getD self.bound rfl
  have typed := Value.of_getD (p := fun v => v = kind ∨ (Json.ofValue v).IsSound)
    (fun v held => .inr (self.typeName v held)) (.inl rfl)
  exact
    { basename := text
      kind := (legible source listed).kind kind classed
      typeName := typed
      name := Value.of_getD self.path (Value.isWritable_text _)
      direction := SimObject.writable_entryDirection self.direction directed
      identity := iteInduction (motive := fun v : Value => v.isWritable = true)
        (fun _ => text.isWritable) fun _ => bound
      signal := Value.of_getD self.signal (.inr rfl) }

theorem SimObject.legible_ofSnapshot {data : Value} {objects : List SimObject}
    (legible : ∀ entry, data.HasEntry entry → entry.IsLegible)
    (loaded : ofSnapshot data = .ok objects) : ∀ f ∈ reportsAmong objects, f.IsLegible := by
  obtain ⟨raw, rfl, read⟩ := readFrom_ofSnapshot loaded
  exact forall_namedAll (fun enclosing _ => legible_nameFacts enclosing) raw _ fun f hf =>
    (read f hf).isLegible legible

variable {σ : Type}

/-- A snapshot with legible entries that is loaded can be dumped. The survey of its objects makes
the planned tree and nothing else than the planned remarks. A graph is extracted, which is that of
the survey with ports added to it, and unless it has so many parts that their numbers become too
long, all formats show it under any title. -/
theorem loaded_snapshots_are_shown (data : Value)
    (legible : ∀ entry, data.HasEntry entry → entry.IsLegible) {objects : List SimObject}
    (loaded : SimObject.ofSnapshot data = .ok objects) (title : Text) (s t : σ) :
    ∃ survey g, ((surveyOf {} objects).on s).answer = .ok survey ∧
      survey.FollowsPlan "$$$" [] objects ∧
      ((extract {} objects).on s).answer = .ok g ∧ survey.graph.Extends g ∧
      (g.lastId < Nat.pow 10 Value.mostDigits → ∀ format : Format,
        ∃ text, ((render format (.text title) g).on t).answer = .ok text ∧
          format.Shows g title text) := by
  have all := SimObject.legible_ofSnapshot legible loaded
  have nameless : Text.empty ∉ ([] : List Text) := List.not_mem_nil
  obtain ⟨g, extracted, built, shown, ⟨r, rooted⟩, survey, surveyed, follows, extended⟩ :=
    (needs_extract_legible all "$$$" nameless s).answers trivial
  refine ⟨survey, g, surveyed, follows, extracted, extended, fun short format => ?_⟩
  have rendered := built.needs_render shown.isDrawable (shown.hasNames built.coherent) rooted format
    title t
  exact rendered.answers (built.canShow shown short format)

/-- A module, a port with a direction that is none, another one that is bound to what no table can
hold, and something with a kind that is no text. -/
def oddEntries : List Value :=
  [.ofFields [("name", .text "m"), ("kind", .text "sc_module")],
    .ofFields [("name", .text "a"), ("kind", .text "sc_in"), ("direction", .text "up")],
    .ofFields [("name", .text "b"), ("kind", .text "sc_out"), ("bound", .list [])],
    .ofFields [("name", .text "x"), ("kind", .bool true), ("type", .null)]]

def oddFacts : List ObjectFacts :=
  [{ basename := .text "m", kind := .text "sc_module", typeName := .text "sc_module" },
    { basename := .text "a", kind := .text "sc_in", typeName := .text "sc_in"
      direction := .text "up" },
    { basename := .text "b", kind := .text "sc_out", typeName := .text "sc_out"
      direction := .text "output", identity := .list [] },
    { basename := .text "x", kind := .bool true, typeName := .null }]

theorem read_oddEntries : List.Forall₂ SimObject.ReadsLeaf oddEntries oddFacts := by
  refine .cons ⟨?_, rfl⟩ (.cons ⟨?_, rfl⟩ (.cons ⟨?_, rfl⟩ (.cons ⟨?_, rfl⟩ .nil)))
  all_goals
    simp [SimObject.entryParts, SimObject.entryDirection, SimObject.entryList,
      SimObject.entryFacts, SimObject.checkFaces, SimObject.takesIn, Value.getD, Value.isNull,
      Value.isTrue, Value.isHashable, Kind.clock, Kind.inputPorts, Direction.word, Except.map,
      Text.ofString_inj]

/-- A snapshot of malformed entries. -/
def oddSnapshot : Value := .ofFields [("objects", .list oddEntries)]

theorem listed_oddSnapshot :
    (oddSnapshot.get? "objects").bind Value.items? = some oddEntries := by
  simp [oddSnapshot, Value.items?, Value.opened]

theorem mem_oddEntries {entry : Value} (known : oddSnapshot.HasEntry entry) :
    entry ∈ oddEntries := by
  have bare : ∀ e ∈ oddEntries, e.get? "children" = none ∧ e.get? "faces" = none := by
    simp [oddEntries, Text.ofString_inj]
  refine known.mem (fun items held => ?_) fun around listed => ?_
  · cases listed_oddSnapshot.symm.trans held
    exact List.Subset.refl _
  · rw [(bare around listed).1, (bare around listed).2]
    exact ⟨nofun, nofun⟩

theorem legible_oddEntries : ∀ entry ∈ oddEntries, entry.IsLegible := by
  simp only [oddEntries, List.forall_mem_cons, List.not_mem_nil, false_implies, implies_true,
    and_true]
  and_intros <;> constructor <;>
    simp [Text.ofString_inj, Value.IsText, Value.text?, Value.isHashable, Value.isWritable,
      Value.areWritable, Json.IsSound, Json.ofValue, Json.firstFault?]

theorem load_oddEntries : SimObject.ofSnapshot oddSnapshot =
    .ok (SimObject.nameForest (oddFacts.map .ofFacts)) := by
  rw [SimObject.ofSnapshot, listed_oddSnapshot]
  dsimp only
  rw [SimObject.ofEntries_leaves read_oddEntries]
  rfl

theorem loaded_snapshots_are_shown_if_odd :
    (∀ entry, oddSnapshot.HasEntry entry → entry.IsLegible) ∧
      ∃ objects, SimObject.ofSnapshot oddSnapshot = .ok objects ∧
        ∃ survey g, ((surveyOf {} objects).on ()).answer = .ok survey ∧
          survey.warnings = ["port a has invalid direction 'up', skipped",
            "port b has unhashable bound identity, treated as unbound",
            "object not known (True)"] ∧
          ((extract {} objects).on ()).answer = .ok g ∧ ∀ format : Format,
            ∃ text, ((render format (.text "top") g).on ()).answer = .ok text ∧
              format.Shows g "top" text := by
  have legible : ∀ entry, oddSnapshot.HasEntry entry → entry.IsLegible := fun entry known =>
    legible_oddEntries entry (mem_oddEntries known)
  refine ⟨legible, _, load_oddEntries, ?_⟩
  obtain ⟨survey, g, surveyed, follows, extracted, -, shown⟩ :=
    loaded_snapshots_are_shown oddSnapshot legible load_oddEntries "top" () ()
  refine ⟨survey, g, surveyed, follows.warnings.trans (by decide +kernel), extracted, shown ?_⟩
  have counted : ((extract {} (SimObject.nameForest (oddFacts.map .ofFacts)) ()).answer.map
      Graph.lastId).toOption = some 3 := by decide +kernel
  simp only [Action.on] at extracted
  rw [extracted] at counted
  have last : g.lastId = 3 := Option.some.inj counted
  rw [last]
  decide +kernel

end Schematic
