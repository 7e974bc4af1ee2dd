import Schematic.Proofs.Dumper.Once

/-! How a write fails. What a stream or the system refuses is told as a failed write, which a dumper
takes for an answer. A path that the system cannot be asked for, and a text that no file can hold,
fail in another way, which a dumper lets through. -/

namespace Schematic

variable {σ : Type} {o o' : Outlet} {e : Error} {g : Graph} {text : Text} {f : Format}
  {request : DumpRequest} {written : Text}

def Error.IsFailedWrite (e : Error) : Prop := ∃ fault, e = .write fault

theorem FilePath.not_isFailedWrite {t : Text} (unnamed : check t = .error e) :
    ¬ e.IsFailedWrite := by
  rintro ⟨fault, rfl⟩
  unfold check at unnamed
  split at unnamed
  · cases unnamed
  · split at unnamed <;> cases unnamed

/-- Why a dump to a path fails that the system does not refuse: it cannot be asked for the path, or
it opens the file and no bytes write the text. -/
def Files.Chokes (files : Files) (p : FilePath) (text : Text) (e : Error) : Prop :=
  FilePath.check p.text = .error e ∨ files.Opens p ∧ text.toString? = none ∧ e = .unencodable

theorem Files.Chokes.not_isFailedWrite {files : Files} {p : FilePath}
    (chokes : files.Chokes p text e) : ¬ e.IsFailedWrite := by
  obtain unnamed | ⟨-, -, rfl⟩ := chokes
  · exact FilePath.not_isFailedWrite unnamed
  · exact nofun

/-- How the system fails a write to a path that it can be asked for: it refuses to open the file, or
it opens the file and breaks the write off. -/
inductive Files.Denies (files : Files) (p : FilePath) (text : Text) : WriteFault → Prop where
  | refused {fault : OpenFault} (refused : files.Refuses p fault) :
      Denies files p text (.path p.text fault)
  | broken {kept : Nat} {fault : SystemFault} (breaks : files.Breaks p kept fault)
      (spelled : text.toString? ≠ none) : Denies files p text (.broken p.text fault)

/-- A dump that gets as far as writing to a path fails if the system denies the write or chokes. -/
theorem dumpAs_path_error_iff (ready : request.prepared f o = .ok (g, text)) :
    (dumpAs (.path written) f request o).answer = .error e ↔
      (∃ fault, o.files.Denies (.ofText written) text fault ∧ e = .write fault) ∨
        o.files.Chokes (.ofText written) text e := by
  constructor
  · intro failed
    rcases o.files.path_cases (.ofText written) with
      ⟨e', unnamed⟩ | ⟨fault, refused⟩ | ⟨kept, fault, opened, broken⟩ | ⟨opened, free⟩
    · cases (dumpAs_of_prepared ready (Outlet.write_unnamed unnamed)).answer.symm.trans failed
      exact .inr (.inl unnamed)
    · cases (dumpAs_of_prepared ready (Outlet.write_refused refused)).answer.symm.trans failed
      exact .inl ⟨_, .refused refused, rfl⟩
    · obtain ⟨files, -, unspelled, breaks, -⟩ := Outlet.write_opened text opened
      by_cases spelled : text.toString? = none
      · cases (dumpAs_of_prepared ready (unspelled spelled)).answer.symm.trans failed
        exact .inr (.inr ⟨opened, spelled, rfl⟩)
      · cases (dumpAs_of_prepared ready (breaks spelled kept fault broken)).answer.symm.trans failed
        exact .inl ⟨_, .broken ⟨opened, broken⟩ spelled, rfl⟩
    · obtain ⟨files, -, unspelled, -, takes⟩ := Outlet.write_opened text opened
      by_cases spelled : text.toString? = none
      · cases (dumpAs_of_prepared ready (unspelled spelled)).answer.symm.trans failed
        exact .inr (.inr ⟨opened, spelled, rfl⟩)
      · cases (dumpAs_of_prepared ready (takes spelled free)).answer.symm.trans failed
  · rintro (⟨_, ⟨refused⟩ | ⟨breaks, spelled⟩, rfl⟩ | unnamed | ⟨opened, unspelled, rfl⟩)
    · exact (dumpAs_of_prepared ready (Outlet.write_refused refused)).answer
    · obtain ⟨files, -, -, broken, -⟩ := Outlet.write_opened text breaks.1
      exact (dumpAs_of_prepared ready (broken spelled _ _ breaks.2)).answer
    · exact (dumpAs_of_prepared ready (Outlet.write_unnamed unnamed)).answer
    · obtain ⟨files, -, choked, -⟩ := Outlet.write_opened text opened
      exact (dumpAs_of_prepared ready (choked unspelled)).answer

theorem dumpAs_stream_error_iff (ready : request.prepared f o = .ok (g, text)) :
    (dumpAs .stream f request o).answer = .error e ↔
      ∃ fault, o.stream.write text = .error fault ∧ e = .write (.stream fault) := by
  have run := dumpAs_of_prepared ready (Outlet.write_stream text o)
  rw [run.answer]
  cases o.stream.write text <;> simp [Except.map, eq_comm]

namespace Dumper

variable {d : Dumper}

/-- A start answers that nothing was written if the write failed, and lets all else through. -/
theorem start_of_error (named : d.filename.isEmpty = false) (fresh : d.isDone = false)
    (failed : (d.dump.on o).answer = .error e) :
    (e.IsFailedWrite → (start.on ⟨d, o⟩).answer = .ok false) ∧
      (¬ e.IsFailedWrite → (start.on ⟨d, o⟩).answer = .error e) := by
  change (dumpAs (.path d.filename) d.format d.request o).answer = _ at failed
  constructor
  · rintro ⟨fault, rfl⟩
    simp [start, Action.on, Action.bind_apply, Action.state, Action.within, Action.attempt,
      Action.note, named, fresh, failed]
  · intro other
    cases e with
    | write fault => exact absurd ⟨fault, rfl⟩ other
    | _ =>
      simp [start, Action.on, Action.bind_apply, Action.state, Action.within, Action.attempt,
        Action.fail, named, fresh, failed]

/-- How the start of a dumper follows from its dump. -/
theorem start_answer (named : d.filename.isEmpty = false) (fresh : d.isDone = false) :
    ((start.on ⟨d, o⟩).answer = .ok false ↔
      ∃ e, (d.dump.on o).answer = .error e ∧ e.IsFailedWrite) ∧
    ∀ e, (start.on ⟨d, o⟩).answer = .error e ↔
      (d.dump.on o).answer = .error e ∧ ¬ e.IsFailedWrite := by
  cases dumped : (d.dump.on o).answer with
  | ok g =>
    obtain ⟨answer, -⟩ := start_of_dumped named fresh dumped
    simp [answer]
  | error e =>
    obtain ⟨swallowed, passed⟩ := start_of_error named fresh dumped
    by_cases write : e.IsFailedWrite
    · rw [swallowed write]
      refine ⟨iff_of_true rfl ⟨e, rfl, write⟩, fun e' => iff_of_false nofun ?_⟩
      rintro ⟨⟨⟩, other⟩
      exact other write
    · rw [passed write]
      refine ⟨iff_of_false nofun ?_, fun e' => ⟨?_, ?_⟩⟩
      · rintro ⟨e', ⟨⟩, write'⟩
        exact write write'
      · rintro ⟨⟩
        exact ⟨rfl, write⟩
      · rintro ⟨⟨⟩, -⟩
        rfl

end Dumper

/-- A dump that has its document fails to write it to a stream as a failed write, always. To a path
it does so exactly if the system can be asked for the path and refuses to open the file, or breaks
the write off, whatever its reason is. If it cannot be asked, or if it opens the file and no bytes
write the text, the dump fails in another way. A new dumper answers exactly in the first case that
nothing was written, and lets the other failures through. -/
theorem failed_writes_are_refusals {format : Value} (parsed : Format.ofValue format = .ok f)
    (ready : request.prepared f o = .ok (g, text)) :
    (∀ e, ((dumpStructure .stream format request).on o).answer = .error e → e.IsFailedWrite) ∧
    ∀ written,
      let p := FilePath.ofText written
      let answer := ((dumpStructure (.path written) format request).on o).answer
      let started := (Dumper.start.on ⟨{ filename := written, format := f, request }, o⟩).answer
      ((∃ e, answer = .error e ∧ e.IsFailedWrite) ↔ ∃ fault, o.files.Denies p text fault) ∧
      (∀ e, answer = .error e ∧ ¬ e.IsFailedWrite ↔ o.files.Chokes p text e) ∧
      (written.isEmpty = false →
        (started = .ok false ↔ ∃ fault, o.files.Denies p text fault) ∧
        ∀ e, started = .error e ↔ o.files.Chokes p text e) := by
  simp only [Action.on, (dumpStructure_of_parsed parsed _ request o).answer]
  constructor
  · intro e failed
    obtain ⟨fault, -, rfl⟩ := (dumpAs_stream_error_iff ready).mp failed
    exact ⟨_, rfl⟩
  · intro written
    have denied : (∃ e, (dumpAs (.path written) f request o).answer = .error e ∧
        e.IsFailedWrite) ↔ ∃ fault, o.files.Denies (.ofText written) text fault := by
      constructor
      · rintro ⟨e, failed, write⟩
        rcases (dumpAs_path_error_iff ready).mp failed with ⟨fault, denied, -⟩ | chokes
        · exact ⟨fault, denied⟩
        · exact absurd write chokes.not_isFailedWrite
      · rintro ⟨fault, denied⟩
        exact ⟨_, (dumpAs_path_error_iff ready).mpr (.inl ⟨fault, denied, rfl⟩), _, rfl⟩
    have choked (e : Error) : (dumpAs (.path written) f request o).answer = .error e ∧
        ¬ e.IsFailedWrite ↔ o.files.Chokes (.ofText written) text e := by
      constructor
      · rintro ⟨failed, other⟩
        rcases (dumpAs_path_error_iff ready).mp failed with ⟨fault, -, rfl⟩ | chokes
        · exact absurd ⟨_, rfl⟩ other
        · exact chokes
      · intro chokes
        exact ⟨(dumpAs_path_error_iff ready).mpr (.inr chokes), chokes.not_isFailedWrite⟩
    refine ⟨denied, choked, fun named => ?_⟩
    obtain ⟨swallowed, passed⟩ := Dumper.start_answer (o := o)
      (d := { filename := written, format := f, request }) named rfl
    exact ⟨swallowed.trans denied, fun e => (passed e).trans (choked e)⟩

/-- A path that ends early is no failed write, a closed stream is one. -/
theorem failed_writes_are_refusals_unlike_bad_names :
    let request : DumpRequest := { objects := [] }
    ∃ g text, request.prepared .elkText {} = .ok (g, text) ∧
      ((dumpStructure (.path "o\x00p") (.text "elkt") request).on {}).answer =
        .error .nulInPath ∧
      (Dumper.start.on ⟨{ filename := "o\x00p", format := .elkText, request }, {}⟩).answer =
        .error .nulInPath ∧
      ∃ e, ((dumpStructure .stream (.text "elkt") request).on {}).answer = .error e ∧
        e.IsFailedWrite := by
  intro request
  have worked : (request.prepared .elkText {}).isOk = true := by decide +kernel
  have parsed : Format.ofValue (.text "elkt") = .ok .elkText := Format.ofValue_name .elkText
  have unnamed : FilePath.check (FilePath.ofText "o\x00p").text = .error .nulInPath := by rfl
  cases ready : request.prepared .elkText {} with
  | error e =>
    rw [ready] at worked
    cases worked
  | ok x =>
    obtain ⟨g, text⟩ := x
    obtain ⟨stream, paths⟩ := failed_writes_are_refusals parsed ready
    obtain ⟨-, choked, started⟩ := paths "o\x00p"
    have chokes : ({} : Outlet).files.Chokes (.ofText "o\x00p") text .nulInPath := .inl unnamed
    have closed : ((dumpStructure .stream (.text "elkt") request).on {}).answer =
        .error (.write (.stream .closed)) := by
      rw [Action.on, (dumpStructure_of_parsed parsed .stream request {}).answer]
      exact (dumpAs_stream_error_iff ready).mpr ⟨.closed, rfl, rfl⟩
    exact ⟨g, text, rfl, ((choked _).mpr chokes).1, ((started rfl).2 _).mpr chokes,
      _, closed, stream _ closed⟩

end Schematic
