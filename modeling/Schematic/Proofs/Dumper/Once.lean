import Schematic.Dumper
import Schematic.Proofs.Dumper.Delivery
import Mathlib.Data.List.Induction

/-! A dumper dumps once. Each start finds files of its own; a start that fails, or answers that
nothing was written, leaves the dumper as it was, and after a dump no start does anything. -/

namespace Schematic

variable {o : Outlet}

structure Dumper.Wrote (d : Dumper) (before : Outlet) (g : Graph) (after : Outlet) : Prop where
  extracted : ((extract d.request.options d.request.objects).on before).answer = .ok g
  written : ∃ text, ((render d.format
    (d.request.title.orElse (.text (defaultTitle d.request.arguments))) g).on before).answer =
      .ok text ∧ after.files.Holds (.ofText d.filename) text

namespace Dumper

variable {d : Dumper}

/-- What a dumper does that has not dumped yet. -/
def dump (d : Dumper) : Action Outlet Graph := dumpAs (.path d.filename) d.format d.request

theorem dump_wrote (d : Dumper) : d.dump.Ends o (d.Wrote o) := by
  intro g dumped
  obtain ⟨text, extracted, rendered, -, holds, -⟩ := received_of_dumpAs dumped
  exact ⟨extracted, text, rendered, holds⟩

theorem start_of_empty (nameless : d.filename.isEmpty = true) :
    start.on ⟨d, o⟩ = ⟨.ok false, ⟨d, o⟩, []⟩ := by
  simp [start, Action.on, Action.bind_apply, Action.state, nameless]

theorem start_of_done (done : d.isDone = true) :
    (start.on ⟨d, o⟩).answer = .ok false ∧ (start.on ⟨d, o⟩).state = ⟨d, o⟩ := by
  cases nameless : d.filename.isEmpty with
  | true => simp [start_of_empty nameless]
  | false =>
    simp [start, Action.on, Action.bind_apply, Action.state, Action.note, nameless, done]

theorem start_of_dumped {g : Graph} (named : d.filename.isEmpty = false)
    (fresh : d.isDone = false) (dumped : (d.dump.on o).answer = .ok g) :
    (start.on ⟨d, o⟩).answer = .ok true ∧
      (start.on ⟨d, o⟩).state =
        ⟨{ d with graph := some g, isDone := true }, (d.dump.on o).state⟩ := by
  change (dumpAs (.path d.filename) d.format d.request o).answer = _ at dumped
  simp [start, Action.on, Action.bind_apply, Action.state, Action.within, Action.attempt,
    Action.change, named, fresh, dumped, dump]

theorem start_of_failed {e : Error} (named : d.filename.isEmpty = false)
    (fresh : d.isDone = false) (failed : (d.dump.on o).answer = .error e) :
    (start.on ⟨d, o⟩).answer ≠ .ok true ∧
      (start.on ⟨d, o⟩).state = ⟨d, (d.dump.on o).state⟩ := by
  change (dumpAs (.path d.filename) d.format d.request o).answer = _ at failed
  cases e <;>
    simp [start, Action.on, Action.bind_apply, Action.state, Action.within, Action.attempt,
      Action.note, Action.fail, named, fresh, failed, dump]

def calls (d : Dumper) : List Outlet → List (Outcome Site Bool)
  | [] => []
  | o :: rest =>
    let out := start.on ⟨d, o⟩
    out :: out.state.dumper.calls rest

def after (d : Dumper) (outlets : List Outlet) : Dumper :=
  outlets.foldl (fun d o => (start.on ⟨d, o⟩).state.dumper) d

def succeeded (out : Outcome Site Bool) : Bool := out.answer.toOption.getD false

theorem succeeded_iff {out : Outcome Site Bool} : succeeded out = true ↔ out.answer = .ok true := by
  rcases out with ⟨_ | b, _, _⟩ <;> simp [succeeded, Except.toOption]

theorem calls_append (d : Dumper) (outlets : List Outlet) (o : Outlet) :
    d.calls (outlets ++ [o]) = d.calls outlets ++ [start.on ⟨d.after outlets, o⟩] := by
  induction outlets generalizing d with
  | nil => rfl
  | cons first outlets ih => exact congrArg _ (ih _)

theorem after_append (d : Dumper) (outlets : List Outlet) (o : Outlet) :
    d.after (outlets ++ [o]) = (start.on ⟨d.after outlets, o⟩).state.dumper := by
  simp [after]

/-- What one call does to a dumper that has not dumped: it fails and leaves the dumper as it was, or
it has written. -/
theorem start_of_fresh (fresh : d.isDone = false) :
    ((start.on ⟨d, o⟩).answer ≠ .ok true ∧ (start.on ⟨d, o⟩).state.dumper = d) ∨
      ∃ g, (start.on ⟨d, o⟩).answer = .ok true ∧
        (start.on ⟨d, o⟩).state.dumper = { d with graph := some g, isDone := true } ∧
        d.Wrote o g (start.on ⟨d, o⟩).state.outlet := by
  cases nameless : d.filename.isEmpty with
  | true =>
    rw [start_of_empty nameless]
    exact .inl ⟨nofun, rfl⟩
  | false =>
    cases answer : (d.dump.on o).answer with
    | error e =>
      obtain ⟨failed, state⟩ := start_of_failed nameless fresh answer
      exact .inl ⟨failed, congrArg Site.dumper state⟩
    | ok g =>
      obtain ⟨done, state⟩ := start_of_dumped nameless fresh answer
      rw [state]
      exact .inr ⟨g, done, rfl, d.dump_wrote g answer⟩

theorem after_of_empty (nameless : d.filename.isEmpty = true) (outlets : List Outlet) :
    d.after outlets = d := by
  induction outlets with
  | nil => rfl
  | cons o outlets ih =>
    rw [after, List.foldl_cons, start_of_empty nameless]
    exact ih

/-- A call sets the flag of a dumper and its graph together, or neither. -/
theorem isDone_start (agree : d.isDone = d.graph.isSome) :
    (start.on ⟨d, o⟩).state.dumper.isDone = (start.on ⟨d, o⟩).state.dumper.graph.isSome := by
  cases done : d.isDone with
  | true =>
    rw [(start_of_done done).2]
    exact agree
  | false =>
    rcases start_of_fresh (o := o) done with ⟨-, kept⟩ | ⟨g, -, kept, -⟩
    · rw [kept]
      exact agree
    · rw [kept]
      rfl

/-- A dumper is done exactly if it has a graph, after any calls. -/
theorem isDone_after (agree : d.isDone = d.graph.isSome) (outlets : List Outlet) :
    (d.after outlets).isDone = (d.after outlets).graph.isSome := by
  induction outlets generalizing d with
  | nil => exact agree
  | cons o outlets ih => exact ih (isDone_start agree)

/-- How a new dumper stands after some calls. -/
theorem run_calls (new : d.isDone = false) (outlets : List Outlet) :
    ((d.calls outlets).countP succeeded = 0 ∧ d.after outlets = d) ∨
      ((d.calls outlets).countP succeeded = 1 ∧
        ∃ g, d.after outlets = { d with graph := some g, isDone := true }) := by
  induction outlets using List.reverseRecOn with
  | nil => exact .inl ⟨rfl, rfl⟩
  | append_singleton outlets o ih =>
    rw [calls_append, after_append, List.countP_append, List.countP_singleton]
    rcases ih with ⟨none, same⟩ | ⟨one, g, same⟩
    · rw [none, same]
      rcases start_of_fresh (o := o) new with ⟨failed, kept⟩ | ⟨g, done, kept, -⟩
      · exact .inl ⟨by rw [if_neg (succeeded_iff.not.mpr failed)], kept⟩
      · exact .inr ⟨by rw [if_pos (succeeded_iff.mpr done)], g, kept⟩
    · rw [one, same]
      obtain ⟨later, kept⟩ :=
        start_of_done (d := { d with graph := some g, isDone := true }) (o := o) rfl
      refine .inr ⟨?_, g, by rw [kept]⟩
      rw [if_neg (succeeded_iff.not.mpr (by rw [later]; exact nofun))]

end Dumper

/-- Of all calls of a new dumper at most one answers that a document was written. Until then each
call leaves the dumper new, so that the next one dumps in full, and answers so if that dump gives a
graph and there is a file name. The one call has extracted the graph that the dumper keeps, and its
file holds exactly what is drawn of that graph. Every later call changes nothing, and without a file
name no call does. The dumper is done exactly while it has a graph. -/
theorem dumps_once (filename : Text) (format : Format) (request : DumpRequest)
    (earlier : List Outlet) (o : Outlet) :
    let d : Dumper := { filename, format, request }
    let out := Dumper.start.on ⟨d.after earlier, o⟩
    d.calls (earlier ++ [o]) = d.calls earlier ++ [out] ∧
      (d.calls (earlier ++ [o])).countP Dumper.succeeded ≤ 1 ∧
      (d.after earlier).isDone = (d.after earlier).graph.isSome ∧
      ((d.calls earlier).countP Dumper.succeeded = 0 → d.after earlier = d ∧
        (out.answer ≠ .ok true → out.state.dumper = d) ∧
        (out.answer = .ok true →
          ∃ g, out.state.dumper = { d with graph := some g, isDone := true } ∧
            d.Wrote o g out.state.outlet) ∧
        (filename.isEmpty = false → ∀ g, (d.dump.on o).answer = .ok g →
          out.answer = .ok true ∧ out.state.dumper.graph = some g)) ∧
      ((d.calls earlier).countP Dumper.succeeded = 1 → (d.after earlier).graph.isSome = true ∧
        out.answer = .ok false ∧ out.state = ⟨d.after earlier, o⟩) ∧
      (filename.isEmpty = true → out.answer = .ok false ∧ out.state = ⟨d, o⟩) := by
  intro d out
  have ran := Dumper.run_calls (d := d) rfl
  have flagged : (d.after earlier).isDone = (d.after earlier).graph.isSome :=
    Dumper.isDone_after rfl earlier
  refine ⟨d.calls_append earlier o, ?_, flagged, ?_, ?_, ?_⟩
  · rcases ran (earlier ++ [o]) with h | h <;> omega
  · intro none
    have new : d.after earlier = d := by
      rcases ran earlier with h | h
      · exact h.2
      · omega
    simp only [out, new]
    refine ⟨trivial, ?_, ?_, ?_⟩
    · intro failed
      rcases Dumper.start_of_fresh (d := d) (o := o) rfl with ⟨-, kept⟩ | ⟨g, done, -, -⟩
      · exact kept
      · exact absurd done failed
    · intro done
      rcases Dumper.start_of_fresh (d := d) (o := o) rfl with ⟨failed, -⟩ | ⟨g, -, kept, wrote⟩
      · exact absurd done failed
      · exact ⟨g, kept, wrote⟩
    · intro named g dumped
      obtain ⟨done, state⟩ := Dumper.start_of_dumped named rfl dumped
      exact ⟨done, by rw [state]⟩
  · intro one
    have done : (d.after earlier).isDone = true := by
      rcases ran earlier with h | ⟨-, g, h⟩
      · omega
      · rw [h]
    exact ⟨flagged ▸ done, Dumper.start_of_done done⟩
  · intro nameless
    have new : d.after earlier = d := Dumper.after_of_empty nameless earlier
    simp only [out, new]
    rw [Dumper.start_of_empty nameless]
    exact ⟨rfl, rfl⟩

-- the directory is missing, then it is there, then nothing is left to do
example :
    let d : Dumper := { filename := "out/a", format := .elkText, request := { objects := [] } }
    (d.calls [{}, { files := { entries := [(["out"], .directory)] } }, {}]).map Dumper.succeeded =
      [false, true, false] := by
  decide +kernel

end Schematic
