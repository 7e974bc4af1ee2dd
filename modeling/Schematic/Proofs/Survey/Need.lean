import Schematic.Error
import Schematic.Action

/-! What a step needs in order to succeed. The only failure that is left to objects in order is a
number that is too long to be written, so what a step needs is stated as a condition that decides
between an answer and that failure; the needs of consecutive steps add up. Where the cause of a
failure does not matter, it is enough to say how a step ends that answers. -/

namespace Schematic

theorem exists_of_bind_ok {α β : Type} {r : Except Error α} {next : α → Except Error β} {b : β}
    (done : (r >>= next) = .ok b) : ∃ a, r = .ok a ∧ next a = .ok b := by
  cases r with
  | error e => cases done
  | ok a => exact ⟨a, rfl, done⟩

theorem exists_of_map_ok {α β : Type} {r : Except Error α} {f : α → β} {b : β}
    (done : r.map f = .ok b) : ∃ a, r = .ok a ∧ f a = b := by
  cases r with
  | error e => cases done
  | ok a => exact ⟨a, rfl, Except.ok.inj done⟩

theorem Value.eq_of_written {v : Value} {t : Text} (found : v.written = .ok t) : t = v.plain := by
  unfold Value.written at found
  split at found
  · cases found
    rfl
  · cases found

namespace Action

variable {σ τ α β : Type}

/-- With what it needs a step answers, and something holds of its answer and the state that it
leaves. Without, it fails since a number is too long to be written. -/
structure Needs (act : Action σ α) (s : σ) (need : Prop) (post : α → σ → Prop) : Prop where
  answers : need → ∃ a, (act s).answer = .ok a ∧ post a (act s).state
  fails : ¬ need → (act s).answer = .error .tooLongToWrite

variable {act : Action σ α} {next : α → Action σ β} {s : σ} {a : α} {need need' : Prop}
  {post post' : α → σ → Prop} {goal : β → σ → Prop}

theorem needs_pure (h : post a s) : (pure a : Action σ α).Needs s True post where
  answers := fun _ => ⟨a, rfl, h⟩
  fails := fun h => absurd trivial h

theorem needs_change {f : σ → σ} : (Action.change f).Needs s True fun _ s' => s' = f s where
  answers := fun _ => ⟨(), rfl, rfl⟩
  fails := fun h => absurd trivial h

theorem needs_note {level : LogLevel} {source : LogSource} {message : Text} :
    (Action.note level source message).Needs s True fun _ s' => s' = s where
  answers := fun _ => ⟨(), rfl, rfl⟩
  fails := fun h => absurd trivial h

namespace Needs

theorem congr (h : act.Needs s need post) (same : need ↔ need') : act.Needs s need' post where
  answers := fun holds => h.answers (same.mpr holds)
  fails := fun misses => h.fails fun holds => misses (same.mp holds)

theorem weaken (h : act.Needs s need post) (more : ∀ a s', post a s' → post' a s') :
    act.Needs s need post' where
  answers := fun holds => by
    obtain ⟨a, found, done⟩ := h.answers holds
    exact ⟨a, found, more a _ done⟩
  fails := h.fails

theorem of_answer (h : act.Needs s need post) (found : (act s).answer = .ok a) :
    post a (act s).state := by
  by_cases holds : need
  · obtain ⟨b, found', done⟩ := h.answers holds
    cases found'.symm.trans found
    exact done
  · cases (h.fails holds).symm.trans found

theorem answered (h : act.Needs s need post) :
    act.Needs s need fun a s' => (act s).answer = .ok a ∧ post a s' where
  answers := fun holds => by
    obtain ⟨a, found, done⟩ := h.answers holds
    exact ⟨a, found, found, done⟩
  fails := h.fails

theorem and (h : act.Needs s need post) (h' : act.Needs s need post') :
    act.Needs s need fun a s' => post a s' ∧ post' a s' where
  answers := fun holds => by
    obtain ⟨a, found, done⟩ := h.answers holds
    obtain ⟨b, found', done'⟩ := h'.answers holds
    cases found.symm.trans found'
    exact ⟨a, found, done, done'⟩
  fails := h.fails

theorem bind (first : act.Needs s need post)
    (later : ∀ a s', post a s' → (next a).Needs s' need' goal) :
    (act >>= next).Needs s (need ∧ need') goal := by
  have answered {a : α} (found : (act s).answer = .ok a) :
      (act >>= next) s = ⟨(next a (act s).state).answer, (next a (act s).state).state,
        (act s).log ++ (next a (act s).state).log⟩ := bind_apply_ok (by rw [← found])
  constructor
  · rintro ⟨holds, holds'⟩
    obtain ⟨a, found, done⟩ := first.answers holds
    rw [answered found]
    exact (later a _ done).answers holds'
  · intro misses
    by_cases holds : need
    · obtain ⟨a, found, done⟩ := first.answers holds
      rw [answered found]
      exact (later a _ done).fails fun holds' => misses ⟨holds, holds'⟩
    · have failed : act s = ⟨.error .tooLongToWrite, (act s).state, (act s).log⟩ := by
        rw [← first.fails holds]
      rw [bind_apply_error failed]

theorem andThen (first : act.Needs s True post)
    (later : ∀ a s', post a s' → (next a).Needs s' need' goal) :
    (act >>= next).Needs s need' goal :=
  (first.bind later).congr (iff_of_eq (true_and need'))

theorem apart {act : Action τ α} {start : τ} {post : α → τ → Prop}
    (h : act.Needs start need post) (s : σ) :
    (Action.apart act start).Needs s need fun x _ => post x.1 x.2 where
  answers := fun holds => by
    obtain ⟨a, found, done⟩ := h.answers holds
    exact ⟨(a, (act start).state), congrArg (Except.map _) found, done⟩
  fails := fun misses => congrArg (Except.map _) (h.fails misses)

theorem of_ok {r : Except Error α} (found : r = .ok a) (later : (next a).Needs s need' goal) :
    (Action.of r >>= next).Needs s need' goal := by
  have known : (Action.of r).Needs s True fun b s' => b = a ∧ s' = s :=
    ⟨fun _ => ⟨a, found, rfl, rfl⟩, fun h => absurd trivial h⟩
  refine known.andThen fun b s' same => ?_
  rw [same.1, same.2]
  exact later

theorem written {v : Value} {next : Text → Action σ β}
    (later : (next v.plain).Needs s need' goal) :
    (Action.of v.written >>= next).Needs s (v.isWritable = true ∧ need') goal := by
  have wrote : (Action.of v.written).Needs s (v.isWritable = true)
      fun t s' => t = v.plain ∧ s' = s :=
    ⟨fun writable => ⟨v.plain, if_pos writable, rfl, rfl⟩, fun long => if_neg long⟩
  refine wrote.bind fun t s' same => ?_
  rw [same.1, same.2]
  exact later

theorem of_written {v : Value} {next : Text → Action σ β} (writable : v.isWritable = true)
    (later : (next v.plain).Needs s need' goal) :
    (Action.of v.written >>= next).Needs s need' goal :=
  (written later).congr (and_iff_right writable)

end Needs

theorem exists_of_bind_answer {b : β} (done : ((act >>= next) s).answer = .ok b) :
    ∃ a, (act s).answer = .ok a ∧ (next a (act s).state).answer = .ok b := by
  rw [bind_apply] at done
  rcases outcome : act s with ⟨answer, state, log⟩
  rw [outcome] at done
  cases answer with
  | error e => cases done
  | ok a => exact ⟨a, rfl, done⟩

theorem of_apart_answer {act : Action τ α} {start : τ} {x : α × τ}
    (done : (Action.apart act start s).answer = .ok x) :
    (act start).answer = .ok x.1 ∧ x.2 = (act start).state := by
  have mapped : (act start).answer.map (fun a => (a, (act start).state)) = .ok x := done
  cases answer : (act start).answer with
  | error e =>
    rw [answer] at mapped
    cases mapped
  | ok a =>
    rw [answer] at mapped
    cases mapped
    exact ⟨rfl, rfl⟩

/-- What holds after a first step, failed or not, and then after what follows on its answer. -/
theorem leaves_bind {p : σ → Prop} (first : p (act s).state)
    (later : ∀ a, (act s).answer = .ok a → p (next a (act s).state).state) :
    p ((act >>= next) s).state := by
  rw [bind_apply]
  rcases outcome : act s with ⟨answer, state, log⟩
  rw [outcome] at first later
  cases answer with
  | error e => exact first
  | ok a => exact later a rfl

/-- If a step answers, something holds of its answer and the state that it leaves. -/
def Ends (act : Action σ α) (s : σ) (post : α → σ → Prop) : Prop :=
  ∀ a, (act s).answer = .ok a → post a (act s).state

namespace Ends

theorem weaken (h : act.Ends s post) (more : ∀ a s', post a s' → post' a s') :
    act.Ends s post' :=
  fun a answered => more a _ (h a answered)

theorem bind (first : act.Ends s post) (later : ∀ a s', post a s' → (next a).Ends s' goal) :
    (act >>= next).Ends s goal := by
  intro b answered
  obtain ⟨a, found, rest⟩ := exists_of_bind_answer answered
  have run : act s = ⟨.ok a, (act s).state, (act s).log⟩ := by rw [← found]
  rw [bind_apply_ok run]
  exact later a _ (first a found) b rest

end Ends

end Action

end Schematic
