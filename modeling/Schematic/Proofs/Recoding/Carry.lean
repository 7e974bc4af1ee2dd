import Schematic.Action

/-! Two runs of one program, on a state and on the same state changed. A step carries the change if
it answers and writes the same in both, fails in both or in none, and leaves states that differ as
before; consecutive steps that do so are one such step. -/

namespace Schematic

def Outcome.map {σ α β : Type} (f : α → β) (o : Outcome σ α) : Outcome σ β :=
  ⟨o.answer.map f, o.state, o.log⟩

namespace Action

variable {σ α β γ δ : Type} {change : σ → σ} {keeps : σ → Prop} {act act' : Action σ α}
  {next next' : α → Action σ β} {s : σ} {a : α}

/-- A step and another one on the changed state: they answer and write the same, and the states that
they leave differ as before. The first one leaves a state as it should be. -/
structure Carries (change : σ → σ) (keeps : σ → Prop) (act act' : Action σ α) (s : σ) : Prop where
  run : act' (change s) = ⟨(act s).answer, change (act s).state, (act s).log⟩
  kept : keeps (act s).state

theorem carries_pure (kept : keeps s) : Carries change keeps (pure a) (pure a) s := ⟨rfl, kept⟩

theorem carries_fail (e : Error) (kept : keeps s) :
    Carries change keeps (fail e : Action σ α) (fail e) s := ⟨rfl, kept⟩

theorem carries_of (r : Except Error α) (kept : keeps s) :
    Carries change keeps (.of r) (.of r) s := ⟨rfl, kept⟩

theorem carries_note {level : LogLevel} {source : LogSource} {message : Text} (kept : keeps s) :
    Carries change keeps (.note level source message) (.note level source message) s := ⟨rfl, kept⟩

theorem carries_change {f f' : σ → σ} (same : f' (change s) = change (f s)) (kept : keeps (f s)) :
    Carries change keeps (.change f) (.change f') s := by
  refine ⟨?_, kept⟩
  rw [Action.change, same]
  rfl

theorem carries_update {f f' : σ → α × σ} (same : f' (change s) = ((f s).1, change (f s).2))
    (kept : keeps (f s).2) : Carries change keeps (.update f) (.update f') s := by
  refine ⟨?_, kept⟩
  rw [update, same]
  rfl

theorem map_bind {act : Action σ α} {act' : Action σ γ} {next : α → Action σ β}
    {next' : γ → Action σ δ} {f : α → γ} {h : β → δ} (first : act' s = (act s).map f)
    (later : ∀ a t, (act s).answer = .ok a → next' (f a) t = (next a t).map h) :
    (act' >>= next') s = ((act >>= next) s).map h := by
  rcases outcome : act s with ⟨answer, t, log⟩
  rw [outcome] at first later
  cases answer with
  | error e => rw [bind_apply_error first, bind_apply_error outcome, Outcome.map, Except.map]
  | ok a => rw [bind_apply_ok first, bind_apply_ok outcome, later a t rfl, Outcome.map, Outcome.map]

namespace Carries

theorem bind (first : Carries change keeps act act' s)
    (later : ∀ a s', keeps s' → Carries change keeps (next a) (next' a) s') :
    Carries change keeps (act >>= next) (act' >>= next') s := by
  have run := first.run
  have kept := first.kept
  rcases outcome : act s with ⟨answer, s', log⟩
  rw [outcome] at run kept
  cases answer with
  | error e =>
    refine ⟨?_, ?_⟩
    · rw [bind_apply_error run, bind_apply_error outcome]
    · rw [bind_apply_error outcome]
      exact kept
  | ok a =>
    have rest := later a s' kept
    refine ⟨?_, ?_⟩
    · rw [bind_apply_ok run, bind_apply_ok outcome, rest.run]
    · rw [bind_apply_ok outcome]
      exact rest.kept

/-- A step that looks something up, which the other one finds changed. -/
theorem of_map {next' : γ → Action σ β} {f : α → γ} {r : Except Error α}
    (kept : keeps s) (later : ∀ a, r = .ok a → Carries change keeps (next a) (next' (f a)) s) :
    Carries change keeps (.of r >>= next) (.of (r.map f) >>= next') s := by
  cases r with
  | error e => exact ⟨rfl, kept⟩
  | ok a => exact later a rfl

/-- A step that looks at the state. -/
theorem look {next next' : σ → Action σ β}
    (later : Carries change keeps (next s) (next' (change s)) s) :
    Carries change keeps (Action.state >>= next) (Action.state >>= next') s := by
  have read (t : σ) : Action.state t = ⟨.ok t, t, []⟩ := rfl
  refine ⟨?_, ?_⟩
  · rw [bind_apply_ok (read _), bind_apply_ok (read _), later.run]
  · rw [bind_apply_ok (read _)]
    exact later.kept

/-- Steps on states of their own, of which only the last ones are kept. -/
theorem final {τ : Type} {start' : σ} (h : Carries change keeps act act' s)
    (start : start' = change s) (t : τ) :
    (do let (_, s) ← apart act' start'; pure s : Action τ σ) t =
        ((do let (_, s) ← apart act s; pure s : Action τ σ) t).map change ∧
      ∀ s', ((do let (_, s) ← apart act s; pure s : Action τ σ) t).answer = .ok s' → keeps s' := by
  have run := h.run
  have kept := h.kept
  rw [← start] at run
  simp only [apart, bind_apply, run, Outcome.map]
  cases (act s).answer with
  | error e => exact ⟨rfl, nofun⟩
  | ok a =>
    refine ⟨rfl, fun s' last => ?_⟩
    cases last
    exact kept

end Carries

end Action

end Schematic
