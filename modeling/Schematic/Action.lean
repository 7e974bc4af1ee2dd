import Schematic.Error
import Schematic.Log

/-!
Steps that work on a state, may fail, and write a log. A step that fails keeps the changes and the
entries that it made before.
-/

namespace Schematic

/-- What a step did: its answer or the cause of its failure, the state that it left, and the
entries that it wrote. -/
structure Outcome (σ α : Type) where
  answer : Except Error α
  state : σ
  log : List LogEntry

def Action (σ α : Type) : Type := σ → Outcome σ α

namespace Action

variable {σ τ α β : Type}

def on (act : Action σ α) (s : σ) : Outcome σ α := act s

def answer (a : α) : Action σ α := fun s => ⟨.ok a, s, []⟩

/-- One step, and with its answer the next one. After a failure nothing follows. -/
def andThen (act : Action σ α) (next : α → Action σ β) : Action σ β := fun s =>
  match act s with
  | ⟨.ok a, s', log⟩ =>
    let rest := next a s'
    ⟨rest.answer, rest.state, log ++ rest.log⟩
  | ⟨.error e, s', log⟩ => ⟨.error e, s', log⟩

instance : Monad (Action σ) where
  pure := answer
  bind := andThen

def fail (e : Error) : Action σ α := fun s => ⟨.error e, s, []⟩

def of (r : Except Error α) : Action σ α := fun s => ⟨r, s, []⟩

def state : Action σ σ := fun s => ⟨.ok s, s, []⟩

def change (f : σ → σ) : Action σ Unit := fun s => ⟨.ok (), f s, []⟩

def update (f : σ → α × σ) : Action σ α := fun s => ⟨.ok (f s).1, (f s).2, []⟩

def note (level : LogLevel) (source : LogSource) (message : Text) : Action σ Unit := fun s =>
  ⟨.ok (), s, [⟨level, source, message⟩]⟩

/-- A step on a state of its own, which the answer carries; its entries are kept. -/
def apart (act : Action τ α) (start : τ) : Action σ (α × τ) := fun s =>
  let inner := act start
  ⟨inner.answer.map fun a => (a, inner.state), s, inner.log⟩

/-- A step on a part of the state. The part is put back also after a failure. -/
def within (part : σ → τ) (put : τ → σ → σ) (act : Action τ α) : Action σ α := fun s =>
  let inner := act (part s)
  ⟨inner.answer, put inner.state s, inner.log⟩

def attempt (act : Action σ α) : Action σ (Except Error α) := fun s =>
  let o := act s
  ⟨.ok o.answer, o.state, o.log⟩

@[simp] theorem pure_apply (a : α) (s : σ) :
    (pure a : Action σ α) s = ⟨.ok a, s, []⟩ := rfl

theorem bind_apply (act : Action σ α) (next : α → Action σ β) (s : σ) :
    (act >>= next) s = match act s with
      | ⟨.ok a, s', log⟩ => ⟨(next a s').answer, (next a s').state, log ++ (next a s').log⟩
      | ⟨.error e, s', log⟩ => ⟨.error e, s', log⟩ := rfl

theorem bind_apply_ok {act : Action σ α} {next : α → Action σ β} {s s' : σ} {a : α}
    {log : List LogEntry} (h : act s = ⟨.ok a, s', log⟩) :
    (act >>= next) s = ⟨(next a s').answer, (next a s').state, log ++ (next a s').log⟩ := by
  simp [bind_apply, h]

theorem bind_apply_error {act : Action σ α} {next : α → Action σ β} {s s' : σ} {e : Error}
    {log : List LogEntry} (h : act s = ⟨.error e, s', log⟩) :
    (act >>= next) s = ⟨.error e, s', log⟩ := by
  simp [bind_apply, h]

theorem of_ok_bind (a : α) (next : α → Action σ β) : (of (.ok a) >>= next) = next a := rfl

theorem andThen_pure (act : Action σ α) : (act >>= pure) = act := by
  funext s
  rw [bind_apply]
  rcases act s with ⟨answer, s', log⟩
  cases answer with
  | error e => rfl
  | ok a => simp only [pure_apply, List.append_nil]

theorem andThen_assoc {γ : Type} (act : Action σ α) (next : α → Action σ β)
    (last : β → Action σ γ) : (act >>= next >>= last) = act >>= fun a => next a >>= last := by
  funext s
  rw [bind_apply, bind_apply, bind_apply]
  rcases act s with ⟨answer, s', log⟩
  cases answer with
  | error e => rfl
  | ok a =>
    dsimp only
    rw [bind_apply]
    rcases next a s' with ⟨answer, s'', log'⟩
    cases answer with
    | error e => rfl
    | ok b => simp only [List.append_assoc]

end Action

end Schematic
