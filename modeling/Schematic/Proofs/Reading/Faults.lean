import Schematic.Yaml.Token

/-! What the reading of a YAML text blames on its scalars, and rules for the steps of it. Each step
may rely on an invariant of the state, which the steps before it keep. -/

namespace Schematic.Yaml

variable {σ α β : Type} {I : σ → Prop} {P : ScalarFault → Prop}

/-- What a reading blames on a scalar and not on the grammar has a property. -/
def Blames (P : ScalarFault → Prop) (r : Reading α) : Prop :=
  ∀ fault, r = .error (.scalar fault) → P fault

namespace Blames

theorem ok (a : α) : Blames P (.ok a : Reading α) := nofun

theorem malformed : Blames P (Yaml.malformed : Reading α) := nofun

theorem bind {r : Reading α} {next : α → Reading β} (first : Blames P r)
    (later : ∀ a, r = .ok a → Blames P (next a)) : Blames P (r >>= next) := by
  cases r with
  | error e =>
    intro fault failed
    cases failed
    exact first fault rfl
  | ok a => exact later a rfl

theorem ite {c : Prop} [Decidable c] {r s : Reading α} (yes : Blames P r) (no : Blames P s) :
    Blames P (if c then r else s) := by
  split
  · exact yes
  · exact no

end Blames

/-- A step that keeps an invariant and blames on a scalar only what has a property. -/
def Faithful (I : σ → Prop) (P : ScalarFault → Prop) (act : StateT σ Reading α) : Prop :=
  ∀ s, I s → Blames P (act s) ∧ ∀ a s', act s = .ok (a, s') → I s'

namespace Faithful

theorem pure (a : α) : Faithful I P (Pure.pure a) := by
  refine fun s holds => ⟨nofun, ?_⟩
  rintro _ _ ⟨⟩
  exact holds

theorem bind {act : StateT σ Reading α} {next : α → StateT σ Reading β}
    (first : Faithful I P act) (later : ∀ a, Faithful I P (next a)) :
    Faithful I P (act >>= next) := by
  intro s holds
  obtain ⟨blames, keeps⟩ := first s holds
  have run : (act >>= next) s = (act s >>= fun found => next found.1 found.2) := rfl
  rw [run]
  cases done : act s with
  | error e =>
    rw [done] at blames
    refine ⟨?_, nofun⟩
    rintro fault ⟨⟩
    exact blames fault rfl
  | ok found =>
    obtain ⟨a, s'⟩ := found
    exact later a s' (keeps a s' done)

theorem map {act : StateT σ Reading α} {f : α → β} (inner : Faithful I P act) :
    Faithful I P (f <$> act) :=
  bind inner fun a => pure (f a)

theorem ite {c : Prop} [Decidable c] {yes no : StateT σ Reading α}
    (whenTrue : Faithful I P yes) (whenFalse : Faithful I P no) :
    Faithful I P (if c then yes else no) := by
  split
  · exact whenTrue
  · exact whenFalse

theorem bind_lift {r : Reading α} {next : α → StateT σ Reading β} (blames : Blames P r)
    (later : ∀ a, r = .ok a → Faithful I P (next a)) :
    Faithful I P ((liftM r : StateT σ Reading α) >>= next) := by
  intro s holds
  cases r with
  | error e =>
    refine ⟨?_, nofun⟩
    rintro fault ⟨⟩
    exact blames fault rfl
  | ok a => exact later a rfl s holds

theorem malformed : Faithful I P (liftM (Yaml.malformed : Reading α)) :=
  fun _ _ => ⟨nofun, nofun⟩

theorem throw {fault : ReadFault} (blames : ∀ f, fault = .scalar f → P f) :
    Faithful I P (throw fault : StateT σ Reading α) := by
  refine fun s _ => ⟨?_, nofun⟩
  rintro f ⟨⟩
  exact blames f rfl

/-- The state at hand satisfies the invariant. -/
theorem bind_get {next : σ → StateT σ Reading β} (later : ∀ s, I s → Faithful I P (next s)) :
    Faithful I P (get >>= next) :=
  fun s holds => later s holds s holds

theorem update {f : σ → σ} (keeps : ∀ s, I s → I (f s)) :
    Faithful I P (modify f : StateT σ Reading Unit) := by
  refine fun s holds => ⟨nofun, ?_⟩
  rintro _ _ ⟨⟩
  exact keeps s holds

theorem put {s : σ} (holds : I s) : Faithful I P (set s : StateT σ Reading PUnit) := by
  refine fun _ _ => ⟨nofun, ?_⟩
  rintro _ _ ⟨⟩
  exact holds

end Faithful

end Schematic.Yaml
