import Schematic.Proofs.Graph.Admission
import Schematic.Proofs.Graph.Growth
import Schematic.Proofs.PassThrough.Inference

/-! How graphs come about: by additions, of which a graph refuses some, and by runs of inference. -/

namespace Schematic

inductive Addition where
  | component (name basename typeName : Value) (parent : Option ComponentKey)
  | port (owner : ComponentKey) (facts : Graph.PortFacts)

inductive Call where
  | add (a : Addition)
  | infer

namespace Addition

def perform : Addition → Action Graph Unit
  | component name basename typeName parent => do
    let _ ← Graph.addComponent name basename typeName parent
    pure ()
  | port owner facts => do
    let _ ← Graph.addPort owner facts
    pure ()

/-- Whether the names can be written and the identity is a proper one. -/
def IsOrdinary : Addition → Prop
  | component name _ _ _ => name.isWritable = true
  | port _ facts => facts.basename.isWritable = true ∧ facts.identity.IsIdentity

def Suits (g : Graph) : Addition → Prop
  | component _ _ _ parent => g.CanHost parent
  | port owner _ => owner ∈ g.roster

def Meets (onLabel : Label → Prop) (onPort : Graph.PortFacts → Prop) : Addition → Prop
  | component name basename typeName _ => onLabel ⟨name, basename, typeName⟩
  | port _ facts => onPort facts.kept

def done (g : Graph) : Addition → Graph
  | component name basename typeName parent => (g.insertComponent name basename typeName parent).2
  | port owner facts => (g.insertPort owner facts).2

end Addition

namespace Call

def perform : Call → Action Graph Unit
  | add a => a.perform
  | infer => do
    let _ ← Graph.addPassThroughs
    pure ()

def IsOrdinary : Call → Prop
  | add a => a.IsOrdinary
  | infer => True

def addition? : Call → Option Addition
  | add a => some a
  | infer => none

end Call

/-- A driver inside one child of the root and a receiver at the other child. -/
def twoBranches : List Addition :=
  [.component (.text "top") (.text "top") (.text "Top") none,
    .component (.text "top.a") (.text "a") (.text "A") (some ⟨0⟩),
    .component (.text "top.a.b") (.text "b") (.text "B") (some ⟨1⟩),
    .component (.text "top.c") (.text "c") (.text "C") (some ⟨0⟩),
    .port ⟨2⟩
      { name := .text "top.a.b.o", basename := .text "o", direction := .output
        typeName := .text "sc_out", identity := .text "s" },
    .port ⟨3⟩
      { name := .text "top.c.i", basename := .text "i", direction := .input
        typeName := .text "sc_in", identity := .text "s" }]

theorem twoBranches_ordinary : ∀ a ∈ twoBranches, a.IsOrdinary := by
  simp [twoBranches, Addition.IsOrdinary, Value.IsIdentity, Value.isHashable, Value.isNotANumber]

namespace Graph

/-- The graph after some additions. A refused one changes nothing. -/
def grow (g : Graph) (additions : List Addition) : Graph :=
  additions.foldl (fun g a => (a.perform.on g).state) g

def after (g : Graph) (calls : List Call) : Graph :=
  calls.foldl (fun g call => (call.perform.on g).state) g

variable {g h : Graph} {a : Addition} {additions : List Addition}

theorem perform_granted (hg : g.Coherent) (suits : a.Suits g) :
    ∃ log, a.perform.on g = ⟨.ok (), a.done g, log⟩ := by
  cases a with
  | component name basename typeName parent =>
    obtain ⟨log, granted⟩ := addComponent_granted hg suits name basename typeName
    exact ⟨log ++ [], Action.bind_apply_ok granted⟩
  | port owner facts => exact ⟨[], Action.bind_apply_ok (addPort_granted hg suits facts)⟩

theorem perform_refused (hg : g.Coherent) (refused : ¬ a.Suits g) :
    ∃ e, a.perform.on g = ⟨.error e, g, []⟩ := by
  cases a with
  | component name basename typeName parent =>
    obtain ⟨e, failed⟩ := addComponent_refused hg refused name basename typeName
    exact ⟨e, Action.bind_apply_error failed⟩
  | port owner facts =>
    obtain ⟨e, failed⟩ := addPort_refused hg refused facts
    exact ⟨e, Action.bind_apply_error failed⟩

theorem state_perform (hg : g.Coherent) (suits : a.Suits g) :
    (a.perform.on g).state = a.done g := by
  obtain ⟨log, granted⟩ := perform_granted hg suits
  rw [granted]

theorem state_perform_of_refused (hg : g.Coherent) (refused : ¬ a.Suits g) :
    (a.perform.on g).state = g := by
  obtain ⟨e, failed⟩ := perform_refused hg refused
  rw [failed]

/-- A graph whose tables agree and whose names and identities are ordinary. -/
structure Sound (g : Graph) : Prop where
  coherent : g.Coherent
  ordinary : g.Ordinary

theorem sound_empty : Sound {} := ⟨coherent_empty, ordinary_empty⟩

theorem Sound.done (hg : g.Sound) (suits : a.Suits g) (ordinary : a.IsOrdinary) :
    (a.done g).Sound := by
  cases a with
  | component name basename typeName parent =>
    exact ⟨hg.coherent.insertComponent suits,
      hg.ordinary.insertComponent hg.coherent suits ordinary⟩
  | port owner facts =>
    exact ⟨hg.coherent.insertPort suits,
      hg.ordinary.insertPort hg.coherent suits ordinary.1 ordinary.2⟩

theorem Sound.perform (hg : g.Sound) (ordinary : a.IsOrdinary) :
    ((a.perform.on g).state).Sound := by
  by_cases suits : a.Suits g
  · rw [state_perform hg.coherent suits]
    exact hg.done suits ordinary
  · rw [state_perform_of_refused hg.coherent suits]
    exact hg

theorem Sound.grow (hg : g.Sound) (ordinary : ∀ a ∈ additions, a.IsOrdinary) :
    (g.grow additions).Sound := by
  induction additions generalizing g with
  | nil => exact hg
  | cons a additions ih =>
    exact ih (hg.perform (ordinary a List.mem_cons_self)) fun b hb =>
      ordinary b (List.mem_cons_of_mem _ hb)

theorem IsBuilt.perform (hg : g.IsBuilt) (a : Addition) : ((a.perform.on g).state).IsBuilt := by
  by_cases suits : a.Suits g
  · rw [state_perform hg.coherent suits]
    cases a with
    | component name basename typeName parent => exact .component name basename typeName hg suits
    | port owner facts => exact .port facts hg suits
  · rw [state_perform_of_refused hg.coherent suits]
    exact hg

theorem IsBuilt.grow (hg : g.IsBuilt) (additions : List Addition) :
    (g.grow additions).IsBuilt := by
  induction additions generalizing g with
  | nil => exact hg
  | cons a additions ih => exact ih (hg.perform a)

/-- A graph whose components all meet a condition, and whose ports all meet another one. -/
structure HasOnly (onLabel : Label → Prop) (onPort : PortFacts → Prop) (g : Graph) : Prop where
  label : ∀ k ∈ g.roster, onLabel (g.label k)
  ports : ∀ k ∈ g.roster, ∀ f ∈ g.factsOf k, onPort f

section HasOnly

variable {onLabel : Label → Prop} {onPort : PortFacts → Prop}

theorem hasOnly_empty : HasOnly onLabel onPort {} := ⟨nofun, nofun⟩

theorem HasOnly.ofPort (h : g.HasOnly onLabel onPort) (hg : g.Coherent) {q : PortKey}
    (hq : q ∈ g.ports) : onPort (g.port q).facts := by
  obtain ⟨k, hk, listed⟩ := hg.mem_ports.mp hq
  exact h.ports k hk _ (List.mem_map_of_mem listed)

theorem HasOnly.done (h : g.HasOnly onLabel onPort) (hg : g.Coherent) (suits : a.Suits g)
    (meets : a.Meets onLabel onPort) : (a.done g).HasOnly onLabel onPort := by
  cases a with
  | component name basename typeName parent =>
    constructor
    · intro k hk
      rcases mem_roster_insertComponent.mp hk with old | rfl
      · rw [Addition.done, Gains.label_insertComponent hg k old]
        exact h.label k old
      · rw [Addition.done, Gains.label_new hg suits]
        exact meets
    · intro k hk f hf
      obtain ⟨old, known⟩ := mem_factsOf_insertComponent hg suits hk hf
      exact h.ports k old f known
  | port owner facts =>
    constructor
    · intro k hk
      have same : (g.insertPort owner facts).2.label k = g.label k := by
        simp only [Graph.label, component_insertPort]
      exact same ▸ h.label k hk
    · intro k hk f hf
      obtain ⟨hk, old | rfl⟩ := mem_factsOf_insertPort hg suits hk hf
      · exact h.ports k hk f old
      · exact meets

theorem HasOnly.perform (h : g.HasOnly onLabel onPort) (hg : g.Coherent)
    (meets : a.Meets onLabel onPort) : ((a.perform.on g).state).HasOnly onLabel onPort := by
  by_cases suits : a.Suits g
  · rw [state_perform hg suits]
    exact h.done hg suits meets
  · rw [state_perform_of_refused hg suits]
    exact h

theorem HasOnly.grow (h : g.HasOnly onLabel onPort) (hg : g.IsBuilt)
    (meets : ∀ a ∈ additions, a.Meets onLabel onPort) :
    (g.grow additions).HasOnly onLabel onPort := by
  induction additions generalizing g with
  | nil => exact h
  | cons a additions ih =>
    rw [List.forall_mem_cons] at meets
    exact ih (h.perform hg.coherent meets.1) (hg.perform a) meets.2

end HasOnly

theorem Sound.exists_inferred (hg : g.Sound) : ∃ h added, g.Inferred h added ∧ h.Sound := by
  obtain ⟨h, added, run⟩ := Graph.exists_inferred hg.coherent hg.ordinary
  exact ⟨h, added, run, run.follows.coherent, run.ordinary⟩

theorem Inferred.state_infer {added : List Demand} (run : g.Inferred h added) :
    (Call.infer.perform.on g).state = h := by
  rw [← run.state]
  simp only [Call.perform, Action.on, Action.bind_apply]
  rcases (addPassThroughs g) with ⟨answer, state, log⟩
  cases answer <;> rfl

end Graph

end Schematic
