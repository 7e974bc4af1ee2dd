import Schematic.Proofs.Graph.Keys
import Schematic.Proofs.Graph.Wires
import Schematic.Proofs.PassThrough.Underway
import Schematic.Proofs.Survey.Draft

/-! What belongs to a binding of a surveyed graph. Whatever the objects are bound to, all identities
that a survey keeps can be table keys, so the table of bindings and the comparison of identities
agree but on not-a-number. -/

namespace Schematic

namespace Survey.IsDraftOf

variable {objects : List SimObject} {s : Survey}

/-- What holds of each port that the objects can report holds of all ports of a survey. -/
theorem forall_facts {r : ObjectFacts → Prop} {p : Graph.PortFacts → Prop}
    (draft : s.IsDraftOf objects)
    (made : ∀ f, r f → ∀ (kind : Value), ∀ x ∈ f.port? kind, p x)
    (clocked : ∀ f, r f → p f.clockPort)
    (all : ∀ f ∈ SimObject.reportsAmong objects, r f) :
    ∀ k ∈ s.graph.roster, ∀ f ∈ s.graph.factsOf k, p f := by
  obtain ⟨top, ports, below, root, drawn, tree⟩ := draft.tree
  have inside : ∀ f ∈ SimObject.reportsAmong top.children, r f := by
    rcases root with rfl | rfl
    · exact all
    · cases top
      simp only [SimObject.reportsAmong, SimObject.reports, List.append_nil, List.forall_mem_cons,
        List.forall_mem_append] at all
      exact all.2.2
  have here := drawn.forall_ports made clocked inside
  obtain ⟨o, outlined, sketched⟩ := Option.map_eq_some_iff.mp tree
  have met : s.graph.components = o.preorder := by rw [Graph.components, outlined]
  intro k hk f hf
  have listed : s.graph.entry k ∈ (s.graph.sketch o).entries := by
    rw [Graph.entries_sketch, ← met, draft.order]
    exact List.mem_map_of_mem hk
  rw [sketched, Sketch.entries] at listed
  rcases List.mem_cons.mp listed with same | listed
  · have own : s.graph.factsOf k = ports := congrArg Prod.snd same
    exact here.1 f (own ▸ hf)
  · exact here.2 _ listed f hf

theorem isKeyed (draft : s.IsDraftOf objects) : s.graph.IsKeyed :=
  draft.forall_facts (r := fun _ => True) (p := fun f => f.identity.isHashable = true)
    (fun f _ kind x made => by
      obtain ⟨_, -, rfl⟩ := Option.map_eq_some_iff.mp made
      exact f.isHashable_binding)
    (fun f _ => f.isHashable_binding) fun _ _ => trivial

end Survey.IsDraftOf

variable {σ : Type}

/-- How an extracted graph came about: a survey drafted it, and then inference added to it. -/
theorem exists_survey {g : Graph} {options : SurveyOptions} {objects : List SimObject} {s : σ}
    (extracted : (extract options objects s).answer = .ok g) : ∃ survey,
      (surveyOf options objects s).answer = .ok survey ∧ survey.IsDraftOf objects ∧
        survey.graph.IsUnderway g := by
  obtain ⟨survey, surveyed, extracted⟩ := Action.exists_of_bind_answer extracted
  obtain ⟨found, inferred, extracted⟩ := Action.exists_of_bind_answer extracted
  cases extracted
  have draft := drafts_surveyOf surveyed
  refine ⟨survey, surveyed, draft, ?_⟩
  rw [(Action.of_apart_answer inferred).2]
  exact draft.built.isUnderway draft.isKeyed

/-- In every surveyed graph, whatever its objects are bound to, two bound ports are listed under one
binding exactly if they connect or are bound to the same not-a-number. A component that owns a bound
port is found to own a port of its identity unless that is not-a-number, and the search finds the
same port by the identity under which the binding is listed. All wires join ports of one binding. -/
theorem surveys_agree_on_bindings (options : SurveyOptions) (objects : List SimObject) (s : σ)
    {survey : Survey} (surveyed : (surveyOf options objects s).answer = .ok survey) :
    ∃ bs, survey.graph.bindings = .ok bs ∧
      (∀ p ∈ survey.graph.boundPorts, ∀ q ∈ survey.graph.boundPorts,
        (∃ b ∈ bs, p ∈ b.ports ∧ q ∈ b.ports) ↔
          (survey.graph.port p).connects (survey.graph.port q) = true ∨
            ∃ n, (survey.graph.port p).identity = .nan n ∧
              (survey.graph.port q).identity = .nan n) ∧
      (∀ k ∈ survey.graph.roster, ∀ p ∈ survey.graph.portsOf k,
        (survey.graph.port p).isBound = true →
          ((survey.graph.portFor k (survey.graph.port p).identity).isSome = true ↔
            (survey.graph.port p).identity.isNotANumber = false)) ∧
      (∀ b ∈ bs, ∀ p ∈ b.ports, ∀ k ∈ survey.graph.roster,
        survey.graph.portFor k b.identity =
          survey.graph.portFor k (survey.graph.port p).identity) ∧
      ∀ k ∈ survey.graph.roster, ∀ w ∈ survey.graph.wires k,
        ∃ b ∈ bs, w.sourcePort ∈ b.ports ∧ w.targetPort ∈ b.ports := by
  have draft := drafts_surveyOf surveyed
  have cohered := draft.built.coherent
  have keyed := draft.isKeyed
  have keys : ∀ q ∈ survey.graph.boundPorts, (survey.graph.port q).identity.isHashable = true :=
    fun q hq => keyed.bound cohered hq
  obtain ⟨bs, made, sorted⟩ := Graph.bindings_sorted keys
  refine ⟨bs, made, ?_, fun k hk p hp bound => keyed.isSome_portFor_iff hk hp bound, ?_, ?_⟩
  · intro p hp q hq
    rw [keyed.together_iff cohered sorted hp hq, keyed.connects_iff cohered hp hq]
    exact Graph.bond_eq_iff
  · intro b hb p hp k hk
    have listed := (sorted.mem_ports hb keys).mp hp
    exact keyed.portFor_eq hk (sorted.hashable b hb) (keys p listed.1) listed.2
  · intro k hk w hw
    have lies := cohered.lies hk hw
    have ends := lies.ends cohered
    have bound := lies.joined
    simp only [Port.connects, Bool.and_eq_true] at bound
    have left : w.sourcePort ∈ survey.graph.boundPorts := List.mem_filter.mpr ⟨ends.1, bound.1.1⟩
    have right : w.targetPort ∈ survey.graph.boundPorts := List.mem_filter.mpr ⟨ends.2, bound.1.2⟩
    refine (keyed.together_iff cohered sorted left right).mpr ?_
    exact ((keyed.connects_iff cohered left right).mp lies.joined).1

/-- A module with ports bound to one and to true, which are the same, and a port bound to
not-a-number. -/
def capturedNumbers : List SimObject :=
  [.module (.text "top")
    [.port (.text "a") (.text "sc_out") (.text "output") (.int 1),
      .port (.text "b") (.text "sc_in") (.text "input") (.bool true),
      .port (.text "c") (.text "sc_in") (.text "input") (.nan 0)]]

theorem surveys_agree_on_bindings_of_numbers :
    ∃ survey bs, (surveyOf ⟨.text "$$$", .list []⟩ capturedNumbers ()).answer = .ok survey ∧
      survey.graph.bindings = .ok bs ∧ (∃ b ∈ bs, ⟨0⟩ ∈ b.ports ∧ ⟨1⟩ ∈ b.ports) ∧
        (∃ b ∈ bs, ⟨2⟩ ∈ b.ports) ∧
          survey.graph.portFor ⟨0⟩ (survey.graph.port ⟨2⟩).identity = none := by
  have shape : (surveyOf ⟨.text "$$$", .list []⟩ capturedNumbers ()).answer.toOption.any
      (fun survey => survey.graph.boundPorts == [⟨0⟩, ⟨1⟩, ⟨2⟩] &&
        survey.graph.roster == [⟨0⟩] && survey.graph.portsOf ⟨0⟩ == [⟨0⟩, ⟨1⟩, ⟨2⟩] &&
        (survey.graph.port ⟨0⟩).connects (survey.graph.port ⟨1⟩) &&
        (survey.graph.port ⟨2⟩).identity.isNotANumber) = true := by
    decide +kernel
  cases surveyed : (surveyOf ⟨.text "$$$", .list []⟩ capturedNumbers ()).answer with
  | error e =>
    rw [surveyed] at shape
    cases shape
  | ok survey =>
    rw [surveyed] at shape
    simp only [Except.toOption, Option.any_some, Bool.and_eq_true, beq_iff_eq] at shape
    obtain ⟨⟨⟨⟨listed, roster⟩, ports⟩, joined⟩, odd⟩ := shape
    obtain ⟨bs, made, together, found, -, -⟩ :=
      surveys_agree_on_bindings ⟨.text "$$$", .list []⟩ capturedNumbers () surveyed
    obtain ⟨n, same⟩ := Value.isNotANumber_iff.mp odd
    have number := Value.meaning_eq_notANumber.mp same
    refine ⟨survey, bs, rfl, made, ?_, ?_, ?_⟩
    · exact (together ⟨0⟩ (by simp [listed]) ⟨1⟩ (by simp [listed])).mpr (.inl joined)
    · have last : (⟨2⟩ : PortKey) ∈ survey.graph.boundPorts := by simp [listed]
      obtain ⟨b, hb, here, -⟩ := (together ⟨2⟩ last ⟨2⟩ last).mpr (.inr ⟨n, number, number⟩)
      exact ⟨b, hb, here⟩
    · have bound : (survey.graph.port ⟨2⟩).isBound = true := by
        rw [Port.isBound, number]
        rfl
      rw [← Option.not_isSome_iff_eq_none, found ⟨0⟩ (by simp [roster]) ⟨2⟩ (by simp [ports]) bound]
      simp [odd]

end Schematic
