import Schematic.Drawing.ElkText
import Schematic.Proofs.Graph.Wires
import Schematic.Proofs.Survey.Address
import Schematic.Proofs.Survey.Keys

/-! Names as references. A text diagram refers to ports by their names alone. The names of captured
ports are addresses, so each is the name of one port; a port that inference adds takes the basename
of a port elsewhere, and shares its name with ports of other bindings that have this basename
already. -/

namespace Schematic

namespace Graph

/-- Ports that can share a basename at one component: one of them was added by inference, and they
are not of one binding. -/
def PortFacts.AreTold (f f' : PortFacts) : Prop :=
  f.basename = f'.basename → (f.synthesized = true ∨ f'.synthesized = true) ∧
    (f.identity.meaning = f'.identity.meaning → f.identity.isNotANumber = true)

variable {g h : Graph} {top : Text} {a b c k m : ComponentKey} {d r p q x y : PortKey}
  {crumb : Crumb} {w w' : Wire}

instance : Std.Symm PortFacts.AreTold where
  symm := by
    intro f f' told same
    obtain ⟨added, apart⟩ := told same.symm
    refine ⟨added.symm, fun meaning => ?_⟩
    rw [Value.isNotANumber_congr meaning]
    exact apart meaning.symm

/-- A graph whose names are addresses. Ports with one basename at a component are told apart by what
they are bound to. -/
structure IsTold (g : Graph) (top : Text) : Prop where
  built : g.IsBuilt
  keyed : g.IsKeyed
  spelled : g.IsAddressed top
  told : ∀ k ∈ g.roster, (g.factsOf k).Pairwise PortFacts.AreTold

theorem Extends.address (e : g.Extends h) : h.address top = g.address top := by
  funext k
  rw [Graph.address, e.root, e.component, Graph.address]

theorem IsAddressed.insertPort (spelled : g.IsAddressed top) (hg : g.Coherent) (ho : k ∈ g.roster)
    {facts : PortFacts} (here : facts.IsAt (g.address top k)) :
    (g.insertPort k facts).2.IsAddressed top := by
  have grown : g.Extends (g.insertPort k facts).2 := .insertPort (hg.index_lt ho) facts
  have label (m : ComponentKey) : (g.insertPort k facts).2.label m = g.label m := by
    rw [Graph.label, grown.component, Graph.label]
  constructor
  · exact spelled.undotted
  · intro p c step
    rw [grown.isParent] at step
    rw [label, grown.address]
    exact spelled.child step
  · intro p c d step step' same
    rw [grown.isParent] at step step'
    rw [grown.component, grown.component] at same
    exact spelled.siblings step step' same
  · intro m hm f hf
    rw [grown.roster] at hm
    rw [factsOf_insertPort hg ho hm] at hf
    rw [grown.address]
    rcases List.mem_append.mp hf with old | new
    · exact spelled.port m hm f old
    · split at new
      · next same =>
        cases List.mem_singleton.mp new
        exact same ▸ here
      · cases new

theorem IsCrossing.exists_parent (crossing : g.IsCrossing a b crumb) (hg : g.Coherent)
    (ha : a ∈ g.roster) (hb : b ∈ g.roster) : ∃ p, g.IsParent p crumb.component := by
  refine hg.exists_parent (crossing.mem_roster ha hb) fun root => crossing.not_common ?_
  exact ⟨hg.root_encloses root ha, hg.root_encloses root hb⟩

/-- A demanded port is named as if it was at home where it is added. -/
theorem IsAddressed.demandAt (spelled : g.IsAddressed top) (hg : g.Coherent)
    (links : g.Links d r a b) (crossing : g.IsCrossing a b crumb) :
    (g.demandAt d r crumb).facts.IsAt (g.address top crumb.component) := by
  obtain ⟨p, step⟩ := crossing.exists_parent hg links.start links.goal
  obtain ⟨s, segment, -, below, name⟩ := spelled.address_child hg step
  have continued : ∃ t : Text, t.IsSegment ∧
      (g.port (if crumb.upwards then d else r)).basename = .text t := by
    split
    · obtain ⟨t, part, basename, -⟩ := spelled.portAt links.start links.drives
      exact ⟨t, part, basename⟩
    · obtain ⟨t, part, basename, -⟩ := spelled.portAt links.goal links.receives
      exact ⟨t, part, basename⟩
  obtain ⟨t, part, basename⟩ := continued
  have nonempty : (g.address top crumb.component).isEmpty = false := by
    rw [below]
    exact segment.dot_nonempty _
  refine ⟨t, part, basename, ?_⟩
  simp only [Graph.demandAt, basename, name, Value.plain_text, Text.dot_of_nonempty nonempty]

theorem IsTold.add (old : g.IsTold top) (now : h.IsTold top) (before : g.IsUnderway h)
    (links : g.Links d r a b) (crossing : g.IsCrossing a b crumb)
    (free : h.portFor crumb.component (g.port r).identity = none) :
    (h.insertDemand (g.demandAt d r crumb)).IsTold top := by
  have cohered := old.built.coherent
  obtain ⟨grown, -⟩ := before.grown old.built
  have inside : crumb.component ∈ h.roster :=
    grown.roster ▸ crossing.mem_roster links.start links.goal
  have key : (g.port r).identity.isHashable = true := old.keyed.ofPort links.goal links.receives
  have bound : (g.port r).identity.isNull = false := by
    rw [← Bool.not_eq_true, Value.isNull_iff key]
    exact links.bound
  constructor
  · exact .port _ now.built inside
  · exact now.keyed.insertPort now.built.coherent inside key
  · exact now.spelled.insertPort now.built.coherent inside
      (grown.address ▸ old.spelled.demandAt cohered links crossing)
  · intro k hk
    rw [show (h.insertDemand (g.demandAt d r crumb)).roster = h.roster from
      roster_insertPort ..] at hk
    have told := now.told k hk
    rw [show (h.insertDemand (g.demandAt d r crumb)).factsOf k = _ from
      factsOf_insertPort now.built.coherent inside hk]
    split
    · next same =>
      obtain rfl : k = crumb.component := same
      refine List.pairwise_append.mpr ⟨told, List.pairwise_singleton _ _, ?_⟩
      intro f hf f' hf' _
      cases List.mem_singleton.mp hf'
      exact ⟨.inr rfl, now.keyed.free_of_portFor inside key bound free f hf⟩
    · rwa [List.append_nil]

theorem IsUnderway.isTold (now : g.IsUnderway h) (old : g.IsTold top) : h.IsTold top := by
  induction now with
  | start => exact old
  | add before links crossing free ih => exact old.add ih before links crossing free

namespace IsTold

/-- Two ports of one name were not captured both, and belong to different bindings. -/
theorem apart (told : g.IsTold top) (hp : p ∈ g.ports) (hq : q ∈ g.ports) (other : p ≠ q)
    (same : (g.port p).name = (g.port q).name) :
    ((g.port p).synthesized = true ∨ (g.port q).synthesized = true) ∧
      (g.port p).connects (g.port q) = false := by
  have cohered := told.built.coherent
  obtain ⟨k, hk, left⟩ := cohered.mem_ports.mp hp
  obtain ⟨m, hm, right⟩ := cohered.mem_ports.mp hq
  obtain ⟨rfl, basename⟩ := (told.spelled.name_eq_iff cohered hk hm left right).mp same
  have each := told.told k hk
  rw [factsOf, List.pairwise_map] at each
  have symmetric : Std.Symm fun x y => (g.port x).facts.AreTold (g.port y).facts :=
    ⟨fun x y => Std.Symm.symm (r := PortFacts.AreTold) _ _⟩
  obtain ⟨added, unlike⟩ := each.forall left right other basename
  refine ⟨added, Bool.eq_false_iff.mpr fun joined => ?_⟩
  obtain ⟨-, -, meaning, proper⟩ := told.keyed.of_connects cohered hp hq joined
  exact absurd (unlike meaning) (Bool.eq_false_iff.mp proper)

/-- In a text diagram a wire is a line with the names of its ports. -/
theorem wireStatement_eq (told : g.IsTold top) (hk : k ∈ g.roster) (hw : w ∈ g.wires k)
    (n : String) : ∃ s t : Text, (g.port w.sourcePort).name = .text s ∧
      (g.port w.targetPort).name = .text t ∧
        ElkText.wireStatement g ⟨n, w⟩ = .ok (.edge s t) := by
  have cohered := told.built.coherent
  have lies := cohered.lies hk hw
  obtain ⟨b, -, -, source⟩ := told.spelled.portAt lies.source lies.leaves
  obtain ⟨b', -, -, target⟩ := told.spelled.portAt (cohered.child_mem lies.target) lies.enters
  refine ⟨_, _, source, target, ?_⟩
  rw [ElkText.wireStatement, source, target, written_eq (Value.isWritable_text _),
    written_eq (Value.isWritable_text _)]
  rfl

/-- Two wires with one line are one wire, or of different bindings at both ends. -/
theorem wires_apart (told : g.IsTold top) (hk : k ∈ g.roster) (hm : m ∈ g.roster)
    (hw : w ∈ g.wires k) (hw' : w' ∈ g.wires m) {n n' : String}
    (same : ElkText.wireStatement g ⟨n, w⟩ = ElkText.wireStatement g ⟨n', w'⟩) :
    w = w' ∨ (g.port w.sourcePort).connects (g.port w'.sourcePort) = false ∧
      (g.port w.targetPort).connects (g.port w'.targetPort) = false := by
  have cohered := told.built.coherent
  have lies := cohered.lies hk hw
  have lies' := cohered.lies hm hw'
  obtain ⟨start, goal⟩ := lies.ends cohered
  obtain ⟨start', goal'⟩ := lies'.ends cohered
  obtain ⟨s, t, source, target, line⟩ := told.wireStatement_eq hk hw n
  obtain ⟨s', t', source', target', line'⟩ := told.wireStatement_eq hm hw' n'
  cases line.symm.trans (same.trans line')
  have back := told.keyed.connects_symm cohered start goal lies.joined
  have back' := told.keyed.connects_symm cohered start' goal' lies'.joined
  by_cases first : w.sourcePort = w'.sourcePort
  · have joined : (g.port w.targetPort).connects (g.port w'.targetPort) = true :=
      told.keyed.connects_trans cohered goal start goal' back (first ▸ lies'.joined)
    by_cases last : w.targetPort = w'.targetPort
    · exact .inl (lies.eq_of_ports lies' cohered first last)
    · obtain ⟨-, unlike⟩ := told.apart goal goal' last (target.trans target'.symm)
      cases unlike.symm.trans joined
  · obtain ⟨-, unlike⟩ := told.apart start start' first (source.trans source'.symm)
    refine .inr ⟨unlike, Bool.eq_false_iff.mpr fun joined => ?_⟩
    have forth := told.keyed.connects_trans cohered start goal goal' lies.joined joined
    cases unlike.symm.trans
      (told.keyed.connects_trans cohered start goal' start' forth back')

end IsTold

end Graph

/-- A survey of objects that can be told apart has no two ports of one name at a component. -/
theorem Survey.IsDraftOf.isTold {objects : List SimObject} {s : Survey}
    (draft : s.IsDraftOf (SimObject.nameForest objects)) (tidy : SimObject.AreTidy objects) :
    ∃ top, s.graph.IsTold top := by
  have cohered := draft.built.coherent
  obtain ⟨r, top, root, undotted, spells⟩ := draft.spells tidy
  refine ⟨top, draft.built, draft.isKeyed, spells.isAddressed cohered root undotted, ?_⟩
  intro k hk
  have distinct := (spells.all cohered root hk).owns
  rw [List.Nodup, List.pairwise_map] at distinct
  exact distinct.imp fun other same => absurd same other

/-- Objects that an adapter names itself, with distinct basenames without dots wherever they are
side by side, give a graph in which two ports have one name only if they are of one component and
have one basename. Then at least one of them was added by inference, and they are of different
bindings. A text diagram names ports alone: two of its wires have one line only if at both ends they
are of different bindings. -/
theorem names_clash_across_bindings_only {σ : Type} {g : Graph} (options : SurveyOptions)
    (objects forest : List SimObject) (tidy : SimObject.AreTidy objects)
    (named : SimObject.withNames objects = .ok forest) (s : σ)
    (extracted : (extract options forest s).answer = .ok g) :
    (∀ k ∈ g.components, ∀ m ∈ g.components, ∀ p ∈ g.portsOf k, ∀ q ∈ g.portsOf m,
      (g.port p).name = (g.port q).name ↔
        k = m ∧ (g.port p).basename = (g.port q).basename) ∧
    (∀ p ∈ g.ports, ∀ q ∈ g.ports, p ≠ q → (g.port p).name = (g.port q).name →
      ((g.port p).synthesized = true ∨ (g.port q).synthesized = true) ∧
        (g.port p).connects (g.port q) = false) ∧
    (∀ k ∈ g.components, ∀ m ∈ g.components, ∀ w ∈ g.wires k, ∀ w' ∈ g.wires m, ∀ n n',
      ElkText.wireStatement g ⟨n, w⟩ = ElkText.wireStatement g ⟨n', w'⟩ →
        w = w' ∨ (g.port w.sourcePort).connects (g.port w'.sourcePort) = false ∧
          (g.port w.targetPort).connects (g.port w'.targetPort) = false) := by
  obtain rfl := SimObject.eq_of_withNames named
  obtain ⟨survey, -, draft, run⟩ := exists_survey extracted
  obtain ⟨top, old⟩ := draft.isTold tidy
  have told := run.isTold old
  have cohered := told.built.coherent
  simp only [cohered.mem_components]
  refine ⟨fun k hk m hm p hp q hq => told.spelled.name_eq_iff cohered hk hm hp hq,
    fun p hp q hq other same => told.apart hp hq other same,
    fun k hk m hm w hw w' hw' n n' same => told.wires_apart hk hm hw hw' same⟩

def Value.isTheText (t : Text) : Value → Bool
  | .text s => s == t
  | _ => false

theorem Value.eq_of_isTheText {v : Value} {t : Text} (same : v.isTheText t = true) :
    v = .text t := by
  cases v with
  | text s => exact congrArg Value.text (beq_iff_eq.mp same)
  | _ => cases same

def capturedNamesakes : List SimObject :=
  [.module (.text "r")
    [.module (.text "a")
      [.port (.text "x") (.text "sc_out") (.text "output") (.text "j"),
        .module (.text "b")
          [.port (.text "x") (.text "sc_out") (.text "output") (.text "i")]],
      .module (.text "c")
        [.port (.text "y") (.text "sc_in") (.text "input") (.text "i")]]]

theorem names_clash_across_bindings_only_for_namesakes :
    SimObject.AreTidy capturedNamesakes ∧ ∃ forest g,
      SimObject.withNames capturedNamesakes = .ok forest ∧
        (extract ⟨.text "$$$", .list []⟩ forest ()).answer = .ok g ∧
          ∃ p ∈ g.ports, ∃ q ∈ g.ports, p ≠ q ∧ (g.port p).name = (g.port q).name ∧
            ((g.port p).synthesized = true ∨ (g.port q).synthesized = true) ∧
              (g.port p).connects (g.port q) = false := by
  have apart {fs : List ObjectFacts} := @ObjectFacts.areApart_of_texts fs
  have nothing : SimObject.AreTidy [] :=
    ⟨apart [] rfl rfl (by decide), apart [] rfl rfl (by decide), List.forall_mem_nil _⟩
  have tidy : SimObject.AreTidy capturedNamesakes := by
    refine ⟨apart ["r"] rfl rfl (by decide), apart [] rfl rfl (by decide), ?_⟩
    refine List.forall_mem_singleton.mpr
      ⟨apart ["a", "c"] rfl rfl (by decide), apart [] rfl rfl (by decide), ?_⟩
    refine List.forall_mem_cons.mpr ⟨?_, List.forall_mem_singleton.mpr ?_⟩
    · refine ⟨apart ["x", "b"] rfl rfl (by decide), apart ["x"] rfl rfl (by decide), ?_⟩
      refine List.forall_mem_cons.mpr ⟨nothing, List.forall_mem_singleton.mpr ?_⟩
      exact ⟨apart ["x"] rfl rfl (by decide), apart ["x"] rfl rfl (by decide),
        List.forall_mem_singleton.mpr nothing⟩
    · exact ⟨apart ["y"] rfl rfl (by decide), apart ["y"] rfl rfl (by decide),
        List.forall_mem_singleton.mpr nothing⟩
  refine ⟨tidy, ?_⟩
  have shape : ((SimObject.withNames capturedNamesakes).toOption.bind fun forest =>
      (extract ⟨.text "$$$", .list []⟩ forest ()).answer.toOption).any (fun g =>
        (g.ports.contains ⟨0⟩ && g.ports.contains ⟨3⟩) &&
          ((g.port ⟨0⟩).name.isTheText "r.a.x" && (g.port ⟨3⟩).name.isTheText "r.a.x")) =
        true := by
    decide +kernel
  obtain ⟨forest, g, named, extracted, found⟩ := exists_of_extracts shape
  rw [Bool.and_eq_true, Bool.and_eq_true, Bool.and_eq_true, List.contains_iff_mem,
    List.contains_iff_mem] at found
  obtain ⟨⟨first, last⟩, named₀, named₃⟩ := found
  have namesakes : (g.port ⟨0⟩).name = (g.port ⟨3⟩).name :=
    (Value.eq_of_isTheText named₀).trans (Value.eq_of_isTheText named₃).symm
  obtain ⟨-, clash, -⟩ := names_clash_across_bindings_only ⟨.text "$$$", .list []⟩
    capturedNamesakes forest tidy named () extracted
  exact ⟨forest, g, named, extracted, ⟨0⟩, first, ⟨3⟩, last, by decide, namesakes,
    clash ⟨0⟩ first ⟨3⟩ last (by decide) namesakes⟩

end Schematic
