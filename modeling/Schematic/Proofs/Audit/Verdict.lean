import Schematic.Proofs.Audit.Coverage
import Schematic.Proofs.Survey.Need

/-! The verdict on a graph. The tree and the identifiers always pass; whatever fails is a driver and
a receiver with a component between them that lacks a port, so nothing fails on a graph that
inference has closed. Only one thing can keep the verdict from being given, a warning that cannot be
written. -/

namespace Schematic.Audit

def IsCover (g : Graph) (d r : PortKey) (f : Finding) : Prop :=
  f.severity = .pass ∧ f.category = .text "path_coverage" ∧
    f.subject = .text ((g.port d).name.plain ++ " -> " ++ (g.port r).name.plain)

/-- A report that passes a graph: nothing failed, and all that was to be looked at was. -/
structure Approves (g : Graph) (report : Report) : Prop where
  failures : report.failures = []
  tree : ∃ f ∈ report.findings, f.severity = .pass ∧ f.category = .text "tree"
  ids : ∃ f ∈ report.findings, f.severity = .pass ∧ f.category = .text "ids"
  covered : ∀ d r, g.Joins d r → ∃ f ∈ report.findings, IsCover g d r f

structure Judges (g : Graph) (report : Report) : Prop where
  failures : report.failures =
    (g.endPairs.map fun x => verdict g x.1 x.2).filter fun f => f.severity.isFail
  tree : ∃ f ∈ report.findings, f.severity = .pass ∧ f.category = .text "tree"
  ids : ∃ f ∈ report.findings, f.severity = .pass ∧ f.category = .text "ids"
  verdicts : ∀ x ∈ g.endPairs, verdict g x.1 x.2 ∈ report.findings

/-- Whether all names can be written that a report on a graph may have to write. -/
structure CanReport (g : Graph) : Prop where
  names : g.HasPortNames
  lacking : ∀ d r, g.Joins d r → CanName g d r

variable {g : Graph} {bs : List Binding} {d r : PortKey} {root : ComponentKey} {σ : Type}

theorem checkBinding_error {binding : Binding} (lone : g.IsOneSided binding)
    (long : binding.identity.isWritable = false) :
    checkBinding g binding = .error .tooLongToWrite := by
  have warning : oneSided g binding = .error .tooLongToWrite := by
    rw [oneSided]
    exact (if_pos lone).trans (if_neg (by simp [long]))
  simp [checkBinding, warning, bind, Except.bind]

theorem pairs_joined (hg : g.Sound) (sorted : g.IsSorted g.boundPorts bs) {b : Binding}
    (hb : b ∈ bs) (hpair : (d, r) ∈ b.pairs g) :
    g.Joins d r ∧ b.identity.meaning = g.bond r := by
  have keys := hg.ordinary.hashable hg.coherent
  have joins := (sorted.mem_pairs keys).mp (List.mem_flatMap.mpr ⟨b, hb, hpair⟩)
  obtain ⟨-, hr, -⟩ := Graph.mem_bindingPairs.mp hpair
  have known := (sorted.mem_ports hb fun q hq => keys q (List.mem_filter.mp hq).1).mp hr
  exact ⟨joins, known.2⟩

theorem bindings_checked (hg : g.Sound) (able : CanReport g) (sorted : g.IsSorted g.boundPorts bs)
    {b : Binding} (hb : b ∈ bs) (writable : g.IsOneSided b → b.identity.isWritable = true) :
    checkBinding g b = .ok (cautions g b ++ (b.pairs g).map fun x => verdict g x.1 x.2) :=
  checkBinding_eq hg.coherent hg.ordinary able.names able.lacking (sorted.hashable b hb)
    (fun _ _ hpair => pairs_joined hg sorted hb hpair) writable

theorem isWarning_verdict (g : Graph) (d r : PortKey) :
    (verdict g d r).severity.isWarning = false := by
  rw [verdict]
  split <;> rfl

theorem isWarning_caution {b : Binding} {f : Finding} (hf : f ∈ cautions g b) :
    f.severity.isWarning = true := by
  rw [cautions] at hf
  split at hf
  · rw [List.mem_singleton.mp hf]
    rfl
  · cases hf

/-- What is found on some bindings, for each of them the warning that it deserves and then the
verdicts on its drivers and receivers. -/
def coverage (g : Graph) (bs : List Binding) : List Finding :=
  bs.flatMap fun b => cautions g b ++ (b.pairs g).map fun x => verdict g x.1 x.2

theorem filter_coverage (bs : List Binding) :
    ((coverage g bs).filter fun f => !f.severity.isWarning) =
      (bs.flatMap fun b => b.pairs g).map fun x => verdict g x.1 x.2 := by
  have each (b : Binding) : ((cautions g b ++ (b.pairs g).map fun x => verdict g x.1 x.2).filter
      fun f => !f.severity.isWarning) = (b.pairs g).map fun x => verdict g x.1 x.2 := by
    have silent : ((cautions g b).filter fun f => !f.severity.isWarning) = [] :=
      List.filter_eq_nil_iff.mpr fun f hf => by simp [isWarning_caution hf]
    have kept : (((b.pairs g).map fun x => verdict g x.1 x.2).filter
        fun f => !f.severity.isWarning) = (b.pairs g).map fun x => verdict g x.1 x.2 :=
      List.filter_eq_self.mpr (List.forall_mem_map.mpr fun x _ => by simp [isWarning_verdict])
    rw [List.filter_append, silent, kept, List.nil_append]
  simp only [coverage, List.filter_flatMap, each, List.map_flatMap]

theorem filter_coverage_warning (bs : List Binding) :
    ((coverage g bs).filter fun f => f.severity.isWarning) = bs.flatMap (cautions g) := by
  have each (b : Binding) : ((cautions g b ++ (b.pairs g).map fun x => verdict g x.1 x.2).filter
      fun f => f.severity.isWarning) = cautions g b := by
    have kept : ((cautions g b).filter fun f => f.severity.isWarning) = cautions g b :=
      List.filter_eq_self.mpr fun f hf => isWarning_caution hf
    have silent : (((b.pairs g).map fun x => verdict g x.1 x.2).filter
        fun f => f.severity.isWarning) = [] :=
      List.filter_eq_nil_iff.mpr (List.forall_mem_map.mpr fun x _ => by simp [isWarning_verdict])
    rw [List.filter_append, kept, silent, List.append_nil]
  simp only [coverage, List.filter_flatMap, each]

theorem checkCoverage_eq (hg : g.Sound) (able : CanReport g) (warn : g.CanWarn)
    (made : g.bindings = .ok bs) (sorted : g.IsSorted g.boundPorts bs) :
    checkCoverage g = .ok (coverage g bs) := by
  have each : bs.mapM (checkBinding g) =
      .ok (bs.map fun b => cautions g b ++ (b.pairs g).map fun x => verdict g x.1 x.2) :=
    mapM_eq_ok fun b hb => bindings_checked hg able sorted hb (warn bs made b hb)
  simp [checkCoverage, made, each, coverage, List.flatMap_def, bind, Except.bind, pure, Except.pure]

theorem checkCoverage_error (hg : g.Sound) (able : CanReport g) (mute : ¬ g.CanWarn) :
    checkCoverage g = .error .tooLongToWrite := by
  obtain ⟨bs, made, -, sorted⟩ := Graph.exists_bindings hg.coherent hg.ordinary
  have failed : bs.mapM (checkBinding g) = .error .tooLongToWrite := by
    refine mapM_eq_error (fun b hb => ?_) ?_
    · by_cases writable : g.IsOneSided b → b.identity.isWritable = true
      · exact .inl ⟨_, bindings_checked hg able sorted hb writable⟩
      · obtain ⟨lone, long⟩ := Classical.not_imp.mp writable
        exact .inr (checkBinding_error lone (Bool.eq_false_iff.mpr long))
    · by_contra none
      refine mute fun bs' made' b hb lone => ?_
      cases made.symm.trans made'
      by_contra long
      exact none ⟨b, hb, checkBinding_error lone (Bool.eq_false_iff.mpr long)⟩
  simp [checkCoverage, made, failed, bind, Except.bind]

theorem exists_findings (hg : g.Sound) (rooted : g.register.root = some root) (able : CanReport g)
    (warn : g.CanWarn) : ∃ bs fs, g.bindings = .ok bs ∧ findings g = .ok fs ∧
      Judges g { findings := fs } ∧
      ({ findings := fs } : Report).warnings = bs.flatMap (cautions g) := by
  obtain ⟨bs, made, pairs, sorted⟩ := Graph.exists_bindings hg.coherent hg.ordinary
  have listed := filter_coverage (g := g) bs
  rw [← pairs] at listed
  obtain ⟨t, tree, hts, htc⟩ : ∃ t, checkTree g = .ok [t] ∧ t.severity = .pass ∧
      t.category = .text "tree" := ⟨_, checkTree_eq hg.coherent rooted, rfl, rfl⟩
  obtain ⟨i, ids, his, hic⟩ : ∃ i, checkIds g = .ok [i] ∧ i.severity = .pass ∧
      i.category = .text "ids" := ⟨_, checkIds_eq hg.coherent rooted, rfl, rfl⟩
  have found : findings g = .ok (t :: i :: coverage g bs) := by
    simp [findings, tree, ids, checkCoverage_eq hg able warn made sorted,
      checkWires_eq hg.coherent, bind, Except.bind, pure, Except.pure]
  refine ⟨bs, _, made, found, ⟨?_, ⟨t, List.mem_cons_self, hts, htc⟩, ⟨i, ?_, his, hic⟩,
    fun x hx => ?_⟩, ?_⟩
  · have serious : (fun f : Finding => f.severity.isFail) =
        fun f => f.severity.isFail && !f.severity.isWarning := by
      funext f
      cases f.severity <;> rfl
    rw [← listed, List.filter_filter, ← serious]
    simp [Report.failures, hts, his, Severity.isFail]
  · exact List.mem_cons_of_mem _ List.mem_cons_self
  · have member := List.mem_map_of_mem (f := fun x => verdict g x.1 x.2) hx
    rw [← listed] at member
    exact List.mem_cons_of_mem _ (List.mem_cons_of_mem _ (List.mem_filter.mp member).1)
  · have mild : Severity.pass.isWarning = false := rfl
    simp [Report.warnings, hts, his, mild, filter_coverage_warning]

theorem findings_error (hg : g.Sound) (rooted : g.register.root = some root) (able : CanReport g)
    (mute : ¬ g.CanWarn) : findings g = .error .tooLongToWrite := by
  simp [findings, checkTree_eq hg.coherent rooted, checkIds_eq hg.coherent rooted,
    checkCoverage_error hg able mute, bind, Except.bind]

theorem answer_validate (g : Graph) (s : σ) :
    (validate g s).answer = (findings g).map fun fs => { findings := fs } := by
  cases h : findings g <;> simp [validate, Action.bind_apply, Action.of, h, Action.note, Except.map]

/-- The validator reports what it finds, unless a warning cannot be written. -/
theorem needs_validate_of {post : Report → Prop} (hg : g.Sound)
    (rooted : g.register.root = some root) (able : CanReport g) (s : σ)
    (finds : g.CanWarn → ∃ fs, findings g = .ok fs ∧ post { findings := fs }) :
    (validate g).Needs s g.CanWarn fun report _ => post report where
  answers := fun warn => by
    obtain ⟨fs, found, holds⟩ := finds warn
    exact ⟨_, by rw [answer_validate, found]; rfl, holds⟩
  fails := fun mute => by
    rw [answer_validate, findings_error hg rooted able mute]
    rfl

/-- The validator judges a graph by its drivers and receivers. -/
theorem needs_validate (hg : g.Sound) (rooted : g.register.root = some root) (able : CanReport g)
    (s : σ) : (validate g).Needs s g.CanWarn fun report _ => Judges g report :=
  needs_validate_of hg rooted able s fun warn => by
    obtain ⟨-, fs, -, found, judges, -⟩ := exists_findings hg rooted able warn
    exact ⟨fs, found, judges⟩

/-- The validator warns of the bindings that have no driver or no receiver, in their order. -/
theorem needs_validate_warnings (hg : g.Sound) (rooted : g.register.root = some root)
    (able : CanReport g) (s : σ) : (validate g).Needs s g.CanWarn fun report _ =>
      ∃ bs, g.bindings = .ok bs ∧ report.warnings = bs.flatMap (cautions g) :=
  needs_validate_of hg rooted able s fun warn => by
    obtain ⟨bs, fs, made, found, -, warnings⟩ := exists_findings hg rooted able warn
    exact ⟨fs, found, bs, made, warnings⟩

theorem lacking_eq_nil (hg : g.Sound) (closed : g.IsClosed) (joins : g.Joins d r) :
    lacking g d r = [] := by
  obtain ⟨a, b, links⟩ := joins.exists_links hg.coherent
  refine List.eq_nil_iff_forall_not_mem.mpr fun c hc => ?_
  obtain ⟨crosses, absent⟩ := (mem_lacking hg.coherent links).mp hc
  have owns := Graph.carriers_owns.mp (closed _ links.bound c (links.crossed hg.coherent crosses))
  have proper := hg.ordinary.identified b links.goal r links.receives
  have bound : (g.port r).identity.isNull = false := by
    rw [← Bool.not_eq_true, Value.isNull_iff proper.1]
    exact links.bound
  exact (Graph.portFor_eq_none_iff hg.ordinary.identified owns.1 proper bound).mp absent owns.2

theorem Judges.approves {report : Report} (judges : Judges g report) (hg : g.Sound)
    (closed : g.IsClosed) : Approves g report := by
  have fine {d r : PortKey} (joins : g.Joins d r) : verdict g d r = cover g d r := by
    rw [verdict, lacking_eq_nil hg closed joins]
    rfl
  refine ⟨?_, judges.tree, judges.ids, fun d r joins => ?_⟩
  · rw [judges.failures]
    refine List.filter_eq_nil_iff.mpr (List.forall_mem_map.mpr fun x hx => ?_)
    rw [fine ((Graph.mem_endPairs hg.coherent hg.ordinary).mp hx)]
    simp [cover, Severity.isFail]
  · have found := judges.verdicts (d, r) ((Graph.mem_endPairs hg.coherent hg.ordinary).mpr joins)
    rw [fine joins] at found
    exact ⟨_, found, rfl, rfl, rfl⟩

/-- The validator passes a graph that inference has closed, unless a warning cannot be written. -/
theorem needs_validate_closed (hg : g.Sound) (rooted : g.register.root = some root)
    (names : g.HasPortNames) (closed : g.IsClosed) (s : σ) :
    (validate g).Needs s g.CanWarn fun report _ => Approves g report := by
  have able : CanReport g := ⟨names, fun d r joins k hk => by
    rw [lacking_eq_nil hg closed joins] at hk
    cases hk⟩
  exact (needs_validate hg rooted able s).weaken fun _ _ judges => judges.approves hg closed

end Schematic.Audit
