import Schematic.Dump
import Schematic.Proofs.Dumper.Files
import Schematic.Proofs.Survey.Need

/-! What a dump delivers. Its graph and its document are worked out first, which changes nothing,
whether it fails or not. Only then the destination is written to, and nothing else. -/

namespace Schematic

namespace Action

variable {σ τ α β : Type} {act : Action σ α} {next : α → Action σ β} {s s' s'' : σ}
  {r : Except Error α} {q : Except Error β} {a : α} {e : Error}

/-- How a step ends, whatever it writes to the log: with an answer or a failure, in a state. -/
structure Runs (act : Action σ α) (s : σ) (r : Except Error α) (s' : σ) : Prop where
  answer : (act s).answer = r
  state : (act s).state = s'

/-- A step that leaves the state as it is, also when it fails. -/
def Keeps (act : Action σ α) (s : σ) : Prop := (act s).state = s

theorem Keeps.runs (keeps : act.Keeps s) (answer : (act s).answer = r) : act.Runs s r s :=
  ⟨answer, keeps⟩

namespace Runs

theorem andThen (first : act.Runs s (.ok a) s') (later : (next a).Runs s' q s'') :
    (act >>= next).Runs s q s'' := by
  have run : act s = ⟨.ok a, s', (act s).log⟩ := by rw [← first.answer, ← first.state]
  rw [← later.answer, ← later.state]
  constructor <;> rw [bind_apply_ok run]

theorem stop (first : act.Runs s (.error e) s') : (act >>= next).Runs s (.error e) s' := by
  have run : act s = ⟨.error e, s', (act s).log⟩ := by rw [← first.answer, ← first.state]
  constructor <;> rw [bind_apply_error run]

/-- A note after a step, and then an answer. -/
theorem noted {level : LogLevel} {source : LogSource} {message : α → Text} {answer : β}
    (first : act.Runs s r s') :
    (act >>= fun a => Action.note level source (message a) >>= fun _ => pure answer).Runs s
      (r.map fun _ => answer) s' := by
  cases r with
  | error e => exact first.stop
  | ok a => exact first.andThen ⟨rfl, rfl⟩

end Runs

theorem keeps_bind (first : act.Keeps s) (later : ∀ a, (next a).Keeps s) :
    (act >>= next).Keeps s := by
  cases answer : (act s).answer with
  | error e => exact (first.runs answer).stop.state
  | ok a => exact ((first.runs answer).andThen ((later a).runs rfl)).state

end Action

variable {σ : Type} {s : σ} {o o' : Outlet} {e : Error} {g : Graph} {text : Text} {f : Format}
  {request : DumpRequest} {written : Text} {fault : OpenFault}

theorem surveyOf_keeps (options : SurveyOptions) (objects : List SimObject) :
    (surveyOf options objects : Action σ Survey).Keeps s :=
  Action.keeps_bind rfl fun _ => rfl

theorem extract_keeps (options : SurveyOptions) (objects : List SimObject) :
    (extract options objects : Action σ Graph).Keeps s :=
  Action.keeps_bind (surveyOf_keeps options objects) fun _ => Action.keeps_bind rfl fun _ => rfl

theorem draw_keeps (title way : Value) (level : Int) (earlier : Mermaid.Notes) (g : Graph)
    (block : Option Block) :
    (Mermaid.draw title way level earlier g block : Action σ _).Keeps s := by
  unfold Mermaid.draw
  extract_lets finish
  have finishes (x : List Mermaid.Line × Mermaid.Notes) : (finish x : Action σ _).Keeps s :=
    Action.keeps_bind rfl fun _ => Action.keeps_bind rfl fun _ => Action.keeps_bind rfl fun _ => rfl
  cases block <;> exact Action.keeps_bind rfl finishes

theorem render_keeps (format : Format) (title : Value) (g : Graph) :
    (render format title g : Action σ Text).Keeps s := by
  refine Action.keeps_bind rfl fun _ => Action.keeps_bind ?_ fun _ => ?noted
  case noted => exact Action.keeps_bind rfl fun _ => rfl
  cases format with
  | mermaid => exact Action.keeps_bind (draw_keeps _ _ _ _ _ _) fun _ => rfl
  | _ => rfl

namespace Files

variable {files files' : Files} {p : FilePath} {content content' : String}

/-- Whether a path leads to a file that holds exactly a text. -/
def Holds (f : Files) (path : FilePath) (text : Text) : Prop :=
  ∃ content, f.find path = .ok (.text content) ∧ text = Text.ofString content

/-- The system can be asked for a path, and refuses to open it for writing. -/
def Refuses (files : Files) (p : FilePath) (fault : OpenFault) : Prop :=
  FilePath.check p.text = .ok () ∧ ∃ content, files.write p content = .error fault

/-- The system can be asked for a path, and opens it for writing. -/
def Opens (files : Files) (p : FilePath) : Prop :=
  FilePath.check p.text = .ok () ∧ ∃ content files', files.write p content = .ok files'

/-- The system opens a path for writing, and then breaks the write off. -/
def Breaks (files : Files) (p : FilePath) (kept : Nat) (fault : SystemFault) : Prop :=
  files.Opens p ∧ files.obstacle p = some (.breach kept fault)

def Takes (files : Files) (p : FilePath) : Prop :=
  files.Opens p ∧ ∀ kept fault, files.obstacle p ≠ some (.breach kept fault)

/-- Whether a path can be opened does not depend on what is to be written. -/
theorem write_error (refused : files.write p content = .error fault) :
    files.write p content' = .error fault := by
  unfold write at refused ⊢
  grind

theorem exists_write (opened : files.write p content = .ok files') (content' : String) :
    ∃ files'', files.write p content' = .ok files'' := by
  cases again : files.write p content' with
  | error fault => cases opened.symm.trans (write_error again)
  | ok files'' => exact ⟨files'', rfl⟩

/-- Between two states of the files nothing has changed but what a path leads to. -/
def SameBut (before : Files) (p : FilePath) (after : Files) : Prop :=
  ∃ place, before.locate p = .ok place ∧
    ∀ other, other ≠ place → after.at? other = before.at? other

theorem sameBut_of_write (wrote : files.write p content = .ok files') :
    files.SameBut p files' := by
  obtain ⟨place, located, -, -, elsewhere⟩ := locate_written wrote
  exact ⟨place, located, elsewhere⟩

/-- A path is unknown to the system, or refused, or opened to no good, or taken. -/
theorem path_cases (files : Files) (p : FilePath) :
    (∃ e, FilePath.check p.text = .error e) ∨ (∃ fault, files.Refuses p fault) ∨
      (∃ kept fault, files.Breaks p kept fault) ∨ files.Takes p := by
  cases named : FilePath.check p.text with
  | error e => exact .inl ⟨e, rfl⟩
  | ok _ =>
    cases wrote : files.write p "" with
    | error fault => exact .inr (.inl ⟨fault, named, "", wrote⟩)
    | ok files' =>
      have opened : files.Opens p := ⟨named, "", files', wrote⟩
      by_cases broken : ∃ kept fault, files.obstacle p = some (.breach kept fault)
      · obtain ⟨kept, fault, broken⟩ := broken
        exact .inr (.inr (.inl ⟨kept, fault, opened, broken⟩))
      · exact .inr (.inr (.inr ⟨opened, fun kept fault met => broken ⟨kept, fault, met⟩⟩))

end Files

/-- What a destination has received between two states: exactly a text, and nothing else has
changed. A file holds nothing but the text, and a stream has it behind what was in it. -/
def Destination.Received (text : Text) (before after : Outlet) : Destination → Prop
  | .path written => after.stream = before.stream ∧ after.files.Holds (.ofText written) text ∧
      before.files.SameBut (.ofText written) after.files
  | .stream => after.files = before.files ∧
      ∃ content, before.stream = .opened content ∧ after.stream = .opened (content ++ text)
  | .nowhere => False

namespace Outlet

variable {files : Files} {content : String} {d : Destination} {target : Text}

theorem write_unnamed (unnamed : FilePath.check (FilePath.ofText written).text = .error e) :
    (write (.path written) text).Runs o (.error e) o :=
  Action.Runs.stop ⟨unnamed, rfl⟩

theorem checked (named : FilePath.check (FilePath.ofText written).text = .ok ()) :
    (Action.of (FilePath.check (FilePath.ofText written).text)).Runs o (.ok ()) o :=
  ⟨named, rfl⟩

theorem write_refused (refused : o.files.Refuses (.ofText written) fault) :
    (write (.path written) text).Runs o
      (.error (.write (.path (FilePath.ofText written).text fault))) o := by
  obtain ⟨named, content, refused⟩ := refused
  have again : o.files.write (.ofText written) (text.toString?.getD "") = .error fault :=
    Files.write_error refused
  refine (checked named).andThen ?_
  constructor <;> simp [Action.bind_apply, Action.state, Action.fail, again]

/-- A write to a path that the system opens. The file is made anew, and then the text is encoded and
written. -/
theorem write_opened (text : Text) (opened : o.files.Opens (.ofText written)) :
    ∃ files, o.files.write (.ofText written) (text.toString?.getD "") = .ok files ∧
      (text.toString? = none →
        (write (.path written) text).Runs o (.error .unencodable) { o with files }) ∧
      (text.toString? ≠ none → ∀ kept fault,
        o.files.obstacle (.ofText written) = some (.breach kept fault) →
          (write (.path written) text).Runs o
            (.error (.write (.broken (FilePath.ofText written).text fault)))
            { o with files := files.cut (.ofText written) kept }) ∧
      (text.toString? ≠ none →
        (∀ kept fault, o.files.obstacle (.ofText written) ≠ some (.breach kept fault)) →
          (write (.path written) text).Runs o (.ok (FilePath.ofText written).text)
            { o with files }) := by
  obtain ⟨named, content, files', wrote⟩ := opened
  obtain ⟨files, wrote⟩ := Files.exists_write wrote (text.toString?.getD "")
  have kept := congrFun (Files.obstacle_of_write wrote) (.ofText written)
  refine ⟨files, wrote, fun unspelled => ?_, fun spelled kept fault broken => ?_,
    fun spelled free => ?_⟩
  all_goals
    refine (checked named).andThen ?_
    constructor <;>
      simp_all [Action.bind_apply, Action.state, Action.change, Action.fail]

theorem write_stream (text : Text) (o : Outlet) :
    (write .stream text).Runs o
      (match o.stream.write text with
        | .error fault => .error (.write (.stream fault))
        | .ok _ => .ok "<stream>")
      (match o.stream.write text with
        | .error _ => o
        | .ok stream => { o with stream }) := by
  simp only [write]
  cases wrote : o.stream.write text <;>
    constructor <;> simp [Action.bind_apply, Action.state, Action.change, Action.fail, wrote]

/-- What a write delivers that succeeds. -/
theorem received_of_write (wrote : (write d text o).answer = .ok target) :
    d.Received text o (write d text o).state := by
  cases d with
  | nowhere => cases wrote
  | stream =>
    have run := write_stream text o
    cases sink : o.stream with
    | opened content =>
      rw [sink] at run
      rw [run.state]
      exact ⟨rfl, content, sink, rfl⟩
    | closed =>
      rw [sink] at run
      cases run.answer.symm.trans wrote
    | refusing reason =>
      rw [sink] at run
      cases run.answer.symm.trans wrote
  | path written =>
    rcases o.files.path_cases (.ofText written) with
      ⟨e, unnamed⟩ | ⟨fault, refused⟩ | ⟨kept, fault, opened, broken⟩ | ⟨opened, free⟩
    · cases (write_unnamed unnamed).answer.symm.trans wrote
    · cases (write_refused refused).answer.symm.trans wrote
    · obtain ⟨files, -, unspelled, breaks, -⟩ := write_opened text opened
      by_cases spelled : text.toString? = none
      · cases (unspelled spelled).answer.symm.trans wrote
      · cases (breaks spelled kept fault broken).answer.symm.trans wrote
    · obtain ⟨files, changed, unspelled, -, takes⟩ := write_opened text opened
      cases spelled : text.toString? with
      | none => cases (unspelled spelled).answer.symm.trans wrote
      | some content =>
        rw [spelled] at changed
        rw [(takes (by simp [spelled]) free).state]
        exact ⟨rfl, ⟨content, Files.find_of_write changed, Text.eq_of_toString? spelled⟩,
          Files.sameBut_of_write changed⟩

end Outlet

namespace DumpRequest

/-- The title that a dump draws: its own one, or else the name of the program. -/
def shownTitle (request : DumpRequest) : Value :=
  request.title.orElse (.text (defaultTitle request.arguments))

/-- What a dump works out before it writes: the graph, surveyed and bridged, and its document. Of
all that can fail, what comes first fails. -/
def prepared (request : DumpRequest) (f : Format) (o : Outlet) : Except Error (Graph × Text) := do
  let survey ← (surveyOf request.options request.objects o).answer
  let (_, g) ← (Action.apart Graph.addPassThroughs survey.graph o).answer
  let text ← (render f request.shownTitle g o).answer
  pure (g, text)

end DumpRequest

theorem extract_answer (options : SurveyOptions) (objects : List SimObject) (s : σ) :
    (extract options objects s).answer = (surveyOf options objects s).answer.bind fun survey =>
      (Action.apart Graph.addPassThroughs survey.graph s).answer.map Prod.snd := by
  cases surveyed : (surveyOf options objects s).answer with
  | error e => exact ((surveyOf_keeps options objects).runs surveyed).stop.answer
  | ok survey =>
    refine (((surveyOf_keeps options objects).runs surveyed).andThen ⟨?_, rfl⟩).answer
    simp only [Except.bind]
    cases inferred : (Action.apart Graph.addPassThroughs survey.graph s).answer with
    | error e => exact (Action.Runs.stop ⟨inferred, rfl⟩).answer
    | ok x => exact (Action.Runs.andThen ⟨inferred, rfl⟩ ⟨rfl, rfl⟩).answer

theorem prepared_eq (request : DumpRequest) (f : Format) (o : Outlet) :
    request.prepared f o = (extract request.options request.objects o).answer.bind fun g =>
      (render f request.shownTitle g o).answer.map fun text => (g, text) := by
  rw [extract_answer, DumpRequest.prepared]
  cases (surveyOf request.options request.objects o).answer with
  | error e => rfl
  | ok survey =>
    simp only [bind, Except.bind]
    cases (Action.apart Graph.addPassThroughs survey.graph o).answer with
    | error e => rfl
    | ok x =>
      simp only [Except.map]
      cases (render f request.shownTitle x.2 o).answer <;> rfl

theorem prepared_eq_ok_iff : request.prepared f o = .ok (g, text) ↔
    (extract request.options request.objects o).answer = .ok g ∧
      (render f request.shownTitle g o).answer = .ok text := by
  rw [prepared_eq]
  cases (extract request.options request.objects o).answer with
  | error e => simp [Except.bind]
  | ok g' =>
    simp only [Except.bind, Except.ok.injEq]
    cases rendered : (render f request.shownTitle g' o).answer with
    | error e =>
      refine ⟨nofun, ?_⟩
      rintro ⟨rfl, made⟩
      cases rendered.symm.trans made
    | ok text' => grind [Except.map]

/-- A dump that fails before it writes. -/
theorem dumpAs_of_unprepared (d : Destination) (failed : request.prepared f o = .error e) :
    (dumpAs d f request).Runs o (.error e) o := by
  rw [prepared_eq] at failed
  cases extracted : (extract request.options request.objects o).answer with
  | error e' =>
    rw [extracted] at failed
    cases failed
    exact ((extract_keeps _ _).runs extracted).stop
  | ok g =>
    refine ((extract_keeps _ _).runs extracted).andThen ?_
    rw [extracted] at failed
    cases rendered : (render f request.shownTitle g o).answer with
    | error e' =>
      simp only [Except.bind, rendered] at failed
      cases failed
      exact ((render_keeps _ _ _).runs rendered).stop
    | ok text =>
      simp only [Except.bind, rendered] at failed
      cases failed

/-- A dump that gets as far as writing goes as the write goes. -/
theorem dumpAs_of_prepared {d : Destination} {r : Except Error Text}
    (ready : request.prepared f o = .ok (g, text)) (wrote : (Outlet.write d text).Runs o r o') :
    (dumpAs d f request).Runs o (r.map fun _ => g) o' := by
  obtain ⟨extracted, rendered⟩ := prepared_eq_ok_iff.mp ready
  exact ((extract_keeps _ _).runs extracted).andThen
    (((render_keeps _ _ _).runs rendered).andThen wrote.noted)

/-- A dump that succeeds has delivered the document of the graph that it answers with. -/
theorem received_of_dumpAs {d : Destination} (dumped : (dumpAs d f request o).answer = .ok g) :
    ∃ text, (extract request.options request.objects o).answer = .ok g ∧
      (render f request.shownTitle g o).answer = .ok text ∧
      d.Received text o (dumpAs d f request o).state := by
  cases ready : request.prepared f o with
  | error e => cases (dumpAs_of_unprepared d ready).answer.symm.trans dumped
  | ok x =>
    obtain ⟨g', text⟩ := x
    have run := dumpAs_of_prepared (d := d) ready ⟨rfl, rfl⟩
    cases wrote : (Outlet.write d text o).answer with
    | error e =>
      rw [wrote] at run
      cases run.answer.symm.trans dumped
    | ok target =>
      rw [wrote] at run
      cases run.answer.symm.trans dumped
      obtain ⟨extracted, rendered⟩ := prepared_eq_ok_iff.mp ready
      rw [run.state]
      exact ⟨text, extracted, rendered, Outlet.received_of_write wrote⟩

theorem dumpStructure_of_parsed {format : Value} (parsed : Format.ofValue format = .ok f)
    (d : Destination) (request : DumpRequest) (o : Outlet) :
    (dumpStructure d format request).Runs o (dumpAs d f request o).answer
      (dumpAs d f request o).state :=
  Action.Runs.andThen ⟨parsed, rfl⟩ ⟨rfl, rfl⟩

/-- All that comes before the write of a dump changes nothing: if the format, the survey, the
inference or the drawing fails, that failure comes out, and the files and the stream are as they
were. So they are if the system refuses to open the file; if it opens the file and breaks off,
nothing but that file has changed. A dump that answers with a graph has extracted it, and its
destination has received exactly the document of it, and nothing else has changed. -/
theorem dumps_deliver_all_or_nothing (d : Destination) (format : Value) (request : DumpRequest)
    (o : Outlet) :
    let prepared := (Format.ofValue format).bind fun f => request.prepared f o
    let out := (dumpStructure d format request).on o
    (∀ e, prepared = .error e → out.answer = .error e ∧ out.state = o) ∧
    (∀ written g text fault, d = .path written → prepared = .ok (g, text) →
      o.files.Refuses (.ofText written) fault →
        out.answer = .error (.write (.path (FilePath.ofText written).text fault)) ∧
          out.state = o) ∧
    (∀ written g text kept fault, d = .path written → prepared = .ok (g, text) →
      o.files.Breaks (.ofText written) kept fault → text.toString? ≠ none →
        out.answer = .error (.write (.broken (FilePath.ofText written).text fault)) ∧
          out.state.stream = o.stream ∧ o.files.SameBut (.ofText written) out.state.files) ∧
    (∀ g, out.answer = .ok g → ∃ f text, Format.ofValue format = .ok f ∧
      (extract request.options request.objects o).answer = .ok g ∧
      (render f request.shownTitle g o).answer = .ok text ∧ d.Received text o out.state) := by
  intro prepared out
  cases parsed : Format.ofValue format with
  | error e =>
    have run : (dumpStructure d format request).Runs o (.error e) o :=
      Action.Runs.stop ⟨parsed, rfl⟩
    have failed : prepared = .error e := by simp only [prepared, parsed]; rfl
    refine ⟨?_, ?_, ?_, ?_⟩
    · intro e' same
      cases failed.symm.trans same
      exact ⟨run.answer, run.state⟩
    · intro _ g text _ _ ready
      cases failed.symm.trans ready
    · intro _ g text _ _ _ ready
      cases failed.symm.trans ready
    · intro g dumped
      cases run.answer.symm.trans dumped
  | ok f =>
    have known : prepared = request.prepared f o := by simp only [prepared, parsed]; rfl
    have run := dumpStructure_of_parsed parsed d request o
    simp only [out, Action.on, run.answer, run.state, known]
    refine ⟨?_, ?_, ?_, ?_⟩
    · intro e failed
      have stopped := dumpAs_of_unprepared d failed
      exact ⟨stopped.answer, stopped.state⟩
    · rintro written g text fault rfl ready refused
      have stopped := dumpAs_of_prepared ready (Outlet.write_refused refused)
      exact ⟨stopped.answer, stopped.state⟩
    · rintro written g text kept fault rfl ready ⟨opened, broken⟩ spelled
      obtain ⟨files, wrote, -, breaks, -⟩ := Outlet.write_opened text opened
      have stopped := dumpAs_of_prepared ready (breaks spelled kept fault broken)
      rw [stopped.answer, stopped.state]
      exact ⟨rfl, rfl, Files.locate_cut wrote kept⟩
    · intro g dumped
      obtain ⟨text, delivered⟩ := received_of_dumpAs dumped
      exact ⟨f, text, rfl, delivered⟩

end Schematic
