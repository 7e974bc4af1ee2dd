import Schematic.Proofs.Reading.Json
import Schematic.Proofs.Reading.Scalars
import Schematic.Proofs.Snapshot.Grammar
import Schematic.Settings

/-! What comes of a file that snapshots or settings are read from, whatever is in it. A file that is
no text fails as such. Of the texts most that are no good are refused as malformed; what else fails
has a scalar without a value, or a part that the loader trips over. -/

namespace Schematic

structure Files.HasFile (files : Files) (name : Text) (content : FileContent) : Prop where
  named : FilePath.check name = .ok ()
  found : files.find (.ofText name) = .ok content
  regular : content.isDirectory = false

/-- The failures that say of a file that it is malformed. -/
inductive Error.IsMalformed (file : Text) : Error → Prop
  | unparsable : IsMalformed file (.unparsable file)
  | snapshot (why : SnapshotFault) : IsMalformed file (.snapshot why)
  | settings (why : SettingsFault) : IsMalformed file (.settings file why)

inductive JsonSlip (text : List Char) : Error → Prop
  | number {digits : Nat} (long : Json.HasLongNumber text digits) :
      JsonSlip text (.tooLongToRead digits)
  | kind {data : Value} (read : Json.parse documentNaN text = .ok data)
      (undirected : data.HasUndirected) : JsonSlip text .wrongType

inductive YamlSlip (text : List Char) : Error → Prop
  | scalar {fault : ScalarFault} (blame : Yaml.DocumentBlame text fault) :
      YamlSlip text (.scalar fault)
  | trips {data : Value} {e : Error} (read : Yaml.read text = .ok data) (trips : data.Trips e) :
      YamlSlip text e

inductive SettingsSlip (text : List Char) : Error → Prop
  | scalar {fault : ScalarFault} (blame : Yaml.DocumentBlame text fault) :
      SettingsSlip text (.scalar fault)
  | destination {data sectionValue : Value} (read : Yaml.read text = .ok data)
      (held : data.get? Settings.sectionKey = some sectionValue)
      (unwritable : (sectionValue.getD "file" .null).isWritable = false) :
      SettingsSlip text .tooLongToWrite

section

variable {σ : Type} {files : Files} {file name : Text} {path : FilePath} {content : FileContent}
  {text : List Char} {e : Error} {data v : Value}

theorem readText_of_hasFile (has : files.HasFile name content) :
    files.readText (.ofText name) = match content.exactText? with
      | some s => .ok (unifyNewlines s.toList)
      | none => .error .undecodable := by
  unfold Files.readText
  rw [has.found]
  cases content with
  | text s => rfl
  | bytes b =>
    dsimp only [FileContent.exactText?, readableText?]
    cases decodeUtf8? b <;> rfl
  | directory => exact nomatch has.regular

theorem snapshotText_of_hasFile (has : files.HasFile name content) :
    snapshotText files name = files.readText (.ofText name) := by
  unfold snapshotText
  dsimp only
  rw [has.named, has.found]
  dsimp only
  rw [has.regular, if_neg Bool.false_ne_true]

theorem answer_loadSnapshot (files : Files) (name : Text) (s : σ) :
    ((loadSnapshot files name).on s).answer =
      (snapshotText files name).bind (snapshotOfText (.ofText name)) := by
  simp only [loadSnapshot, Action.on, Action.bind_apply, Action.of]
  cases snapshotText files name with
  | error e => rfl
  | ok text =>
    dsimp only [Except.bind]
    cases snapshotOfText (.ofText name) text <;> rfl

theorem answer_load (there : files.existsAs name = true) (s : σ) :
    ((Settings.load files name).on s).answer =
      (files.readText (.ofText name)).bind (Settings.ofText name) := by
  simp only [Settings.load, there, Bool.not_true, Bool.false_eq_true, if_false, Action.on,
    Action.bind_apply, Action.of, Action.pure_apply]
  cases files.readText (.ofText name) with
  | error e => rfl
  | ok text =>
    dsimp only [Except.bind]
    cases Settings.ofText name text <;> rfl

theorem readYaml_error (read : readYaml file text = .error e) :
    e = .unparsable file ∨ ∃ fault, Yaml.DocumentBlame text fault ∧ e = .scalar fault := by
  unfold readYaml at read
  split at read
  · cases read
  · cases read
    exact .inl rfl
  · next fault failed =>
    cases read
    exact .inr ⟨fault, Yaml.read_blames text fault failed, rfl⟩

theorem readYaml_ok (read : readYaml file text = .ok data) : Yaml.read text = .ok data := by
  unfold readYaml at read
  split at read
  · cases read
    assumption
  · cases read
  · cases read

theorem isPlain_documentNaN : documentNaN.IsPlain := ⟨rfl, rfl⟩

theorem readJson_error (read : readJson file text = .error e) :
    e = .unparsable file ∨ ∃ n, Json.HasLongNumber text n ∧ e = .tooLongToRead n := by
  unfold readJson at read
  split at read
  · cases read
  · cases read
    exact .inl rfl
  · next n failed =>
    cases read
    exact .inr ⟨n, (Json.parse_settles isPlain_documentNaN text).2 n failed, rfl⟩

theorem readJson_ok (read : readJson file text = .ok data) :
    Json.parse documentNaN text = .ok data := by
  unfold readJson at read
  split at read
  · cases read
    assumption
  · cases read
  · cases read

/-- A JSON text holds nothing that is too long to be written, or that contains itself. -/
theorem snapshotOfText_json (json : path.ending = ".json")
    (failed : snapshotOfText path text = .error e) :
    e.reported.IsMalformed path.text ∨ JsonSlip text e.reported := by
  simp only [snapshotOfText, json, if_true] at failed
  cases read : readJson path.text text with
  | error e' =>
    rw [read] at failed
    cases failed
    rcases readJson_error read with rfl | ⟨n, long, rfl⟩
    · exact .inl .unparsable
    · exact .inr (.number long)
  | ok data =>
    rw [read] at failed
    have parsed := readJson_ok read
    have plain := (Json.parse_settles isPlain_documentNaN text).1 data parsed
    have refuses := (SimObject.ofSnapshot_settles data).2 e failed
    generalize e.reported = reported at refuses ⊢
    cases refuses with
    | malformed => exact .inl (.snapshot _)
    | trips trips =>
      right
      cases trips with
      | kind undirected => exact .kind parsed undirected
      | long unwritable => exact absurd (unwritable.symm.trans plain.written) Bool.false_ne_true
      | endless knotted => exact absurd (knotted.symm.trans plain.tree) Bool.false_ne_true

theorem snapshotOfText_yaml (yaml : path.ending ≠ ".json")
    (failed : snapshotOfText path text = .error e) :
    e.reported.IsMalformed path.text ∨ YamlSlip text e.reported := by
  simp only [snapshotOfText, yaml, if_false] at failed
  cases read : readYaml path.text text with
  | error e' =>
    rw [read] at failed
    cases failed
    rcases readYaml_error read with rfl | ⟨fault, blame, rfl⟩
    · exact .inl .unparsable
    · exact .inr (.scalar blame)
  | ok data =>
    rw [read] at failed
    have refuses := (SimObject.ofSnapshot_settles data).2 e failed
    generalize e.reported = reported at refuses ⊢
    cases refuses with
    | malformed => exact .inl (.snapshot _)
    | trips trips => exact .inr (.trips (readYaml_ok read) trips)

theorem ofSection_error (failed : Settings.ofSection file v = .error e) :
    (∃ why, e = .settings file why) ∨
      e = .tooLongToWrite ∧ (v.getD "file" .null).isWritable = false := by
  unfold Settings.ofSection at failed
  dsimp only at failed
  split at failed
  · cases failed
    exact .inl ⟨_, rfl⟩
  · split at failed
    · cases failed
      exact .inl ⟨_, rfl⟩
    · split at failed
      · cases failed
        exact .inl ⟨_, rfl⟩
      · split at failed
        · cases failed
          exact .inl ⟨_, rfl⟩
        · split at failed
          · cases failed
            exact .inl ⟨_, rfl⟩
          · cases written : (v.getD "file" .null).written with
            | ok destination =>
              rw [written] at failed
              cases failed
            | error e' =>
              rw [written] at failed
              cases failed
              unfold Value.written at written
              split at written
              · cases written
              · next unwritable =>
                cases written
                exact .inr ⟨rfl, Bool.eq_false_iff.mpr unwritable⟩

theorem ofText_error (failed : Settings.ofText file text = .error e) :
    e.reported.IsMalformed file ∨ SettingsSlip text e.reported := by
  unfold Settings.ofText at failed
  cases read : readYaml file text with
  | error e' =>
    rw [read] at failed
    cases failed
    rcases readYaml_error read with rfl | ⟨fault, blame, rfl⟩
    · exact .inl .unparsable
    · exact .inr (.scalar blame)
  | ok data =>
    cases held : data.get? Settings.sectionKey with
    | some v =>
      simp only [read, held, bind, Except.bind] at failed
      rcases ofSection_error failed with ⟨why, rfl⟩ | ⟨rfl, unwritable⟩
      · exact .inl (.settings why)
      · exact .inr (.destination (readYaml_ok read) held unwritable)
    | none =>
      simp only [read, held, bind, Except.bind] at failed
      cases failed
      exact .inl (.settings _)

end

def Error.isOfScalar : Error → Bool
  | .scalar _ => true
  | _ => false

/-- A snapshot that takes a word for a number. -/
def wordForNumber : String := "objects: [\x7bname: a, kind: !!int abc\x7d]"

/-- A directory with a file that is no text, one that ends too early, and one with a slip. -/
def strayFiles : Files where
  entries :=
    [(["m.yaml"], .bytes ⟨#[0xff]⟩), (["open.yaml"], .text "objects: ["),
      (["kind.yaml"], .text wordForNumber)]

theorem wordForNumber_fails :
    ∃ e, ((loadSnapshot strayFiles "kind.yaml").on ()).answer = .error e ∧
      e.reported.isOfScalar = true := by
  have failed : ((((loadSnapshot strayFiles "kind.yaml").on ()).answer.map fun _ =>
      false).tryCatch fun e => .ok e.reported.isOfScalar).toOption = some true := by
    decide +kernel
  cases answered : ((loadSnapshot strayFiles "kind.yaml").on ()).answer with
  | ok objects =>
    rw [answered] at failed
    cases failed
  | error e =>
    rw [answered] at failed
    exact ⟨e, rfl, Option.some.inj failed⟩

end Schematic
