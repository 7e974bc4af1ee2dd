import Schematic.Files
import Schematic.Json.Reader
import Schematic.Snapshot.Loader
import Schematic.Yaml.Reader

/-!
Reading snapshots from files. The ending of the file's name tells whether it holds JSON or YAML.
-/

namespace Schematic

def readYaml (file : Text) (text : List Char) : Except Error Value :=
  match Yaml.read text with
  | .ok v => .ok v
  | .error .malformed => .error (.unparsable file)
  | .error (.scalar fault) => .error (.scalar fault)

/-- The value for not-a-number in JSON files; all of them are one object. -/
def documentNaN : Value := .nan 0

def readJson (file : Text) (text : List Char) : Except Error Value :=
  match Json.parse documentNaN text with
  | .ok v => .ok v
  | .error .malformed => .error (.unparsable file)
  | .error (.tooLong digits) => .error (.tooLongToRead digits)

def snapshotOfText (path : FilePath) (text : List Char) : Except Error (List SimObject) := do
  let read := if path.ending = ".json" then readJson else readYaml
  let data ← read path.text text
  SimObject.ofSnapshot data

def snapshotText (files : Files) (name : Text) : Except Error (List Char) :=
  let path := FilePath.ofText name
  match FilePath.check name, files.find path with
  | .error _, _ => .error (.snapshotMissing path.text)
  | .ok (), .error .nameTooLong => .error (.file .nameTooLong)
  | .ok (), .error _ => .error (.snapshotMissing path.text)
  | .ok (), .ok content =>
    if content.isDirectory then .error (.snapshotMissing path.text) else files.readText path

def loadSnapshot {σ : Type} (files : Files) (name : Text) : Action σ (List SimObject) := do
  let path := FilePath.ofText name
  let text ← .of (snapshotText files name)
  let objects ← .of (snapshotOfText path text)
  .note .info .snapshots ("Snapshot loaded from " ++ path.text ++ " (" ++
    toString objects.length ++ " top-level objects)")
  pure objects

end Schematic
