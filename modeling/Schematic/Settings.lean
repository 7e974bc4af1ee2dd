import Schematic.Drawing.Format
import Schematic.Snapshot.File
import Schematic.Survey

/-!
The settings of a dump, as a section of a configuration file gives them.
-/

namespace Schematic

/-- Where a dump goes, in which format, under which title, and how the survey is done. -/
structure Settings where
  destination : Text
  format : Format := .elkJson
  title : Value := .null
  options : SurveyOptions := {}

namespace Settings

def sectionKey : Text := "hierarchy_dump"

/-- The kinds that a section adds to those passed over: a list of texts. -/
def ignoredKinds? (v : Value) : Option (List Value) :=
  match v.items? with
  | some items => if items.all fun item => item.text?.isSome then some items else none
  | none => none

/-- Whether a value can be the marker of internal objects: a text that is not empty. -/
def isMarker (v : Value) : Bool :=
  match v.text? with
  | some s => !s.isEmpty
  | none => false

/-- The settings in a section. A fault names the source of the section. -/
def ofSection (source : Text) (sectionValue : Value) : Except Error Settings :=
  let fault (f : SettingsFault) : Except Error Settings := .error (.settings source f)
  if sectionValue.entries?.isNone then fault .notMapping
  else
    let destination := sectionValue.getD "file" .null
    let marker := sectionValue.getD "internal_prefix" (.text "$$$")
    if !destination.isTrue then fault .destinationMissing
    else
      match ignoredKinds? (sectionValue.getD "ignored_kinds" (.list [])) with
      | none => fault .ignoredKinds
      | some kinds =>
        if !isMarker marker then fault .marker
        else
          let format := sectionValue.getD "format" (.text Format.elkJson.name)
          match Format.ofValue format with
          | .error _ => fault (.format format)
          | .ok format => do
            let destination ← destination.written
            pure
              { destination
                format
                title := sectionValue.getD "title" .null
                options := { marker, extraIgnored := .list kinds } }

def ofText (file : Text) (text : List Char) : Except Error Settings := do
  let data ← readYaml file text
  match data.get? sectionKey with
  | some v => ofSection file v
  | none => .error (.settings file .sectionMissing)

def load {σ : Type} (files : Files) (file : Text) : Action σ Settings := do
  if !files.existsAs file then .fail (.settingsMissing file)
  let text ← .of (files.readText (.ofText file))
  let settings ← .of (ofText file text)
  .note .info .settings ("Loaded dumper configuration from " ++ file ++ " (format=" ++
    settings.format.name ++ ")")
  pure settings

end Settings

end Schematic
