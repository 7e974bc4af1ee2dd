import Schematic.Json.Basic
import Schematic.Value.Equality

/-!
Everything that can go wrong, by its cause, and the wording of each.
-/

namespace Schematic

/-- A fault as the system tells of it. -/
structure SystemFault where
  number : Nat
  words : String
  deriving DecidableEq, Repr

def SystemFault.describe (fault : SystemFault) : String :=
  "[Errno " ++ toString fault.number ++ "] " ++ fault.words

/-- Why a file could not be opened, or a directory not be made. -/
inductive FileFault where
  | missing
  | alreadyThere
  | notDirectory
  | isDirectory
  | nameTooLong
  deriving DecidableEq, Repr

namespace FileFault

def cause : FileFault → SystemFault
  | missing => ⟨2, "No such file or directory"⟩
  | alreadyThere => ⟨17, "File exists"⟩
  | notDirectory => ⟨20, "Not a directory"⟩
  | isDirectory => ⟨21, "Is a directory"⟩
  | nameTooLong => ⟨36, "File name too long"⟩

def describe (fault : FileFault) (path : Text) : Text :=
  fault.cause.describe ++ ": " ++ path.inQuotes

end FileFault

/-- Why a file could not be opened for writing: for a reason that the files tell, or for another one
of the system, which reports it as it likes. -/
inductive OpenFault where
  | known (fault : FileFault)
  | refused (fault : SystemFault)
  deriving DecidableEq, Repr

def OpenFault.cause : OpenFault → SystemFault
  | known fault => fault.cause
  | refused fault => fault

/-- Why a stream did not take a text. -/
inductive StreamFault where
  | closed
  | refused (reason : String)
  deriving DecidableEq, Repr

def StreamFault.describe : StreamFault → String
  | closed => "I/O operation on closed file"
  | refused reason => reason

/-- What a document was to be written to, and why that failed. -/
inductive WriteFault where
  | path (path : Text) (fault : OpenFault)
  /-- The file was opened, and the write to it broke off. -/
  | broken (path : Text) (fault : SystemFault)
  | stream (fault : StreamFault)
  deriving DecidableEq, Repr

/-- What is wrong with the section that configures a dumper. -/
inductive SettingsFault where
  | sectionMissing
  | notMapping
  | destinationMissing
  | ignoredKinds
  | marker
  | format (value : Value)

/-- What is wrong with a captured hierarchy. -/
inductive SnapshotFault where
  | noObjects
  | entry (found : Value)
  | list (key : String) (owner found : Value)
  | face (owner found : Value)

/-- What is wrong with a scalar of a file. -/
inductive ScalarFault where
  | digits (base : Nat) (word : Text)
  | tooLong (count : Nat)
  | decimal (word : Text)
  | tooManyGroups
  | truthWord (word : Text)
  | noDigits
  | calendar (fault : CalendarFault)
  | notMoment
  | momentExpected
  /-- An escape names a code beyond the last one, or even beyond all words of the machine. -/
  | codePoint (isHuge : Bool)
  | endless

inductive Error where
  | snapshot (fault : SnapshotFault)
  /-- The section of a configuration that comes from `source` is wrong. -/
  | settings (source : Text) (fault : SettingsFault)
  | unparsable (file : Text)
  /-- A scalar of a file has no value of the type that it claims. -/
  | scalar (fault : ScalarFault)
  | snapshotMissing (file : Text)
  | settingsMissing (file : Text)
  | undecodable
  /-- A file could not be opened for reading, or a directory not be made. -/
  | file (fault : FileFault)
  | nulInPath
  | unencodable
  | tooLongToRead (digits : Nat)
  | tooLongToWrite
  | circular
  | endless
  | write (fault : WriteFault)
  | unknownFormat (name : Value)
  | unknownDirection (name : Value)
  | emptyGraph
  | secondRoot (present added : Value)
  | foreignParent (name : Value)
  | foreignOwner (name : Value)
  | noComponent (id : Value)
  | noPort (id : Value)
  | noComponentNamed (name : Value)
  | unregistered (id : Value)
  | notContained
  | noLink
  | notListed
  | searchOutside
  | unreachable
  | wrongType
  | notText

def tooLongText : String :=
  "Exceeds the limit (4300 digits) for integer string conversion; " ++
    "use sys.set_int_max_str_digits() to increase the limit"

def tooLongToReadText (digits : Nat) : String :=
  "Exceeds the limit (4300 digits) for integer string conversion: value has " ++
    toString digits ++ " digits; use sys.set_int_max_str_digits() to increase the limit"

def unknownFormatText (value : Value) : Text :=
  "Unknown dump format '" ++ value.plain ++
    "' (expected one of: dbgjson, elkjson, d3json, elkt, mermaid)"

namespace SettingsFault

/-- The words for a fault of a section that comes from `source`. -/
def describe (source : Text) : SettingsFault → Text
  | sectionMissing => structureOf ++ "Missing required 'hierarchy_dump' key."
  | notMapping => structureOf ++ "Expected a mapping under 'hierarchy_dump'."
  | destinationMissing => structureOf ++ "Missing required 'hierarchy_dump.file' key."
  | ignoredKinds => plainly ++ "'hierarchy_dump.ignored_kinds' must be a list of strings."
  | marker => plainly ++ "'hierarchy_dump.internal_prefix' must be a non-empty string."
  | format value =>
    plainly ++ (if value.isWritable then unknownFormatText value else tooLongText)
where
  structureOf : Text := "Invalid configuration structure in " ++ source ++ ".\n"
  plainly : Text := "Invalid configuration in " ++ source ++ ": "

end SettingsFault

namespace SnapshotFault

def describe : SnapshotFault → Text
  | noObjects => "Snapshot must be a mapping with an 'objects' list."
  | entry found => "Snapshot object needs 'name' and 'kind': " ++ found.quoted
  | list key owner found =>
    "'" ++ key ++ "' of '" ++ owner.plain ++ "' must be a list, got " ++ found.typeName
  | face owner found =>
    "Socket face of '" ++ owner.plain ++ "' must be a mapping: " ++ found.quoted

def isWritable : SnapshotFault → Bool
  | noObjects => true
  | entry found => found.isWritable
  | list _ owner _ => owner.isWritable
  | face owner found => owner.isWritable && found.isWritable

end SnapshotFault

namespace ScalarFault

/-- The words for a fault of a scalar. The text of a whole number is shown up to a length. -/
def describe : ScalarFault → Text
  | digits base word =>
    "invalid literal for int() with base " ++ toString base ++ ": " ++
      String.ofList (word.inQuotes.toList.take 200)
  | tooLong count => tooLongToReadText count
  | decimal word => "could not convert string to float: " ++ word.inQuotes
  | tooManyGroups => "int too large to convert to float"
  | truthWord word => word
  | noDigits => "string index out of range"
  | calendar fault => fault.describe
  | notMoment => "no day and no moment"
  | momentExpected => "a day or moment was expected"
  | codePoint _ => "chr() arg not in range(0x110000)"
  | endless => "a text that contains itself"

end ScalarFault

namespace WriteFault

def describe : WriteFault → Text
  | .path target why =>
    "Cannot write structure to " ++ target ++ ": " ++ why.cause.describe ++ ": " ++ target.inQuotes
  | .broken target why => "Cannot write structure to " ++ target ++ ": " ++ why.describe
  | .stream why => "Cannot write structure to stream: " ++ why.describe

end WriteFault

namespace Error

def ofJson : JsonFault → Error
  | .noForm => .wrongType
  | .circular => .circular
  | .tooLong => .tooLongToWrite

def isWritable : Error → Bool
  | .snapshot why => why.isWritable
  | .unknownFormat name => name.isWritable
  | .unknownDirection name => name.isWritable
  | .secondRoot present added => present.isWritable && added.isWritable
  | .foreignParent name => name.isWritable
  | .foreignOwner name => name.isWritable
  | .noComponent id => id.isWritable
  | .noPort id => id.isWritable
  | .noComponentNamed name => name.isWritable
  | .unregistered id => id.isWritable
  | _ => true

/-- The failure that is reported in the end: where the words for a failure cannot be written, that
is what failed. -/
def reported (e : Error) : Error := if e.isWritable then e else .tooLongToWrite

def message : Error → Text
  | .snapshot why => why.describe
  | .settings source why => why.describe source
  | .unparsable name => "Cannot parse " ++ name
  | .scalar why => why.describe
  | .snapshotMissing name => "Snapshot file not found: " ++ name
  | .settingsMissing name => "Configuration file not found: " ++ name
  | .undecodable => "invalid UTF-8"
  | .file why => why.describe .empty
  | .nulInPath => "embedded null byte"
  | .unencodable => "surrogates not allowed"
  | .tooLongToRead digits => tooLongToReadText digits
  | .tooLongToWrite => tooLongText
  | .circular => "Circular reference detected"
  | .endless => "a hierarchy that contains itself"
  | .write why => why.describe
  | .unknownFormat name => unknownFormatText name
  | .unknownDirection name => name.quoted ++ " is not a valid Direction"
  | .emptyGraph => "Hierarchy graph is empty – no root component."
  | .secondRoot present added =>
    "Graph already has a root '" ++ present.plain ++ "'; cannot add '" ++ added.plain ++ "'."
  | .foreignParent name => "Parent component '" ++ name.plain ++ "' is not part of this graph."
  | .foreignOwner name => "Owner component '" ++ name.plain ++ "' is not part of this graph."
  | .noComponent id => "Component '" ++ id.plain ++ "' not found."
  | .noPort id => "Port '" ++ id.plain ++ "' not found."
  | .noComponentNamed name => "Component '" ++ name.plain ++ "' not found."
  | .unregistered id => id.plain
  | .notContained => "not part of the containment relation"
  | .noLink => "no such link"
  | .notListed => "list.remove(x): x not in list"
  | .searchOutside => "the end of the search is not part of the containment relation"
  | .unreachable => "no chain of containment"
  | .wrongType => "a value of this type cannot be used here"
  | .notText => "a text was expected"

end Error

namespace Value

def written (v : Value) : Except Error Text :=
  if v.isWritable then .ok v.plain else .error .tooLongToWrite

/-- Whether a container holds a value. Only containers can be asked, and not for everything. -/
def contains (container v : Value) : Except Error Bool :=
  match container.holds? v with
  | some found => .ok found
  | none => .error .wrongType

@[simp] theorem written_text (s : Text) : (Value.text s).written = .ok s := by simp [written]

end Value

end Schematic
