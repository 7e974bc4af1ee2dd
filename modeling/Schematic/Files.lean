import Schematic.Action
import Schematic.Text.Utf8

/-!
A directory and what is below it: the files that the program reads and writes. Paths are relative
to the directory; a path leads through directories only.
-/

namespace Schematic

/-- Where a path starts: at the directory, or at the root, whose two spellings are kept apart. -/
inductive PathStart where
  | here
  | root
  | doubleRoot
  deriving DecidableEq, Repr

def PathStart.text : PathStart → Text
  | here => .empty
  | root => "/"
  | doubleRoot => "//"

/-- A path in its simplest form: without empty steps and steps that stay where they are. A step up
is kept, since it can be taken from a directory only. -/
structure FilePath where
  start : PathStart
  steps : List Text
  deriving DecidableEq, Repr

namespace FilePath

def parts (t : Text) : List Text := (t.points.splitOn (CodePoint.ofChar '/')).map Text.mk

/-- Where a written path starts. Two slashes are a start of their own, more are as one. -/
def startOf (t : Text) : PathStart :=
  match (t.points.takeWhile (· == CodePoint.ofChar '/')).length with
  | 0 => .here
  | 2 => .doubleRoot
  | _ => .root

def ofText (t : Text) : FilePath :=
  { start := startOf t
    steps := (parts t).filter fun step => !step.isEmpty && step != "." }

/-- The text of a path; the path without steps is a point. -/
def text (p : FilePath) : Text :=
  if p.start = .here ∧ p.steps = [] then "." else p.start.text ++ Text.intercalate "/" p.steps

def name (p : FilePath) : Text := p.steps.getLast?.getD .empty

/-- The ending of the last step from its last point on. A point at the start or at the end of the
name begins no ending. -/
def ending (p : FilePath) : Text :=
  let point := CodePoint.ofChar '.'
  let name := p.name.points
  let tail := (name.reverse.takeWhile (· != point)).reverse
  let before := name.length - tail.length
  if tail ≠ [] ∧ 1 < before then ⟨point :: tail⟩ else .empty

def append (p : FilePath) (step : Text) : FilePath := { p with steps := p.steps ++ [step] }

/-- Checks that the system can be asked for a path: it can be written in bytes, none of which ends
the path early. -/
def check (t : Text) : Except Error Unit :=
  if !t.isName then .error .unencodable
  else if t.holds '\x00' then .error .nulInPath
  else .ok ()

end FilePath

inductive FileContent where
  | text (s : String)
  | bytes (b : ByteArray)
  | directory

namespace FileContent

def exactText? : FileContent → Option String
  | text s => some s
  | bytes b => decodeUtf8? b
  | directory => none

def isDirectory : FileContent → Bool
  | directory => true
  | _ => false

end FileContent

/-- What the system does to a write for reasons that the files do not tell, such as rights, links or
a disk without room: it refuses to open the file, or it opens the file and breaks off, with no more
than the first bytes of the text written. -/
inductive Obstacle where
  | refusal (fault : SystemFault)
  | breach (kept : Nat) (fault : SystemFault)

/-- What is known of the files around a directory: contents with the places where they are, and what
stands in the way of a write to a path. A place is a list of steps from the directory, or from the
root when it starts with a slash. -/
structure Files where
  entries : List (List Text × FileContent) := []
  obstacle : FilePath → Option Obstacle := fun _ => none

namespace Files

def stepUp : Text := ".."

def rootPlace : List Text := ["/"]

/-- The places that are directories whatever else is known: the directory itself, those above it,
and the root. -/
def isBase (place : List Text) : Bool := place.all (· == stepUp) || place == rootPlace

def at? (f : Files) (place : List Text) : Option FileContent :=
  if isBase place then some .directory else f.entries.lookup place

/-- The place one step up. Nothing is above the root. -/
def above (place : List Text) : List Text :=
  if place == rootPlace then place
  else if isBase place then place ++ [stepUp]
  else place.dropLast

def stepFrom (place : List Text) (step : Text) : List Text :=
  if step = stepUp then above place else place ++ [step.asName]

/-- The greatest length of a step, in bytes. -/
def longestName : Nat := 255

/-- The greatest length of a path, in bytes. -/
def longestPath : Nat := 4095

def isTooLong (t : Text) : Bool := decide (longestPath < t.byteCount)

/-- The place that steps lead to from a directory. All places on the way must be directories; the
last one need not exist. -/
def walk (f : Files) (place : List Text) : List Text → Except FileFault (List Text)
  | [] => .ok place
  | step :: steps =>
    match f.at? place with
    | none => .error .missing
    | some .directory =>
      if longestName < step.byteCount then .error .nameTooLong
      else walk f (stepFrom place step) steps
    | some _ => .error .notDirectory

def base (p : FilePath) : List Text := if p.start = .here then [] else rootPlace

def follow (f : Files) (p : FilePath) : Except FileFault (List Text) := f.walk (base p) p.steps

/-- The place that a path leads to, unless it is too long to be followed. -/
def locate (f : Files) (p : FilePath) : Except FileFault (List Text) :=
  if isTooLong p.text then .error .nameTooLong else f.follow p

def contentAt (f : Files) (place : List Text) : Except FileFault FileContent :=
  match f.at? place with
  | some content => .ok content
  | none => .error .missing

def find (f : Files) (p : FilePath) : Except FileFault FileContent :=
  match f.locate p with
  | .error fault => .error fault
  | .ok place => f.contentAt place

def set (f : Files) (place : List Text) (content : FileContent) : Files :=
  { f with entries := (place, content) :: f.entries.filter fun e => e.1 != place }

def erase (f : Files) (place : List Text) : Files :=
  { f with entries := f.entries.filter fun e => e.1 != place }

/-- The tree with a text written to a path, if the file can be opened. An older text is replaced. -/
def write (f : Files) (p : FilePath) (text : String) : Except OpenFault Files :=
  match f.obstacle p with
  | some (.refusal fault) => .error (.refused fault)
  | _ =>
    match f.locate p with
    | .error fault => .error (.known fault)
    | .ok place =>
      match f.at? place with
      | some .directory => .error (.known .isDirectory)
      | _ => .ok (f.set place (.text text))

/-- The tree with a written text cut off after some bytes. -/
def cut (f : Files) (p : FilePath) (kept : Nat) : Files :=
  match f.locate p with
  | .error _ => f
  | .ok place =>
    match f.at? place with
    | some (.text s) => f.set place (.bytes (s.toUTF8.extract 0 kept))
    | _ => f

def makeDirectory (f : Files) (p : FilePath) : Except FileFault Files :=
  match f.locate p with
  | .error fault => .error fault
  | .ok place =>
    match f.at? place with
    | some _ => .error .alreadyThere
    | none => .ok (f.set place .directory)

def ensureDirectory (f : Files) (p : FilePath) : Except FileFault Files :=
  match f.find p with
  | .ok .directory => .ok f
  | _ => f.makeDirectory p

def endsStaying (written : Text) : Bool :=
  ((FilePath.parts written).filter fun step => !step.isEmpty).getLast? == some "."

/-- The tree with a new directory at a path as it was written. What ends by staying must be there,
as a directory, and is therefore refused. -/
def makeDirectoryAs (f : Files) (written : Text) : Except FileFault Files :=
  if written.isEmpty then .error .missing
  else if isTooLong written then .error .nameTooLong
  else
    match f.follow (.ofText written) with
    | .error fault => .error fault
    | .ok place =>
      match f.at? place, endsStaying written with
      | some .directory, _ => .error .alreadyThere
      | some _, false => .error .alreadyThere
      | some _, true => .error .notDirectory
      | none, true => .error .missing
      | none, false => .ok (f.set place .directory)

def remove (f : Files) (p : FilePath) : Except FileFault Files :=
  match f.locate p with
  | .error fault => .error fault
  | .ok place =>
    match f.at? place with
    | none => .error .missing
    | some .directory => .error .isDirectory
    | some _ => .ok (f.erase place)

/-- Whether a path, as it was written, leads to anything. The empty text leads nowhere, and a path
that ends in a slash or stays where it is leads to directories only. -/
def existsAs (f : Files) (written : Text) : Bool :=
  let content := (f.follow (.ofText written)).bind f.contentAt
  (FilePath.check written).isOk && !written.isEmpty && !isTooLong written &&
    match content with
    | .ok content => content.isDirectory || !(written.endsWith "/" || endsStaying written)
    | .error _ => false

def readText (f : Files) (p : FilePath) : Except Error (List Char) :=
  match f.find p with
  | .error fault => .error (.file fault)
  | .ok content =>
    match content with
    | .directory => .error (.file .isDirectory)
    | .text s => .ok (unifyNewlines s.toList)
    | .bytes b =>
      match readableText? b with
      | some cs => .ok cs
      | none => .error .undecodable

/-- All paths below the directory in ascending order; directories end in a slash. -/
def listing (f : Files) : List Text :=
  (f.entries.filterMap fun (place, content) =>
    if rootPlace.isPrefixOf place || [stepUp].isPrefixOf place then none
    else
      some (Text.intercalate "/" place ++ (if content.isDirectory then "/" else ""))).mergeSort
        Text.le

def placesFrom (place : List Text) : List Text → List (List Text)
  | [] => []
  | step :: steps =>
    let next := stepFrom place step
    next :: placesFrom next steps

def addDirectory (f : Files) (place : List Text) : Files :=
  if (f.at? place).isSome then f else f.set place .directory

/-- The tree with a content where a path leads, and with the directories on the way. -/
def settle (f : Files) (p : FilePath) (content : FileContent) : Files :=
  let places := placesFrom (base p) p.steps
  let f := places.dropLast.foldl addDirectory f
  match places.getLast? with
  | some place => if isBase place then f else f.set place content
  | none => f

/-- The files directly inside a directory with their characters, in ascending order of names. -/
def textsIn (f : Files) (place : List Text) : List (Text × String) :=
  (f.entries.filterMap fun (p, content) =>
    if p.dropLast = place then
      match p.getLast?, content.exactText? with
      | some name, some text => some (name, text)
      | _, _ => none
    else none).mergeSort fun a b => a.1.le b.1

end Files

end Schematic
