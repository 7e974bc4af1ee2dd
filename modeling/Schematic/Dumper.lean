import Schematic.Dump
import Schematic.Settings

/-!
A dumper writes the structure of a simulation once, when the simulation starts. A dump that could
not be written is tried again at the next start.
-/

namespace Schematic

/-- A dumper: what it is to do, and whether that is done, with the graph of its dump. -/
structure Dumper where
  filename : Text
  format : Format
  request : DumpRequest
  graph : Option Graph := none
  isDone : Bool := false

namespace Dumper

/-- The name under which a dumper stands in the hierarchy; it marks the dumper as internal. -/
def basename : String := "$$$hierarchy_dumper$$$"

/-- A dumper for a file name and a format of any type. The kinds to be passed over must be in a
collection; what they are is looked at by the dump only. -/
def of? (filename format : Value) (request : DumpRequest) : Except Error Dumper := do
  let filename ← filename.written
  let format ← Format.ofValue format
  match request.options.extraIgnored.members? with
  | some kinds =>
    let options := { request.options with extraIgnored := .list kinds }
    pure { filename, format, request := { request with options } }
  | none => .error .wrongType

def ofSettings (s : Settings) (objects : List SimObject) (arguments : List Text) : Dumper :=
  { filename := s.destination
    format := s.format
    request := { objects, title := s.title, arguments, options := s.options } }

/-- A dumper and all that it can write to. -/
structure Site where
  dumper : Dumper
  outlet : Outlet

/-- Dumps at the start of the simulation, and answers whether a document was written. Without a file
name, and after the dump is done, nothing happens. Only a failed write is not a failure here. -/
def start : Action Site Bool := do
  let s ← Action.state
  let d := s.dumper
  if d.filename.isEmpty then pure false
  else if d.isDone then
    .note .debug .dumper ("Structure already dumped to " ++ d.filename)
    pure false
  else
    let result ← .within Site.outlet (fun outlet s => { s with outlet })
      (Action.attempt (dumpAs (.path d.filename) d.format d.request))
    match result with
    | .ok g =>
      .change fun s => { s with dumper := { s.dumper with graph := some g, isDone := true } }
      pure true
    | .error (.write fault) =>
      .note .error .dumper ("Structure dump abandoned: " ++ fault.describe)
      pure false
    | .error e => .fail e

end Dumper

end Schematic
