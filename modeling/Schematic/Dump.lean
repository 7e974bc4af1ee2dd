import Schematic.Drawing.Render
import Schematic.Files
import Schematic.Survey

/-!
Dumping a structure: survey, inference, drawing and writing in one step. The document is complete
before its destination is touched.
-/

namespace Schematic

/-- A stream that documents can be written to. -/
inductive Stream where
  | opened (content : Text)
  | closed
  | refusing (reason : String)
  deriving DecidableEq, Repr

def Stream.write (text : Text) : Stream → Except StreamFault Stream
  | opened content => .ok (.opened (content ++ text))
  | closed => .error .closed
  | refusing reason => .error (.refused reason)

/-- Where a document goes. What is neither a path nor a stream takes no document. -/
inductive Destination where
  | path (written : Text)
  | stream
  | nowhere
  deriving DecidableEq, Repr

/-- All that a dump can write to. -/
structure Outlet where
  files : Files := {}
  stream : Stream := .closed

namespace Outlet

/-- Writes a text to a path, and answers with the path. A text that cannot be encoded leaves an
empty file, and a write that breaks off the beginning of the text. -/
def writeFile (path : FilePath) (text : Text) : Action Outlet Text := do
  .of (FilePath.check path.text)
  let o ← Action.state
  match o.files.write path (text.toString?.getD "") with
  | .ok files =>
    .change fun o => { o with files }
    if text.toString?.isNone then .fail .unencodable
    match files.obstacle path with
    | some (.breach kept fault) =>
      .change fun o => { o with files := o.files.cut path kept }
      .fail (.write (.broken path.text fault))
    | _ => pure path.text
  | .error fault => .fail (.write (.path path.text fault))

/-- Writes a text to a destination, and answers with the name under which the log knows it. -/
def write (d : Destination) (text : Text) : Action Outlet Text := do
  match d with
  | .path written => writeFile (.ofText written) text
  | .stream =>
    let o ← Action.state
    match o.stream.write text with
    | .ok stream =>
      .change fun o => { o with stream }
      pure "<stream>"
    | .error fault => .fail (.write (.stream fault))
  | .nowhere => .fail .notText

end Outlet

/-- The title of a document when none is given: the name of the program that runs, which is the
last step of its path. -/
def defaultTitle (arguments : List Text) : Text :=
  match arguments with
  | program :: _ => if program.isEmpty then "sc_main" else (FilePath.ofText program).name
  | [] => "sc_main"

/-- What is to be dumped, and how. -/
structure DumpRequest where
  objects : List SimObject
  title : Value := .null
  arguments : List Text := []
  options : SurveyOptions := {}

/-- Writes the document of a named forest to a destination, and answers with its graph. -/
def dumpAs (d : Destination) (format : Format) (request : DumpRequest) : Action Outlet Graph := do
  let g ← extract request.options request.objects
  let text ← render format (request.title.orElse (.text (defaultTitle request.arguments))) g
  let target ← Outlet.write d text
  .note .info .dumper ("Simulation structure dumped to " ++ target ++ " (" ++ format.name ++ ", " ++
    toString g.size ++ " components)")
  pure g

def dumpStructure (d : Destination) (format : Value) (request : DumpRequest) :
    Action Outlet Graph := do
  let f ← .of (Format.ofValue format)
  dumpAs d f request

end Schematic
