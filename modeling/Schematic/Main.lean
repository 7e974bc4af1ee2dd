import Schematic.Showcase

/-!
The command line: runs the demonstration, on the snapshot file that is named as the first argument
if there is one. Documents go to the directory `output`.
-/

namespace Schematic.CommandLine

def shown (t : Text) : String := (t.toString?).getD t.inQuotes

/-- The file that is named, if it can be read, as all that the demonstration sees. -/
def visibleFiles (name : String) : IO Files := do
  try
    let bytes ← IO.FS.readBinFile name
    pure (Files.settle {} (.ofText name) (.bytes bytes))
  catch _ => pure {}

def writeOut (files : Files) : IO Unit := do
  IO.FS.createDirAll (shown Showcase.outputDirectory.text)
  for (name, text) in files.textsIn Showcase.outputDirectory.steps do
    IO.FS.writeFile (shown (Showcase.outputDirectory.append name).text) text

end Schematic.CommandLine

open Schematic CommandLine in
def main (arguments : List String) : IO UInt32 := do
  let file := arguments.head?
  let files ← match file with
    | some name => visibleFiles name
    | none => pure {}
  let outcome := Showcase.run (file.map Text.ofString) { outlet := { files } }
  for entry in entriesFrom .warning outcome.log do
    IO.eprintln (entry.level.name ++ " | " ++ shown entry.message)
  IO.print (shown outcome.state.printed)
  writeOut outcome.state.outlet.files
  match outcome.answer with
  | .ok () => pure 0
  | .error e =>
    IO.eprintln (shown e.reported.message)
    pure 1
