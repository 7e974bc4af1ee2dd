import Schematic.Audit.Checks
import Schematic.Dump
import Schematic.Snapshot.Builder
import Schematic.Snapshot.File

/-!
The demonstration: a small platform, or a snapshot from a file, is surveyed, checked, and dumped in
every format. The platform has a clock that drives ports two levels down, an interrupt that only
pass-through ports make drawable, sockets with helper objects, and bookkeeping objects.
-/

namespace Schematic.Showcase

open SimObject

abbrev word (s : String) : Value := .text s

def input (basename bound : String) (signal : Value := .null) : SimObject :=
  port (word basename) (word "sc_in") (word "input") (word bound) signal

def platform : Except Error (List SimObject) := do
  let initiator ←
    socket (word "isock") (word "tlm_initiator_socket") (word "bus_fw") (word "bus_bw")
  let target ← socket (word "tsock") (word "tlm_target_socket") (word "bus_fw") (word "bus_bw")
  let cpu := module (word "cpu")
    [input "clk_i" "clk" (word "clk"), input "rst_i" "rst" (word "rst"), input "irq_i" "irq0",
      initiator, leaf (word "isock_export_0") (word "sc_export"),
      leaf (word "run") (word "sc_thread_process")] (word "vp::cpu")
  let uart := module (word "uart")
    [input "clk_i" "clk" (word "clk"),
      port (word "irq_o") (word "sc_out") (word "output") (word "irq0") (word "uart_irq"),
      leaf (word "irq_sig") (word "sc_signal")] (word "vp::uart")
  let peripherals := module (word "periph")
    [target, leaf (word "tsock_port_0") (word "sc_port"), uart,
      module (word "spare") [] (word "vp::placeholder")] (word "vp::periph_subsys")
  pure [module (word "platform")
    [clock (word "clk") (word "clk"), input "rst_i" "rst" (word "rst"), cpu, peripherals,
      module (word "$$$hierarchy_dumper$$$") []] (word "vp::platform")]

/-- What the demonstration writes to: files, and the text that it prints. -/
structure Stage where
  outlet : Outlet := {}
  printed : Text := .empty

def print (text : Text) : Action Stage Unit :=
  .change fun s => { s with printed := s.printed ++ text }

def say (line : Text) : Action Stage Unit := print (line ++ "\n")

def heading (text : Text) : Action Stage Unit := do
  say ""
  say Report.rule
  say text
  say Report.rule

def outputDirectory : FilePath := .ofText "output"

def endings : List (Format × String) :=
  [(.debugJson, "dbg.json"), (.elkJson, "elk.json"), (.d3Json, "d3.json"), (.elkText, "elkt"),
    (.mermaid, "mermaid")]

def makeOutputDirectory : Action Stage Unit := do
  let s ← Action.state
  let files ← .of (match s.outlet.files.ensureDirectory outputDirectory with
    | .ok files => .ok files
    | .error fault => .error (.file fault))
  .change fun s => { s with outlet := { s.outlet with files } }

def writeDocuments (objects : List SimObject) : List (Format × String) → Action Stage Unit
  | [] => pure ()
  | (format, ending) :: rest => do
    let name := "structure." ++ ending
    let _ ← .within Stage.outlet (fun outlet s => { s with outlet })
      (dumpAs (.path (outputDirectory.append name).text) format { objects, title := word "demo" })
    say ("       Saved: " ++ name)
    writeDocuments objects rest

def choose : Option Text → Action Stage (List SimObject)
  | some file => do
    say ""
    say ("[1/3] Loading snapshot " ++ file ++ "...")
    let s ← Action.state
    loadSnapshot s.outlet.files file
  | none => do
    say ""
    say "[1/3] Building sample platform snapshot..."
    let objects ← .of platform
    let named ← .of (withNames objects)
    pure named

def run (file : Option Text) : Action Stage Unit := do
  heading "  SIMULATION HIERARCHY GRAPH – DEMO"
  makeOutputDirectory
  let objects ← choose file
  say "[2/3] Extracting and validating structure..."
  let g ← extract {} objects
  let figures ← .of g.summary
  say ("       " ++ toString figures.components ++ " components, " ++ toString figures.ports ++
    " ports (" ++ toString figures.synthesizedPorts ++ " inferred pass-through ports)")
  let report ← Audit.validate g
  let printed ← .of report.printed
  print printed
  say "[3/3] Dumping structure documents..."
  writeDocuments objects endings
  heading "  DEMO COMPLETE"

end Schematic.Showcase
