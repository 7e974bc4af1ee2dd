import Schematic.Audit.Checks
import Schematic.Dumper
import Schematic.Graph.Workspace
import Schematic.Main
import Schematic.Showcase
import Schematic.Proofs.Audit.Agreement
import Schematic.Proofs.Drawing.Document
import Schematic.Proofs.Drawing.Reference
import Schematic.Proofs.Graph.Bend
import Schematic.Proofs.PassThrough.Chain
import Schematic.Proofs.PassThrough.Schedule
import Schematic.Proofs.Recoding.Opacity
import Schematic.Proofs.Survey.Extraction
import Schematic.Proofs.Survey.Internal
import Schematic.Proofs.Survey.Refinement
import Schematic.Proofs.Workspace.Arrangement
import Schematic.Proofs.Dumper.Files
import Schematic.Proofs.Dumper.Once
import Schematic.Proofs.Drawing.Nesting
import Schematic.Proofs.Drawing.Statements
import Schematic.Proofs.Drawing.Formats
import Schematic.Proofs.Survey.Yield
import Schematic.Proofs.Snapshot.Loading
import Schematic.Proofs.Snapshot.Legible
import Schematic.Proofs.Snapshot.Dumping
import Schematic.Proofs.Graph.Wiring
import Schematic.Proofs.Audit.Caution
import Schematic.Proofs.PassThrough.Origin
import Schematic.Proofs.PassThrough.Independence
import Schematic.Proofs.Dumper.Failure
import Schematic.Proofs.Drawing.Locality
import Schematic.Proofs.Drawing.Readback
import Schematic.Proofs.Survey.Silence
import Schematic.Proofs.Drawing.FlowchartLines
import Schematic.Proofs.Reading.Files
import Schematic.Proofs.Drawing.Bounds
import Schematic.Proofs.Survey.Lookup
import Schematic.Proofs.Drawing.Interfaces
