import Schematic.Error
import Schematic.Json.Printer

/-!
Reports of the checks on a graph: findings in the order in which they were made, the figures drawn
from them, and the two forms in which a report is shown.
-/

namespace Schematic

/-- How a check ended. A report can carry findings of other severities, which count for nothing. -/
inductive Severity where
  | pass
  | warning
  | fail
  | other (name : Value)

namespace Severity

def word : Severity → Value
  | pass => .text "PASS"
  | warning => .text "WARNING"
  | fail => .text "FAIL"
  | other name => name

def ofWord (name : Value) : Severity :=
  if name.text? = some "PASS" then pass
  else if name.text? = some "WARNING" then warning
  else if name.text? = some "FAIL" then fail
  else other name

def isPass : Severity → Bool
  | pass => true
  | _ => false

def isWarning : Severity → Bool
  | warning => true
  | _ => false

def isFail : Severity → Bool
  | fail => true
  | _ => false

end Severity

/-- One finding: which check made it, what it is about, and what was found. -/
structure Finding where
  severity : Severity
  category : Value
  subject : Value
  message : Value := .text ""
  details : Value := .mapping []

structure Report where
  timestamp : Value := .int 0
  findings : List Finding := []

namespace Report

def passes (r : Report) : List Finding := r.findings.filter fun f => f.severity.isPass

def warnings (r : Report) : List Finding := r.findings.filter fun f => f.severity.isWarning

def failures (r : Report) : List Finding := r.findings.filter fun f => f.severity.isFail

def isValid (r : Report) : Bool := r.failures.isEmpty

def summary (r : Report) : Value :=
  .mapping
    [(.text "timestamp", r.timestamp),
      (.text "overall_valid", .bool r.isValid),
      (.text "total_checks", .int r.findings.length),
      (.text "passes", .int r.passes.length),
      (.text "warnings", .int r.warnings.length),
      (.text "failures", .int r.failures.length),
      (.text "failure_details", .list (r.failures.map fun f => .mapping
        [(.text "category", f.category), (.text "subject", f.subject),
          (.text "message", f.message)]))]

def saved (r : Report) : Except Error String :=
  match (Json.ofValue r.summary).render 2 with
  | .ok s => .ok s
  | .error fault => .error (.ofJson fault)

def rule : String := String.ofList (List.replicate 72 '=')

def findingLines (mark : String) (f : Finding) : Except Error (List Text) := do
  let category ← f.category.written
  let subject ← f.subject.written
  let message ← f.message.written
  pure ["    " ++ mark ++ " [" ++ category ++ "] " ++ subject, "      " ++ message]

def printed (r : Report) : Except Error Text := do
  let count (n : Nat) (what : String) := toString n ++ " " ++ what
  let figures : List Text :=
    ["", rule, "  STRUCTURE VALIDATION REPORT", rule,
      "  Status:   " ++ (if r.isValid then "VALID" else "INVALID"),
      "  Checks:   " ++ " | ".intercalate
        [count r.findings.length "total", count r.passes.length "pass",
          count r.warnings.length "warn", count r.failures.length "fail"]]
  let failures ← r.failures.mapM (findingLines "FAIL")
  let warnings ← r.warnings.mapM (findingLines "WARN")
  let ending : List Text := [rule, ""]
  let lines := figures ++ failures.flatten ++ warnings.flatten ++ ending
  pure (Text.join (lines.map fun line => line ++ "\n"))

end Report

end Schematic
