import Schematic.Text.Basic

/-!
What the program reports about its work while it runs: entries in the order they were written,
each with how serious it is and which part wrote it.
-/

namespace Schematic

inductive LogLevel where
  | debug
  | info
  | warning
  | error
  deriving DecidableEq, Repr

namespace LogLevel

def rank : LogLevel → Nat
  | debug => 10
  | info => 20
  | warning => 30
  | error => 40

def name : LogLevel → String
  | debug => "DEBUG"
  | info => "INFO"
  | warning => "WARNING"
  | error => "ERROR"

def ofName? (s : String) : Option LogLevel :=
  [debug, info, warning, error].find? fun level => level.name == s

end LogLevel

/-- The part of the program that writes an entry. -/
inductive LogSource where
  | snapshots
  | survey
  | graph
  | inference
  | rendering
  | mermaid
  | checks
  | settings
  | dumper
  deriving DecidableEq, Repr

def LogSource.channel : LogSource → String
  | snapshots => "hierarchy_graph.adapter"
  | survey => "hierarchy_graph.collector"
  | graph => "hierarchy_graph.graph_manager"
  | inference => "hierarchy_graph.inference"
  | rendering => "hierarchy_graph.render"
  | mermaid => "hierarchy_graph.visualize_mermaid"
  | checks => "hierarchy_graph.structure_validator"
  | settings => "hierarchy_graph.config"
  | dumper => "hierarchy_graph.dumper"

structure LogEntry where
  level : LogLevel
  source : LogSource
  message : Text
  deriving DecidableEq, Repr

def entriesFrom (level : LogLevel) (log : List LogEntry) : List LogEntry :=
  log.filter fun entry => decide (level.rank ≤ entry.level.rank)

end Schematic
