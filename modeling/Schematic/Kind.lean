import Schematic.Error

/-!
The kinds of simulation objects, and what the survey of a hierarchy does with each.
-/

namespace Schematic

/-- What becomes of an object: a module is a component that is descended into, a clock a component
with one output, a port or a socket belongs to the enclosing component, bookkeeping objects are
passed over, and an unknown kind is reported. -/
inductive Role where
  | module
  | clock
  | port
  | socket
  | bookkeeping
  | unknown
  deriving DecidableEq, Repr

def Role.label : Role → String
  | module => "composite"
  | clock => "implicit_port_leaf"
  | port => "port_leaf"
  | socket => "composite_port_pair"
  | bookkeeping => "ignored"
  | unknown => "unknown"

namespace Kind

def modules : List Text :=
  ["sc_module", "uvm::uvm_root", "uvm::uvm_test", "uvm::uvm_env", "uvm::uvm_component",
    "uvm::uvm_agent", "uvm::uvm_monitor", "uvm::uvm_scoreboard", "uvm::uvm_driver",
    "uvm::uvm_sequencer"]

def clock : Text := "sc_clock"

def ports : List Text :=
  ["sc_in", "sc_out", "sc_inout", "sc_port", "sc_fifo_in", "sc_fifo_out", "sc_export",
    "tlm_analysis_port"]

def inputPorts : List Text := ["sc_in", "sc_fifo_in", "sc_export"]

/-- The kinds of sockets, each with the endings that its helper objects add to its name. -/
def sockets : List (Text × List Text) :=
  [("tlm_target_socket", ["_port", "_port_0"]),
    ("tlm_initiator_socket", ["_export", "_export_0"]),
    ("multi_passthrough_target_socket", ["_port", "_port_0"]),
    ("multi_passthrough_initiator_socket", ["_export", "_export_0"])]

def bookkeeping : List Text :=
  ["sc_thread_process", "sc_method_process", "sc_signal", "sc_object", "sc_fifo", "sc_mutex",
    "sc_vector", "sc_semaphore_ordered", "sc_variable", "sc_prim_channel", "tlm_signal",
    "tlm_fifo", "sc_register", "sc_buffer"]

def helperEndings (kind : Text) : List Text := (sockets.lookup kind).getD []

def shownRole? (kind : Text) : Option Role :=
  if modules.contains kind then some .module
  else if kind = clock then some .clock
  else if sockets.any fun entry => entry.1 == kind then some .socket
  else if ports.contains kind then some .port
  else none

/-- The role of an object by the value that it reports as its kind. Only a text is the name of a
kind; a value that no table can be asked for is an error. The kinds to be passed over are asked for
last, so naming a kind among them changes the role of unknown kinds only. -/
def classify (isIgnored : Value → Except Error Bool) (kind : Value) : Except Error Role :=
  if kind.isHashable then
    match kind.text?.bind shownRole? with
    | some role => .ok role
    | none => (isIgnored kind).map fun ignored => if ignored then .bookkeeping else .unknown
  else .error .wrongType

def usualBookkeeping : Value := .list (bookkeeping.map .text)

/-- Whether an object is a module. A set is no kind, and asking is no error. -/
def isModule (kind : Value) : Except Error Bool :=
  match kind.text? with
  | some s => .ok (modules.contains s)
  | none => if kind.isHashable || kind.isSet then .ok false else .error .wrongType

end Kind

end Schematic
