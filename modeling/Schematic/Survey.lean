import Schematic.Graph.PassThrough
import Schematic.Snapshot.Object
import Schematic.Text.LowerCase

/-!
The survey of a captured hierarchy: one walk over its objects that builds a graph.

* A module is a component, and its children are surveyed.
* A clock is a component with one output, for the signal that it generates.
* A port belongs to the enclosing component, and so does each face of a socket. A socket hides the
  siblings that implement it.
* Bookkeeping objects are passed over; an unknown object is reported and passed over.

An object whose basename starts with the internal marker is not looked at.

The walk calls itself for each module inside a module. The nesting of modules is taken to stay below
the recursion limit of the interpreter, so no hierarchy is too deep to be surveyed.
-/

namespace Schematic

/-- What a survey is told besides the objects: the marker of internal objects, and kinds to be
passed over without a report. Neither needs to be of a type that makes sense. -/
structure SurveyOptions where
  marker : Value := .text "$$$"
  extraIgnored : Value := .list []
  deriving Inhabited

/-- What a survey goes by: the marker of internal objects, and all kinds that are passed over
without a report. -/
structure SurveyRules where
  marker : Value
  ignored : List Value
  deriving Inhabited

/-- The rules of a survey. The kinds to be passed over must be table keys in a collection. -/
def SurveyOptions.rules (o : SurveyOptions) : Except Error SurveyRules :=
  match o.extraIgnored.members? with
  | some kinds =>
    if kinds.all Value.isHashable then
      .ok { marker := o.marker, ignored := Kind.bookkeeping.map .text ++ kinds }
    else .error .wrongType
  | none => .error .wrongType

namespace SurveyRules

def isIgnored (r : SurveyRules) (kind : Value) : Except Error Bool := .ok (kind.isAmong r.ignored)

/-- Whether a text starts with one of some markers. They are tried in their order, and only texts
can be tried. -/
def startsWithAny (basename : Text) : List Value → Except Error Bool
  | [] => .ok false
  | marker :: markers =>
    match marker.text? with
    | some start => if basename.startsWith start then .ok true else startsWithAny basename markers
    | none => .error .wrongType

/-- Whether a basename marks an internal object. The marker is a text or a tuple of texts. Only a
text can be looked at; raw bytes can, but no text is a part of them. -/
def isInternal (r : SurveyRules) (basename : Value) : Except Error Bool :=
  let markers := match r.marker with
    | .tuple markers => markers
    | marker => [marker]
  match basename.text? with
  | some s => startsWithAny s markers
  | none =>
    if basename.isBytes then if markers.isEmpty then .ok false else .error .wrongType
    else .error .notText

end SurveyRules

/-- The graph of a survey, and its reports in the order in which they were made. -/
structure Survey where
  graph : Graph := {}
  warnings : List Text := []
  deriving Inhabited

namespace Survey

/-- The name of the component that stands for a forest without a single root. -/
def rootName : Text := "sc_main"

def rootType : Text := "sc_main()"

/-- The direction that an object reports: a direction as such, or its word in any case. -/
def directionOf? : Value → Option Direction
  | .direction d => some d
  | .text s => Direction.ofWord? (foldedToAscii s)
  | _ => none

def onGraph {α : Type} (act : Action Graph α) : Action Survey α :=
  .within Survey.graph (fun g s => { s with graph := g }) act

def warn (message : Text) : Action Survey Unit := do
  .change fun s => { s with warnings := s.warnings ++ [message] }
  .note .warning .survey message

def basenameText (basename : Value) : Except Error Text :=
  match basename.text? with
  | some s => .ok s
  | none => .error (if basename.isBytes then .wrongType else .notText)

/-- Whether a basename belongs to a helper object: it continues the name of one that a socket
announced. -/
def isHelper (stems : List Text) (basename : Text) : Bool :=
  stems.any fun stem => decide (stem.length < basename.length) && basename.startsWith stem

/-- The same for a basename of any type. Raw bytes cannot be compared with a shorter name. -/
def isHelperName (stems : List Text) (basename : Value) : Except Error Bool :=
  match basename with
  | .bytes content =>
    if stems.any fun stem => decide (stem.length < content.length) then .error .wrongType
    else .ok false
  | _ => (basenameText basename).map (isHelper stems)

/-- The identity that a port gets: the reported one, unless no table can hold it. -/
def identityOf (facts : ObjectFacts) : Action Survey Value :=
  if facts.identity.isHashable then pure facts.identity
  else do
    let name ← .of facts.name.written
    warn ("port " ++ name ++ " has unhashable bound identity, treated as unbound")
    pure .null

/-- Adds an object as a port of a component. Without a direction it is reported and skipped. -/
def surveyPort (current : ComponentKey) (kind : Value) (facts : ObjectFacts) :
    Action Survey Unit :=
  match directionOf? facts.direction with
  | none => do
    let name ← .of facts.name.written
    let word ← .of facts.direction.written
    warn ("port " ++ name ++ " has invalid direction '" ++ word ++ "', skipped")
  | some direction => do
    let identity ← identityOf facts
    let _ ← onGraph (Graph.addPort current
      { name := facts.name
        basename := facts.basename
        direction
        typeName := kind
        identity
        signal := facts.signal })

def surveyPorts (current : ComponentKey) (kind : Value) : List SimObject → Action Survey Unit
  | [] => pure ()
  | o :: os => do
    surveyPort current kind o.facts
    surveyPorts current kind os

def surveyClock (current : ComponentKey) (o : SimObject) : Action Survey Unit := do
  let facts := o.facts
  let key ← onGraph (Graph.addComponent facts.name facts.basename o.shownType (some current))
  let name ← .of facts.name.written
  let basename ← .of facts.basename.written
  let identity ← identityOf facts
  let _ ← onGraph (Graph.addPort key
    { name := .text (name ++ "." ++ basename)
      basename := facts.basename
      direction := .output
      typeName := facts.kind
      identity
      signal := facts.basename })

/-- Adds the faces of a socket, and answers with the names that its helper objects start with. -/
def surveySocket (current : ComponentKey) (o : SimObject) : Action Survey (List Text) := do
  let facts := o.facts
  if o.faces.isEmpty then
    let name ← .of facts.name.written
    warn ("socket without faces (" ++ name ++ ")")
  surveyPorts current facts.kind o.faces
  let basename ← .of (basenameText facts.basename)
  pure ((Kind.helperEndings facts.kind.plain).map fun ending => basename ++ ending)

def noteObject (level : Nat) (facts : ObjectFacts) : Action Survey Unit := do
  let s ← Action.state
  .note .debug .survey
    (Text.blanks (4 * level) ++ facts.name.plain ++ "(" ++
      facts.kind.plain ++ "), id=" ++ toString (s.graph.lastId + 1))

/-- Whether an object with a basename is passed over: an internal one or a helper. -/
def isHidden (rules : SurveyRules) (stems : List Text) (basename : Value) : Except Error Bool := do
  if ← rules.isInternal basename then pure true else isHelperName stems basename

mutual

/-- Surveys one object inside a component, and answers with the names that the helper objects among
its later siblings start with. -/
def surveyObject (rules : SurveyRules) (current : ComponentKey) (level : Nat) :
    SimObject → Action Survey (List Text)
  | .mk facts children faces => do
    noteObject level facts
    match ← .of (Kind.classify rules.isIgnored facts.kind) with
    | .module =>
      let key ← onGraph (Graph.addComponent facts.name facts.basename
        (facts.typeName.orElse facts.kind) (some current))
      surveySiblings rules key (level + 1) [] children
      pure []
    | .clock =>
      surveyClock current (.mk facts children faces)
      pure []
    | .port =>
      surveyPort current facts.kind facts
      pure []
    | .socket => surveySocket current (.mk facts children faces)
    | .bookkeeping => pure []
    | .unknown =>
      let kind ← .of facts.kind.written
      warn ("object not known (" ++ kind ++ ")")
      pure []

/-- Surveys siblings in their order. Internal objects and helpers are passed over. -/
def surveySiblings (rules : SurveyRules) (current : ComponentKey) (level : Nat)
    (stems : List Text) : List SimObject → Action Survey Unit
  | [] => pure ()
  | o :: os => do
    let hidden ← .of (isHidden rules stems o.facts.basename)
    if hidden then surveySiblings rules current level stems os
    else
      let more ← surveyObject rules current level o
      surveySiblings rules current level (stems ++ more) os

end

/-- The single top-level object that is the root of the graph, if there is such a one: a module
that is not internal. -/
def singleRoot? (rules : SurveyRules) : List SimObject → Except Error (Option SimObject)
  | [top] => do
    if ← Kind.isModule top.facts.kind then
      let internal ← rules.isInternal top.facts.basename
      pure (if internal then none else some top)
    else pure none
  | _ => pure none

def surveyForest (options : SurveyOptions) (objects : List SimObject) : Action Survey Unit := do
  let rules ← .of options.rules
  match ← .of (singleRoot? rules objects) with
  | some top =>
    let facts := top.facts
    .note .debug .survey (facts.name.plain ++ "(" ++ facts.kind.plain ++ ")")
    let root ← onGraph (Graph.addComponent facts.name facts.basename top.shownType none)
    surveySiblings rules root 1 [] top.children
  | none =>
    .note .debug .survey (rootName ++ " ( function " ++ rootName ++ "() )")
    let root ← onGraph
      (Graph.addComponent (.text rootName) (.text rootName) (.text rootType) none)
    surveySiblings rules root 1 [] objects
  let s ← Action.state
  .note .info .survey ("Scanned " ++ toString s.graph.size ++ " components, " ++
    toString s.graph.ports.length ++ " ports")

end Survey

def surveyOf {σ : Type} (options : SurveyOptions) (objects : List SimObject) :
    Action σ Survey := do
  let (_, s) ← Action.apart (Survey.surveyForest options objects) {}
  pure s

def extract {σ : Type} (options : SurveyOptions) (objects : List SimObject) :
    Action σ Graph := do
  let s ← surveyOf options objects
  let (_, g) ← Action.apart Graph.addPassThroughs s.graph
  pure g

end Schematic
