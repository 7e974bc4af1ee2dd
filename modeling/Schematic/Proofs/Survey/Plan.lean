import Schematic.Proofs.Graph.Growth
import Schematic.Proofs.Survey.Rules

/-! What a survey should make of a forest, from the objects alone: which of them it may look at, the
tree of components with their ports, and the remarks it has to make on the way. -/

namespace Schematic

namespace ObjectFacts

def kindText (facts : ObjectFacts) : Text := facts.kind.text?.getD .empty

def basenameText (facts : ObjectFacts) : Text := facts.basename.text?.getD .empty

def role (ignored : List Text) (facts : ObjectFacts) : Role :=
  match Kind.shownRole? facts.kindText with
  | some role => role
  | none => if facts.kindText ∈ Kind.bookkeeping ++ ignored then .bookkeeping else .unknown

/-- An object with a role of its own reports a text as its kind. -/
theorem isText_of_shownRole {facts : ObjectFacts} {role : Role}
    (shown : Kind.shownRole? facts.kindText = some role) : facts.kind.IsText := by
  cases text : facts.kind.text? with
  | some kind => exact ⟨kind, text⟩
  | none =>
    rw [kindText, text] at shown
    have nameless : Kind.shownRole? Text.empty = none := by decide
    cases nameless.symm.trans shown

theorem isText_of_role {facts : ObjectFacts} {ignored : List Text} {role : Role}
    (played : facts.role ignored = role) (own : role ≠ .bookkeeping ∧ role ≠ .unknown) :
    facts.kind.IsText := by
  unfold ObjectFacts.role at played
  split at played
  · next shown => exact isText_of_shownRole shown
  · split at played
    · exact absurd played.symm own.1
    · exact absurd played.symm own.2

/-- What a port is bound to: nothing, where no table can hold the reported identity. -/
def binding (facts : ObjectFacts) : Value :=
  if facts.identity.isHashable then facts.identity else .null

theorem isHashable_binding (facts : ObjectFacts) : facts.binding.isHashable = true := by
  unfold binding
  split
  · next key => exact key
  · rfl

def port? (facts : ObjectFacts) (kind : Value) : Option Graph.PortFacts :=
  (Survey.directionOf? facts.direction).map fun direction =>
    { name := facts.name
      basename := facts.basename
      direction
      typeName := kind
      identity := facts.binding
      signal := facts.signal.orElse .null }

def clockPort (facts : ObjectFacts) : Graph.PortFacts :=
  { name := .text (facts.name.plain ++ "." ++ facts.basename.plain)
    basename := facts.basename
    direction := .output
    typeName := facts.kind
    identity := facts.binding
    signal := facts.basename.orElse .null }

end ObjectFacts

/-- What a survey has to report, with the values that the report is about. -/
inductive Remark where
  | unknownKind (kind : Value)
  | noFaces (name : Value)
  | noDirection (name direction : Value)
  | unboundable (name : Value)

namespace Remark

def text : Remark → Text
  | unknownKind kind => "object not known (" ++ kind.plain ++ ")"
  | noFaces name => "socket without faces (" ++ name.plain ++ ")"
  | noDirection name direction =>
    "port " ++ name.plain ++ " has invalid direction '" ++ direction.plain ++ "', skipped"
  | unboundable name =>
    "port " ++ name.plain ++ " has unhashable bound identity, treated as unbound"

def isWritable : Remark → Bool
  | unknownKind kind => kind.isWritable
  | noFaces name => name.isWritable
  | noDirection name direction => name.isWritable && direction.isWritable
  | unboundable name => name.isWritable

end Remark

namespace ObjectFacts

def bindingRemarks (facts : ObjectFacts) : List Remark :=
  if facts.identity.isHashable then [] else [.unboundable facts.name]

def portRemarks (facts : ObjectFacts) : List Remark :=
  match Survey.directionOf? facts.direction with
  | some _ => facts.bindingRemarks
  | none => [.noDirection facts.name facts.direction]

end ObjectFacts

namespace SimObject

def stems (o : SimObject) : List Text :=
  (Kind.helperEndings o.facts.kindText).map fun ending => o.facts.basenameText ++ ending

/-- Whether an object implements a socket: its name goes on where the name of the socket with one of
its endings stops. A name that ends there is one of its own. -/
def hides (socket o : SimObject) : Bool :=
  socket.stems.any fun stem =>
    o.facts.basenameText.startsWith stem && o.facts.basenameText != stem

mutual

def visible (marker : Text) : SimObject → SimObject
  | mk facts children faces => mk facts (visibleAmong marker [] children) faces

/-- What a survey may look at among siblings, of which it has seen some: all but the internal ones
and those that implement a socket which it has seen. -/
def visibleAmong (marker : Text) (seen : List SimObject) : List SimObject → List SimObject
  | [] => []
  | o :: os =>
    if o.facts.isMarked marker || seen.any fun s => s.hides o then visibleAmong marker seen os
    else visible marker o :: visibleAmong marker (seen ++ [o]) os

end

variable (ignored : List Text)

def portsMade (o : SimObject) : List Graph.PortFacts :=
  match o.facts.role ignored with
  | .port => (o.facts.port? o.facts.kind).toList
  | .socket => o.faces.filterMap fun face => face.facts.port? o.facts.kind
  | _ => []

def remarks (o : SimObject) : List Remark :=
  match o.facts.role ignored with
  | .clock => o.facts.bindingRemarks
  | .port => o.facts.portRemarks
  | .socket => (if o.faces.isEmpty then [.noFaces o.facts.name] else []) ++
      o.faces.flatMap fun face => face.facts.portRemarks
  | .unknown => [.unknownKind o.facts.kind]
  | _ => []

def isTellable (o : SimObject) : Bool :=
  (o.remarks ignored).all Remark.isWritable &&
    (o.facts.role ignored != .clock || o.facts.name.isWritable)

def isUnit (o : SimObject) : Bool :=
  o.facts.role ignored == .module || o.facts.role ignored == .clock

def label (o : SimObject) : Label := ⟨o.facts.name, o.facts.basename, o.shownType⟩

/-- The component that an object makes, with its ports. A module has those that the objects inside
it make, a clock its output. -/
def entry (o : SimObject) : Label × List Graph.PortFacts :=
  match o.facts.role ignored with
  | .module => (o.label, o.children.flatMap (portsMade ignored))
  | _ => (o.label, [o.facts.clockPort])

mutual

/-- The components that an object makes, with all inside them: modules and clocks make one each. -/
def units : SimObject → List Sketch
  | mk facts children faces =>
    match facts.role ignored with
    | .module =>
      [.unit (mk facts children faces).label (children.flatMap (portsMade ignored))
        (unitsAmong children)]
    | .clock => [.unit (mk facts children faces).label [facts.clockPort] []]
    | _ => []

def unitsAmong : List SimObject → List Sketch
  | [] => []
  | o :: os => units o ++ unitsAmong os

end

mutual

/-- An object and those inside it that a walk visits after it. Only modules are descended into. -/
def visits : SimObject → List SimObject
  | mk facts children faces =>
    mk facts children faces ::
      match facts.role ignored with
      | .module => visitsAmong children
      | _ => []

def visitsAmong : List SimObject → List SimObject
  | [] => []
  | o :: os => visits o ++ visitsAmong os

end

def rootOf (marker : Text) (objects : List SimObject) : SimObject :=
  match objects with
  | [top] =>
    if Kind.modules.contains top.facts.kindText && !top.facts.isMarked marker then top
    else standIn [top]
  | _ => standIn objects

def inside (marker : Text) (objects : List SimObject) : List SimObject :=
  visibleAmong marker [] (rootOf marker objects).children

def visited (marker : Text) (objects : List SimObject) : List SimObject :=
  visitsAmong ignored (inside marker objects)

/-- The tree that a survey should make of a forest. -/
def plan (marker : Text) (objects : List SimObject) : Sketch :=
  .unit (rootOf marker objects).label ((inside marker objects).flatMap (portsMade ignored))
    (unitsAmong ignored (inside marker objects))

def rootEntry (marker : Text) (objects : List SimObject) : Label × List Graph.PortFacts :=
  ((rootOf marker objects).label, (inside marker objects).flatMap (portsMade ignored))

variable {ignored}

mutual

theorem entries_units : ∀ o : SimObject, Sketch.entriesAmong (units ignored o) =
    ((visits ignored o).filter (isUnit ignored)).map (entry ignored)
  | mk facts children faces => by
    rw [units, visits, List.filter_cons, isUnit, SimObject.facts]
    cases role : facts.role ignored with
    | module =>
      simp [Sketch.entriesAmong, Sketch.entries, entries_unitsAmong children, entry,
        SimObject.facts, SimObject.children, role]
    | clock => simp [Sketch.entriesAmong, Sketch.entries, entry, SimObject.facts, role]
    | _ => simp [Sketch.entriesAmong]

theorem entries_unitsAmong : ∀ os : List SimObject,
    Sketch.entriesAmong (unitsAmong ignored os) =
      ((visitsAmong ignored os).filter (isUnit ignored)).map (entry ignored)
  | [] => rfl
  | o :: os => by
    rw [unitsAmong, Sketch.entriesAmong_append, entries_units o, entries_unitsAmong os, visitsAmong,
      List.filter_append, List.map_append]

end

/-- The components of the plan, each before those inside it: the root, and then all visited modules
and clocks in their order. -/
theorem entries_plan (marker : Text) (objects : List SimObject) :
    (plan ignored marker objects).entries = rootEntry ignored marker objects ::
      ((visited ignored marker objects).filter (isUnit ignored)).map (entry ignored) := by
  rw [plan, Sketch.entries, entries_unitsAmong, visited, rootEntry]

end SimObject

end Schematic
