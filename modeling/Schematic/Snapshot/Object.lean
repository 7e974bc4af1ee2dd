import Schematic.Error
import Schematic.Kind

/-!
Objects of a simulation as they were captured, and the names that a hierarchy gives them.
-/

namespace Schematic

structure ObjectFacts where
  basename : Value
  kind : Value
  typeName : Value := .text .empty
  name : Value := .text .empty
  direction : Value := .null
  identity : Value := .null
  signal : Value := .null
  deriving Inhabited

/-- An object with the objects inside it. The faces of a socket are the ports that it consists
of. -/
inductive SimObject where
  | mk (facts : ObjectFacts) (children faces : List SimObject)
  deriving Inhabited

namespace SimObject

def facts : SimObject → ObjectFacts
  | mk facts _ _ => facts

def children : SimObject → List SimObject
  | mk _ children _ => children

def faces : SimObject → List SimObject
  | mk _ _ faces => faces

/-- The type that an object is shown with: its kind when it reports no type. -/
def shownType (o : SimObject) : Value := o.facts.typeName.orElse o.facts.kind

def ofFacts (facts : ObjectFacts) : SimObject := mk facts [] []

/-- The qualified name of what is called `basename` inside an object with a qualified name. At the
top a basename qualifies itself. -/
def qualify (enclosing basename : Value) : Value :=
  if enclosing.isTrue then .text (enclosing.plain ++ "." ++ basename.plain) else basename

def nameFacts (enclosing : Value) (facts : ObjectFacts) : ObjectFacts :=
  if facts.name.isTrue then facts
  else { facts with name := qualify enclosing facts.basename }

def nameSelf (enclosing : Value) : SimObject → SimObject
  | mk facts children faces => mk (nameFacts enclosing facts) children faces

mutual

/-- The object and all inside it named. The faces of a socket are named like its siblings. -/
def named (enclosing : Value) : SimObject → SimObject
  | mk facts children faces =>
    let facts := nameFacts enclosing facts
    mk facts (namedAll facts.name children) (faces.map (nameSelf enclosing))

def namedAll (enclosing : Value) : List SimObject → List SimObject
  | [] => []
  | o :: os => named enclosing o :: namedAll enclosing os

end

def nameForest (objects : List SimObject) : List SimObject := namedAll (.text .empty) objects

/-- Whether an object can be named inside an object with a qualified name: where its name is put
together, both parts can be written. -/
def isNameable (enclosing : Value) (facts : ObjectFacts) : Bool :=
  facts.name.isTrue || !enclosing.isTrue || (enclosing.isWritable && facts.basename.isWritable)

mutual

def canName (enclosing : Value) : SimObject → Bool
  | mk facts children faces =>
    isNameable enclosing facts && (faces.all fun face => isNameable enclosing face.facts) &&
      canNameAll (nameFacts enclosing facts).name children

def canNameAll (enclosing : Value) : List SimObject → Bool
  | [] => true
  | o :: os => canName enclosing o && canNameAll enclosing os

end

def withNames (objects : List SimObject) : Except Error (List SimObject) :=
  if canNameAll (.text .empty) objects then .ok (nameForest objects) else .error .tooLongToWrite

end SimObject

end Schematic
