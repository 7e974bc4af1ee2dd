import Schematic.Yaml.Layout
import Schematic.Yaml.Tag

/-!
The nodes that the tokens of a document stand for. An alias is the very node that it names, so nodes
form a graph: a node can be in several collections, and a collection can contain itself.

Collections may stand inside one another to any depth. Their nesting is taken to stay below the
recursion limit of the interpreter, which would give up on a deeper document.
-/

namespace Schematic.Yaml

abbrev NodeId := Nat

inductive NodeContent where
  | scalar (content : Text)
  | sequence (items : List NodeId)
  | mapping (pairs : List (NodeId × NodeId))
  deriving Inhabited

structure Node where
  tag : Tag
  content : NodeContent
  deriving Inhabited

structure NodeGraph where
  nodes : Array Node := #[]
  deriving Inhabited

namespace NodeGraph

def node (g : NodeGraph) (id : NodeId) : Node := g.nodes.getD id default

def push (g : NodeGraph) (n : Node) : NodeId × NodeGraph := (g.nodes.size, ⟨g.nodes.push n⟩)

def setContent (g : NodeGraph) (id : NodeId) (content : NodeContent) : NodeGraph :=
  ⟨g.nodes.modify id fun n => { n with content }⟩

def setTag (g : NodeGraph) (id : NodeId) (tag : Tag) : NodeGraph :=
  ⟨g.nodes.modify id fun n => { n with tag }⟩

end NodeGraph

namespace Node

/-- What is left of the tokens, the nodes so far, and the names of some of them. -/
structure Source where
  run : TokenRun
  graph : NodeGraph := {}
  names : List (String × NodeId) := []

abbrev Parse := StateT Source Reading

/-- The next token, which is not taken. Behind the last one the end of the text repeats. -/
def peek : Parse Token := do
  let s ← get
  match s.run.tokens, s.run.fault with
  | t :: _, _ => pure t
  | [], some fault => throw fault
  | [], none => pure .streamEnd

def advance : Parse Unit :=
  modify fun s => { s with run := { s.run with tokens := s.run.tokens.tail } }

def sees (ts : List Token) : Parse Bool := do
  let t ← peek
  pure (ts.contains t)

def make (n : Node) : Parse NodeId := do
  let s ← get
  let (id, graph) := s.graph.push n
  set { s with graph }
  pure id

def fill (id : NodeId) (content : NodeContent) : Parse Unit :=
  modify fun s => { s with graph := s.graph.setContent id content }

def name (anchor : Option String) (id : NodeId) : Parse Unit :=
  match anchor with
  | some a => modify fun s => { s with names := (a, id) :: s.names }
  | none => pure ()

def empty : Parse NodeId := make { tag := .null, content := .scalar .empty }

/-- The anchor and the tag before a node, in either order. -/
structure Properties where
  anchor : Option String := none
  tag : Option (Option String × String) := none

def properties : Parse Properties := do
  match ← peek with
  | .anchor a =>
    advance
    match ← peek with
    | .tag handle suffix =>
      advance
      pure ⟨some a, some (handle, suffix)⟩
    | _ => pure ⟨some a, none⟩
  | .tag handle suffix =>
    advance
    match ← peek with
    | .anchor a =>
      advance
      pure ⟨some a, some (handle, suffix)⟩
    | _ => pure ⟨none, some (handle, suffix)⟩
  | _ => pure {}

/-- The written-out tag; its handle must be declared. -/
def fullTag (handles : List (String × String)) (p : Properties) : Reading (Option String) :=
  match p.tag with
  | none => .ok none
  | some (none, text) => .ok (some text)
  | some (some handle, suffix) =>
    match handles.lookup handle with
    | some start => .ok (some (start ++ suffix))
    | none => malformed

/-- The tag of a collection. The bare mark is no tag. -/
def collectionTag (usual : Tag) (tag : Option String) : Tag :=
  match tag with
  | none => usual
  | some "!" => usual
  | some name => .ofName name

/-- The tag of a scalar: the one that is written, or what a plain scalar looks like. The bare mark
asks for the looks of any scalar. -/
def scalarTag (tag : Option String) (content : Text) (isPlain : Bool) : Tag :=
  match tag with
  | some "!" => .ofPlain content
  | some name => .ofName name
  | none => if isPlain then .ofPlain content else .text

def checkName (anchor : Option String) : Parse Unit := do
  let s ← get
  if anchor.any fun a => (s.names.lookup a).isSome then malformed

def scalar (p : Properties) (tag : Tag) (content : Text) : Parse NodeId := do
  let id ← make { tag, content := .scalar content }
  name p.anchor id
  pure id

def collection (p : Properties) (tag : Tag) (content : Parse NodeContent) : Parse NodeId := do
  let id ← make { tag, content := .sequence [] }
  name p.anchor id
  fill id (← content)
  pure id

/-- Where a node stands: among flow collections, in a block, or as the value of a block mapping,
where the dashes of a sequence need no indentation. -/
inductive Place where
  | flow
  | block
  | mappingValue
  deriving DecidableEq

mutual

def parse (handles : List (String × String)) (place : Place) : Nat → Parse NodeId
  | 0 => malformed
  | fuel + 1 => do
    match ← peek with
    | .reference name =>
      match (← get).names.lookup name with
      | some id =>
        advance
        pure id
      | none => malformed
    | _ =>
      let p ← properties
      let tag ← fullTag handles p
      let next ← peek
      checkName p.anchor
      let sequence (items : Parse (List NodeId)) : Parse NodeId :=
        collection p (collectionTag .sequence tag) do pure (.sequence (← items))
      let mapping (pairs : Parse (List (NodeId × NodeId))) : Parse NodeId :=
        collection p (collectionTag .mapping tag) do pure (.mapping (← pairs))
      match next, place with
      | .blockEntry, .mappingValue => sequence (dashes handles fuel)
      | .scalar content isPlain, _ =>
        advance
        scalar p (scalarTag tag content isPlain) content
      | .flowSequenceStart, _ => sequence do advance; flowItems handles true fuel
      | .flowMappingStart, _ => mapping do advance; flowPairs handles true fuel
      | .blockSequenceStart, .block => sequence do advance; blockItems handles fuel
      | .blockSequenceStart, .mappingValue => sequence do advance; blockItems handles fuel
      | .blockMappingStart, .block => mapping do advance; blockPairs handles fuel
      | .blockMappingStart, .mappingValue => mapping do advance; blockPairs handles fuel
      | _, _ =>
        if p.anchor.isSome || tag.isSome then scalar p (scalarTag tag .empty true) .empty
        else malformed

/-- A node, or the empty one before a token that a node cannot start with. -/
def parseUnless (handles : List (String × String)) (place : Place) (ends : List Token) :
    Nat → Parse NodeId
  | 0 => malformed
  | fuel + 1 => do if ← sees ends then empty else parse handles place fuel

/-- A value behind its mark, or the empty node where there is no mark. -/
def valueUnless (handles : List (String × String)) (place : Place) (ends : List Token) :
    Nat → Parse NodeId
  | 0 => malformed
  | fuel + 1 => do
    if ← sees [.value] then
      advance
      parseUnless handles place ends fuel
    else empty

def blockItems (handles : List (String × String)) : Nat → Parse (List NodeId)
  | 0 => malformed
  | fuel + 1 => do
    match ← peek with
    | .blockEntry =>
      advance
      let item ← parseUnless handles .block [.blockEntry, .blockEnd] fuel
      let items ← blockItems handles fuel
      pure (item :: items)
    | .blockEnd =>
      advance
      pure []
    | _ => malformed

/-- The items of a sequence that is not indented, up to the first token that is no dash. -/
def dashes (handles : List (String × String)) : Nat → Parse (List NodeId)
  | 0 => malformed
  | fuel + 1 => do
    match ← peek with
    | .blockEntry =>
      advance
      let item ← parseUnless handles .block [.blockEntry, .key, .value, .blockEnd] fuel
      let items ← dashes handles fuel
      pure (item :: items)
    | _ => pure []

def blockPairs (handles : List (String × String)) : Nat → Parse (List (NodeId × NodeId))
  | 0 => malformed
  | fuel + 1 => do
    let ends : List Token := [.key, .value, .blockEnd]
    match ← peek with
    | .key =>
      advance
      let key ← parseUnless handles .mappingValue ends fuel
      let value ← valueUnless handles .mappingValue ends fuel
      let pairs ← blockPairs handles fuel
      pure ((key, value) :: pairs)
    | .blockEnd =>
      advance
      pure []
    | _ => malformed

/-- The items of a flow sequence up to its bracket. A pair among them is a mapping of its own. -/
def flowItems (handles : List (String × String)) (isFirst : Bool) : Nat → Parse (List NodeId)
  | 0 => malformed
  | fuel + 1 => do
    match ← peek with
    | .flowSequenceEnd =>
      advance
      pure []
    | start =>
      if !isFirst then
        if start = .flowEntry then advance else malformed
      match ← peek with
      | .key =>
        let item ← collection {} .mapping do
          advance
          let key ← parseUnless handles .flow [.value, .flowEntry, .flowSequenceEnd] fuel
          let value ← valueUnless handles .flow [.flowEntry, .flowSequenceEnd] fuel
          pure (.mapping [(key, value)])
        let items ← flowItems handles false fuel
        pure (item :: items)
      | .flowSequenceEnd =>
        advance
        pure []
      | _ =>
        let item ← parse handles .flow fuel
        let items ← flowItems handles false fuel
        pure (item :: items)

/-- The pairs of a flow mapping up to its brace. A key without a colon has an empty value. -/
def flowPairs (handles : List (String × String)) (isFirst : Bool) :
    Nat → Parse (List (NodeId × NodeId))
  | 0 => malformed
  | fuel + 1 => do
    match ← peek with
    | .flowMappingEnd =>
      advance
      pure []
    | start =>
      if !isFirst then
        if start = .flowEntry then advance else malformed
      match ← peek with
      | .key =>
        advance
        let key ← parseUnless handles .flow [.value, .flowEntry, .flowMappingEnd] fuel
        let value ← valueUnless handles .flow [.flowEntry, .flowMappingEnd] fuel
        let pairs ← flowPairs handles false fuel
        pure ((key, value) :: pairs)
      | .flowMappingEnd =>
        advance
        pure []
      | _ =>
        let key ← parse handles .flow fuel
        let value ← empty
        let pairs ← flowPairs handles false fuel
        pure ((key, value) :: pairs)

end

def usualHandles : List (String × String) := [("!", "!"), ("!!", "tag:yaml.org,2002:")]

/-- The handles that the directives at the front declare. The version may be given once and must be
1, and a handle may be declared once. -/
def directives (hasVersion : Bool) (handles : List (String × String)) :
    Nat → Parse (List (String × String))
  | 0 => malformed
  | fuel + 1 => do
    match ← peek with
    | .directive d =>
      advance
      match d with
      | .version major =>
        if hasVersion ∨ major ≠ 1 then malformed else directives true handles fuel
      | .tag handle expansion =>
        if (handles.lookup handle).isSome then malformed
        else directives hasVersion (handles ++ [(handle, expansion)]) fuel
      | .other => directives hasVersion handles fuel
    | _ => pure (handles ++ usualHandles)

def skipEnds : Nat → Parse Unit
  | 0 => pure ()
  | fuel + 1 => do
    if ← sees [.documentEnd] then
      advance
      skipEnds fuel

def finish (fuel : Nat) : Parse Unit := do
  skipEnds fuel
  if !(← sees [.streamEnd]) then
    let _ ← directives false [] fuel
    malformed

/-- The content of a document that is announced by a line of dashes, behind its directives. -/
def announced (fuel : Nat) : Parse NodeId := do
  let handles ← directives false [] fuel
  if ← sees [.documentStart] then
    advance
    match ← peek with
    | .directive _ => empty
    | .documentStart => empty
    | .documentEnd => empty
    | .streamEnd => empty
    | _ => parse handles .block fuel
  else malformed

def document (fuel : Nat) : Parse (Option NodeId) := do
  let root ← match ← peek with
    | .streamEnd => pure none
    | .directive _ => some <$> announced fuel
    | .documentStart => some <$> announced fuel
    | _ => some <$> parse usualHandles .block fuel
  finish fuel
  pure root

def ofText (text : List Char) : Reading (Option NodeId × NodeGraph) := do
  let run := tokensOf text
  let (root, s) ← (document (4 * run.tokens.length + 4)).run { run }
  pure (root, s.graph)

end Node

end Schematic.Yaml
