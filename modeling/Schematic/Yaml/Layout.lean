import Schematic.Yaml.Token

/-!
The token list of a YAML text. Indentation opens and closes block collections, and a colon can make
a key of what stands before it on the same line: such a possible key is remembered until the colon
comes or can no longer come.

A text is read no further than the document needs. Where the reading ends at a fault, the tokens
before it count, up to the first that may still turn out to start a key.
-/

namespace Schematic.Yaml

/-- A place where a key may have started: the number of tokens before it, how much text is left
there, and where it stands. It is required when the line cannot mean anything else. -/
structure PossibleKey where
  token : Nat
  required : Bool
  left : Nat
  line : Nat
  column : Nat

/-- What has been read, and what the rest of the text is read under. Tokens stand with the last one
first, and possible keys with the number of flow collections around them. -/
structure Layout where
  cursor : Cursor
  depth : Nat := 0
  indent : Int := -1
  outer : List Int := []
  keyAllowed : Bool := true
  keys : List (Nat × PossibleKey) := []
  tokens : List Token := []
  count : Nat := 0

/-- The tokens of a text that are certain, and the fault behind them. Without a fault they end with
the end of the text. -/
structure TokenRun where
  tokens : List Token
  fault : Option ReadFault := none

namespace Layout

def inFlow (l : Layout) : Bool := l.depth != 0

def push (l : Layout) (t : Token) : Layout :=
  { l with tokens := t :: l.tokens, count := l.count + 1 }

def insert (l : Layout) (place : Nat) (t : Token) : Layout :=
  { l with tokens := l.tokens.insertIdx (l.count - place) t, count := l.count + 1 }

def pushMark (l : Layout) (t : Token) (width : Nat) : Layout :=
  { l.push t with cursor := l.cursor.forward width }

def longestKey : Nat := 1024

def isFresh (l : Layout) (k : PossibleKey) : Bool :=
  k.line == l.cursor.line && decide (k.left - l.cursor.left ≤ longestKey)

/-- Forgets the keys that can no longer get a colon; a required one must not be among them. -/
def dropStaleKeys (l : Layout) : Reading Layout :=
  let (fresh, stale) := l.keys.partition fun (_, k) => l.isFresh k
  if stale.any fun (_, k) => k.required then malformed else .ok { l with keys := fresh }

/-- Forgets the possible key of the collection at hand; it must not be required. -/
def dropKey (l : Layout) : Reading Layout :=
  match l.keys.lookup l.depth with
  | none => .ok l
  | some k =>
    if k.required then malformed
    else .ok { l with keys := l.keys.filter fun (depth, _) => depth != l.depth }

def saveKey (l : Layout) : Reading Layout :=
  if l.keyAllowed then do
    let l ← l.dropKey
    let key : PossibleKey :=
      { token := l.count
        required := !l.inFlow && l.indent == l.cursor.column
        left := l.cursor.left
        line := l.cursor.line
        column := l.cursor.column }
    pure { l with keys := (l.depth, key) :: l.keys }
  else .ok l

def unwindTo (column : Int) : List Int → Layout → Layout
  | [], l => l
  | outer :: rest, l =>
    if column < l.indent then
      unwindTo column rest { l.push .blockEnd with indent := outer, outer := rest }
    else l

/-- Closes the block collections that end before a column; inside flow collections columns do not
count. -/
def unwind (column : Int) (l : Layout) : Layout :=
  if l.inFlow then l else unwindTo column l.outer l

/-- Opens a block collection at a column, unless one is open there. The token that starts it goes
before the tokens from a place on. -/
def openBlock (l : Layout) (column : Nat) (place : Nat) (start : Token) : Layout :=
  if l.indent < column then
    { l.insert place start with outer := l.indent :: l.outer, indent := column }
  else l

/-- Behind blanks, comments and line ends. Outside of flow collections a new line can start a
key. -/
def skipToToken : Nat → Layout → Layout
  | 0, l => l
  | fuel + 1, l =>
    let c := l.cursor.skipWhile (· == ' ')
    let c := if c.sees '#' then c.skipLine else c
    if c.peek.any isBreak then
      skipToToken fuel
        { l with cursor := c.lineBreak.2, keyAllowed := l.keyAllowed || !l.inFlow }
    else { l with cursor := c }

def start (text : List Char) : Layout :=
  let c := Cursor.start text
  { cursor := if c.sees '\ufeff' then c.next else c }

/-- A token that takes part in a possible key: an anchor, an alias, a tag or a scalar. -/
def pushNode (l : Layout) (read : Cursor → Reading (Token × Cursor)) : Reading Layout := do
  let l ← l.saveKey
  let (t, c) ← read l.cursor
  pure { l.push t with cursor := c, keyAllowed := false }

def pushDocumentMark (l : Layout) (t : Token) : Reading Layout := do
  let l ← (l.unwind (-1)).dropKey
  pure { l.pushMark t 3 with keyAllowed := false }

def pushDirective (l : Layout) : Reading Layout := do
  let l ← (l.unwind (-1)).dropKey
  let (t, c) ← Token.directiveToken l.cursor
  pure { l.push t with cursor := c, keyAllowed := false }

def pushFlowStart (l : Layout) (t : Token) : Reading Layout := do
  let l ← l.saveKey
  pure { l.pushMark t 1 with depth := l.depth + 1, keyAllowed := true }

/-- The bracket that closes a flow collection; one must be open. -/
def pushFlowEnd (l : Layout) (t : Token) : Reading Layout :=
  if l.inFlow then do
    let l ← l.dropKey
    pure { l.pushMark t 1 with depth := l.depth - 1, keyAllowed := false }
  else malformed

def pushFlowEntry (l : Layout) : Reading Layout := do
  let l ← l.dropKey
  pure { l.pushMark .flowEntry 1 with keyAllowed := true }

def pushBlockEntry (l : Layout) : Reading Layout :=
  if l.inFlow then do
    let l ← l.dropKey
    pure { l.pushMark .blockEntry 1 with keyAllowed := true }
  else if l.keyAllowed then do
    let l ← (l.openBlock l.cursor.column l.count .blockSequenceStart).dropKey
    pure { l.pushMark .blockEntry 1 with keyAllowed := true }
  else malformed

def pushKey (l : Layout) : Reading Layout :=
  if l.inFlow then do
    let l ← l.dropKey
    pure { l.pushMark .key 1 with keyAllowed := false }
  else if l.keyAllowed then do
    let l ← (l.openBlock l.cursor.column l.count .blockMappingStart).dropKey
    pure { l.pushMark .key 1 with keyAllowed := true }
  else malformed

/-- The colon before a value. If a key may have started before it, that key is one. -/
def pushValue (l : Layout) : Reading Layout :=
  match l.keys.lookup l.depth with
  | some k =>
    let l := { l with keys := l.keys.filter fun (depth, _) => depth != l.depth }
    let l := l.insert k.token .key
    let l := if l.inFlow then l else l.openBlock k.column k.token .blockMappingStart
    .ok { l.pushMark .value 1 with keyAllowed := false }
  | none =>
    if l.inFlow then .ok { l.pushMark .value 1 with keyAllowed := false }
    else if l.keyAllowed then
      .ok { (l.openBlock l.cursor.column l.count .blockMappingStart).pushMark .value 1 with
        keyAllowed := true }
    else malformed

/-- A block scalar. A key may follow it. -/
def pushBlockScalar (l : Layout) (folds : Bool) : Reading Layout := do
  let l ← l.dropKey
  let (t, c) ← Token.blockToken folds l.indent l.cursor
  pure { l.push t with cursor := c, keyAllowed := true }

/-- A plain scalar. A key may follow it on a new line. -/
def pushPlain (l : Layout) : Reading Layout := do
  let l ← l.saveKey
  let ((t, lineEnded), c) := Token.plain l.inFlow l.indent l.cursor
  pure { l.push t with cursor := c, keyAllowed := lineEnded }

def named (make : String → Token) (c : Cursor) : Reading (Token × Cursor) := do
  let (name, c) ← Token.name c
  pure (make name, c)

/-- The token that starts with a character at the position; none may start there. -/
def pushToken (l : Layout) (ch : Char) : Reading Layout :=
  let c := l.cursor
  let alone := isSeparator (c.peekAt 1)
  if ch = '%' ∧ c.column = 0 then l.pushDirective
  else if c.column = 0 ∧ c.atDocumentMark "---" then l.pushDocumentMark .documentStart
  else if c.column = 0 ∧ c.atDocumentMark "..." then l.pushDocumentMark .documentEnd
  else if ch = '[' then l.pushFlowStart .flowSequenceStart
  else if ch = '\x7b' then l.pushFlowStart .flowMappingStart
  else if ch = ']' then l.pushFlowEnd .flowSequenceEnd
  else if ch = '\x7d' then l.pushFlowEnd .flowMappingEnd
  else if ch = ',' then l.pushFlowEntry
  else if ch = '-' ∧ alone then l.pushBlockEntry
  else if ch = '?' ∧ (l.inFlow ∨ alone) then l.pushKey
  else if ch = ':' ∧ (l.inFlow ∨ alone) then l.pushValue
  else if ch = '*' then l.pushNode (named .reference)
  else if ch = '&' then l.pushNode (named .anchor)
  else if ch = '!' then l.pushNode Token.tagToken
  else if ch = '|' ∧ ¬ l.inFlow then l.pushBlockScalar false
  else if ch = '>' ∧ ¬ l.inFlow then l.pushBlockScalar true
  else if ch = '\'' ∨ ch = '"' then l.pushNode (Token.quotedToken ch)
  else if Token.startsPlain l.inFlow c then l.pushPlain
  else malformed

/-- The layout with the next token, or with the end of the text, which closes all block collections;
and whether the text has ended. -/
def advance (l : Layout) : Reading (Layout × Bool) := do
  let l ← (skipToToken (l.cursor.left + 1) l).dropStaleKeys
  let l := l.unwind l.cursor.column
  match l.cursor.peek with
  | none =>
    let l ← (l.unwind (-1)).dropKey
    pure (l.push .streamEnd, true)
  | some ch =>
    let l ← l.pushToken ch
    pure (l, false)

def certain (l : Layout) : Nat :=
  ((l.keys.filter fun (_, k) => l.isFresh k).map fun (_, k) => k.token).foldl min l.count

def stopped (l : Layout) (fault : ReadFault) : TokenRun :=
  { tokens := l.tokens.reverse.take l.certain, fault := some fault }

/-- Reads tokens to the end of the text. Each of them takes at least one character. -/
def readAll : Nat → Layout → TokenRun
  | 0, l => l.stopped .malformed
  | fuel + 1, l =>
    match l.advance with
    | .ok (l, true) => { tokens := l.tokens.reverse }
    | .ok (l, false) => readAll fuel l
    | .error fault => l.stopped fault

end Layout

/-- The tokens of a text. All its characters must be allowed. -/
def tokensOf (text : List Char) : TokenRun :=
  if text.all isAllowed then Layout.readAll (text.length + 1) (.start text)
  else { tokens := [], fault := some .malformed }

end Schematic.Yaml
