/-!
A position in a YAML text, and the classes of characters that its grammar is made of. The text has
its line ends unified already.
-/

namespace Schematic.Yaml

def isAllowed (c : Char) : Bool :=
  let n := c.toNat
  n == 0x09 || n == 0x0a || n == 0x0d || (0x20 ≤ n && n ≤ 0x7e) || n == 0x85 ||
    (0xa0 ≤ n && n ≤ 0xfffd) || 0x10000 ≤ n

def isBreak (c : Char) : Bool := c == '\n' || c == '\x85' || c == '\u2028' || c == '\u2029'

def isSpace (c : Char) : Bool := c == ' ' || c == '\t'

def isSeparator : Option Char → Bool
  | none => true
  | some c => isSpace c || isBreak c

/-- The text behind the position ends, or starts with a blank or a line end. -/
def isBlankOrBreak : Option Char → Bool
  | none => true
  | some c => c == ' ' || isBreak c

def isLineEnd : Option Char → Bool
  | none => true
  | some c => isBreak c

def isWordChar (c : Char) : Bool := c.isAlphanum || c == '-' || c == '_'

def isFlowMark (c : Char) : Bool := [',', '[', ']', '\x7b', '\x7d'].contains c

/-- What is left of a text and the length of that, and where in the text it is. -/
structure Cursor where
  rest : List Char
  left : Nat
  line : Nat := 0
  column : Nat := 0

namespace Cursor

def start (text : List Char) : Cursor := { rest := text, left := text.length }

def peek (c : Cursor) : Option Char := c.rest.head?

def peekAt (c : Cursor) (n : Nat) : Option Char := c.rest[n]?

def sees (c : Cursor) (ch : Char) : Bool := c.peek == some ch

/-- The position one character further on. A byte-order mark takes no column. -/
def next (c : Cursor) : Cursor :=
  match c.rest with
  | [] => c
  | ch :: rest =>
    if isBreak ch then { rest, left := c.left - 1, line := c.line + 1, column := 0 }
    else
      { rest
        left := c.left - 1
        line := c.line
        column := if ch = '\ufeff' then c.column else c.column + 1 }

def forward (c : Cursor) : Nat → Cursor
  | 0 => c
  | n + 1 => c.next.forward n

/-- The longest run of characters of a class at the position, and the position behind it. -/
def takeWhile (c : Cursor) (p : Char → Bool) : List Char × Cursor :=
  let run := c.rest.takeWhile p
  (run, c.forward run.length)

def skipWhile (c : Cursor) (p : Char → Bool) : Cursor := (c.takeWhile p).2

def skipLine (c : Cursor) : Cursor := c.skipWhile fun ch => !isBreak ch

/-- The line end at the position as it counts in a scalar, and the position behind it. All but the
two Unicode separators count as a newline. -/
def lineBreak (c : Cursor) : List Char × Cursor :=
  match c.peek with
  | some ch =>
    if isBreak ch then ([if ch = '\x85' then '\n' else ch], c.next) else ([], c)
  | none => ([], c)

def atDocumentMark (c : Cursor) (mark : String) : Bool :=
  mark.toList.isPrefixOf c.rest && isSeparator (c.peekAt 3)

def atSeparatorLine (c : Cursor) : Bool := c.atDocumentMark "---" || c.atDocumentMark "..."

/-- Behind blanks and a comment, the next line; nothing else may stand on this one. -/
def endLine? (c : Cursor) : Option Cursor :=
  let c := c.skipWhile (· == ' ')
  let c := if c.sees '#' then c.skipLine else c
  if isLineEnd c.peek then some c.lineBreak.2 else none

end Cursor

end Schematic.Yaml
