import Schematic.Error
import Schematic.Yaml.Cursor

/-!
The tokens of a YAML text, and the reading of those that stand on their own: directives, anchors,
aliases, tags and scalars.
-/

namespace Schematic.Yaml

/-- Why a text has no value: it breaks the rules, or one of its scalars has none. -/
inductive ReadFault where
  | malformed
  | scalar (fault : ScalarFault)

inductive Directive where
  | version (major : Nat)
  | tag (handle expansion : String)
  | other
  deriving DecidableEq, Repr

/-- A token. The start and the end of a block collection come from indentation. -/
inductive Token where
  | directive (d : Directive)
  | documentStart
  | documentEnd
  | streamEnd
  | blockSequenceStart
  | blockMappingStart
  | blockEnd
  | flowSequenceStart
  | flowSequenceEnd
  | flowMappingStart
  | flowMappingEnd
  | flowEntry
  | blockEntry
  | key
  | value
  | reference (name : String)
  | anchor (name : String)
  | tag (handle : Option String) (suffix : String)
  | scalar (content : Text) (isPlain : Bool)
  deriving DecidableEq, Repr, Inhabited

abbrev Reading := Except ReadFault

def malformed {α : Type} : Reading α := .error .malformed

def hexDigit? (c : Char) : Option Nat :=
  if c.isDigit then some (c.toNat - '0'.toNat)
  else if 'a' ≤ c ∧ c ≤ 'f' then some (c.toNat - 'a'.toNat + 10)
  else if 'A' ≤ c ∧ c ≤ 'F' then some (c.toNat - 'A'.toNat + 10)
  else none

def hexNumber (count : Nat) (c : Cursor) : Reading (Nat × Cursor) :=
  let digits := c.rest.take count
  match digits.foldlM (fun n d => (hexDigit? d).map (16 * n + ·)) 0 with
  | some n => if digits.length = count then .ok (n, c.forward count) else malformed
  | none => malformed

namespace Token

def name (c : Cursor) : Reading (String × Cursor) :=
  let (name, c) := c.next.takeWhile isWordChar
  let ends := isSeparator c.peek ||
    (c.peek.any fun ch => ['?', ':', ',', ']', '\x7d', '%', '@', '\x60'].contains ch)
  if name ≠ [] ∧ ends then .ok (String.ofList name, c) else malformed

def escapedBytes : Nat → Cursor → ByteArray → Reading (ByteArray × Cursor)
  | 0, _, _ => malformed
  | fuel + 1, c, bytes =>
    if c.sees '%' then do
      let (n, c) ← hexNumber 2 c.next
      escapedBytes fuel c (bytes.push n.toUInt8)
    else .ok (bytes, c)

def isTagChar (c : Char) : Bool :=
  c.isAlphanum || "-;/?:@&=+$,_.!~*'()[]%".toList.contains c

def tagRest : Nat → Cursor → String → Reading (String × Cursor)
  | 0, _, _ => malformed
  | fuel + 1, c, done =>
    let (run, c) := c.takeWhile fun ch => isTagChar ch && ch != '%'
    let done := done ++ String.ofList run
    if c.sees '%' then do
      let (bytes, c) ← escapedBytes (c.left + 1) c .empty
      match String.fromUTF8? bytes with
      | some s => tagRest fuel c (done ++ s)
      | none => malformed
    else .ok (done, c)

/-- The text of a tag; it has at least one character. -/
def tagText (c : Cursor) : Reading (String × Cursor) :=
  if c.peek.any isTagChar then tagRest (c.left + 1) c "" else malformed

def tagHandle (c : Cursor) : Reading (String × Cursor) :=
  if c.sees '!' then
    if c.peekAt 1 = some ' ' then .ok ("!", c.next)
    else
      let (word, after) := c.next.takeWhile isWordChar
      if after.sees '!' then .ok ("!" ++ String.ofList word ++ "!", after.next) else malformed
  else malformed

/-- A tag as such: written out between brackets, the bare mark, or a handle with a suffix. -/
def tagProper (c : Cursor) : Reading (Token × Cursor) :=
  if c.peekAt 1 = some '<' then do
    let (text, c) ← tagText (c.forward 2)
    if c.sees '>' then pure (.tag none text, c.next) else malformed
  else if isSeparator (c.peekAt 1) then pure (.tag none "!", c.next)
  else
    let word := (c.rest.drop 1).takeWhile fun ch => !isBlankOrBreak (some ch)
    if word.contains '!' then do
      let (handle, c) ← tagHandle c
      let (text, c) ← tagText c
      pure (.tag (some handle) text, c)
    else do
      let (text, c) ← tagText c.next
      pure (.tag (some "!") text, c)

def tagToken (c : Cursor) : Reading (Token × Cursor) := do
  let (t, c) ← tagProper c
  if isBlankOrBreak c.peek then pure (t, c) else malformed

def directiveNumber (c : Cursor) : Reading (Nat × Cursor) :=
  let (digits, c) := c.takeWhile Char.isDigit
  if digits = [] then malformed
  else if Value.mostDigits < digits.length then .error (.scalar (.tooLong digits.length))
  else .ok (digits.foldl (fun n d => 10 * n + (d.toNat - '0'.toNat)) 0, c)

def versionDirective (c : Cursor) : Reading (Directive × Cursor) := do
  let (major, c) ← directiveNumber (c.skipWhile (· == ' '))
  if c.sees '.' then
    let (_, c) ← directiveNumber c.next
    if isBlankOrBreak c.peek then pure (.version major, c) else malformed
  else malformed

def tagDirective (c : Cursor) : Reading (Directive × Cursor) := do
  let (handle, c) ← tagHandle (c.skipWhile (· == ' '))
  if c.sees ' ' then
    let (expansion, c) ← tagText (c.skipWhile (· == ' '))
    if isBlankOrBreak c.peek then pure (.tag handle expansion, c) else malformed
  else malformed

def directiveValue (name : String) (c : Cursor) : Reading (Directive × Cursor) :=
  if name = "YAML" then versionDirective c
  else if name = "TAG" then tagDirective c
  else .ok (.other, c.skipLine)

def directiveToken (c : Cursor) : Reading (Token × Cursor) :=
  let (name, c) := c.next.takeWhile isWordChar
  if name ≠ [] ∧ isBlankOrBreak c.peek then do
    let (d, c) ← directiveValue (String.ofList name) c
    match c.endLine? with
    | some c => pure (.directive d, c)
    | none => malformed
  else malformed

/-- The line ends at the position, blanks between them skipped. No line may separate documents. -/
def quotedBreaks : Nat → Cursor → List Char → Reading (List Char × Cursor)
  | 0, _, _ => malformed
  | fuel + 1, c, done =>
    if c.atSeparatorLine then malformed
    else
      let c := c.skipWhile isSpace
      if c.peek.any isBreak then
        let (newline, c) := c.lineBreak
        quotedBreaks fuel c (done ++ newline)
      else .ok (done, c)

/-- What line ends make of a fold: one newline is a blank, more lose the first. -/
def folded (first : List Char) (more : List Char) : List Char :=
  if first ≠ ['\n'] then first ++ more
  else if more = [] then [' '] else more

/-- The blanks at the position within a quoted scalar: kept, unless the line ends behind them. -/
def quotedSpaces (c : Cursor) : Reading (List Char × Cursor) :=
  let (spaces, c) := c.takeWhile isSpace
  match c.peek with
  | none => malformed
  | some ch =>
    if isBreak ch then do
      let (newline, c) := c.lineBreak
      let (more, c) ← quotedBreaks (c.left + 1) c []
      pure (folded newline more, c)
    else .ok (spaces, c)

def escapes : List (Char × Char) :=
  [('0', '\x00'), ('a', '\x07'), ('b', '\x08'), ('t', '\t'), ('\t', '\t'), ('n', '\n'),
    ('v', '\x0b'), ('f', '\x0c'), ('r', '\r'), ('e', '\x1b'), (' ', ' '), ('"', '"'),
    ('\\', '\\'), ('/', '/'), ('N', '\x85'), ('_', '\xa0'), ('L', '\u2028'), ('P', '\u2029')]

def escapeWidths : List (Char × Nat) := [('x', 2), ('u', 4), ('U', 8)]

def greatestWord : Nat := Nat.pow 2 31 - 1

def codePoint (code : Nat) : Reading CodePoint :=
  if h : code < 0x110000 then .ok ⟨code, h⟩
  else .error (.scalar (.codePoint (decide (greatestWord < code))))

def escape (c : Cursor) : Reading (Text × Cursor) :=
  match c.peek with
  | none => malformed
  | some ch =>
    match escapes.lookup ch, escapeWidths.lookup ch with
    | some d, _ => .ok (.ofChars [d], c.next)
    | none, some width => do
      let (code, c) ← hexNumber width c.next
      let p ← codePoint code
      pure (⟨[p]⟩, c)
    | none, none =>
      if isBreak ch then do
        let (more, c) ← quotedBreaks (c.left + 1) c.lineBreak.2 []
        pure (.ofChars more, c)
      else malformed

/-- The characters of a quoted scalar up to the next blank, line end or closing quote. -/
def quotedRun (quote : Char) : Nat → Cursor → Text → Reading (Text × Cursor)
  | 0, _, _ => malformed
  | fuel + 1, c, done =>
    let double := quote == '"'
    let (run, c) := c.takeWhile fun ch =>
      !(ch == '\'' || ch == '"' || ch == '\\' || isSpace ch || isBreak ch)
    let done := done ++ .ofChars run
    match c.peek with
    | some '\'' =>
      if double then quotedRun quote fuel c.next (done ++ "'")
      else if c.peekAt 1 = some '\'' then quotedRun quote fuel (c.forward 2) (done ++ "'")
      else .ok (done, c)
    | some '"' =>
      if double then .ok (done, c) else quotedRun quote fuel c.next (done ++ "\"")
    | some '\\' =>
      if double then do
        let (more, c) ← escape c.next
        quotedRun quote fuel c (done ++ more)
      else quotedRun quote fuel c.next (done ++ "\\")
    | _ => .ok (done, c)

def quotedRest (quote : Char) : Nat → Cursor → Text → Reading (Text × Cursor)
  | 0, _, _ => malformed
  | fuel + 1, c, done => do
    let (done, c) ← quotedRun quote (c.left + 1) c done
    if c.sees quote then pure (done, c.next)
    else
      let (spaces, c) ← quotedSpaces c
      quotedRest quote fuel c (done ++ .ofChars spaces)

def quotedToken (quote : Char) (c : Cursor) : Reading (Token × Cursor) := do
  let (content, c) ← quotedRest quote (c.left + 1) c.next .empty
  pure (.scalar content false, c)

/-- How the last line ends of a block scalar count. -/
inductive Chomping where
  | strip
  | clip
  | keep
  deriving DecidableEq

def chomping? (c : Cursor) : Option Chomping :=
  if c.sees '+' then some .keep else if c.sees '-' then some .strip else none

/-- The indentation digit at the position; zero is no indentation. -/
def indentDigit? (c : Cursor) : Option (Option Nat) :=
  match c.peek with
  | some ch =>
    if ch.isDigit then if ch = '0' then none else some (some (ch.toNat - '0'.toNat))
    else some none
  | none => some none

/-- The marks of a block scalar: a chomping mark and an indentation digit in either order. -/
def blockMarks? (c : Cursor) : Option ((Chomping × Option Nat) × Cursor) :=
  match chomping? c with
  | some chomp =>
    match indentDigit? c.next with
    | none => none
    | some none => some ((chomp, none), c.next)
    | some (some n) => some ((chomp, some n), c.forward 2)
  | none =>
    match indentDigit? c with
    | none => none
    | some none => some ((.clip, none), c)
    | some (some n) =>
      match chomping? c.next with
      | some chomp => some ((chomp, some n), c.forward 2)
      | none => some ((.clip, some n), c.next)

/-- The header of a block scalar: its marks on a line of their own. -/
def blockHeader (c : Cursor) : Reading ((Chomping × Option Nat) × Cursor) :=
  match blockMarks? c with
  | some (header, c) =>
    match isBlankOrBreak c.peek, c.endLine? with
    | true, some c => .ok (header, c)
    | _, _ => malformed
  | none => malformed

def skipIndent (column : Nat) (c : Cursor) : Cursor :=
  c.forward (min ((c.rest.takeWhile (· == ' ')).length) (column - c.column))

/-- The line ends at the position, and the position in the first line that is not empty. -/
def blockBreaks (column : Nat) : Nat → Cursor → List Char → List Char × Cursor
  | 0, c, done => (done, c)
  | fuel + 1, c, done =>
    let c := skipIndent column c
    if c.peek.any isBreak then
      let (newline, c) := c.lineBreak
      blockBreaks column fuel c (done ++ newline)
    else (done, c)

/-- The empty lines at the start of a block scalar, and the greatest column of a blank in them or
at the start of the next line. -/
def blockIndent : Nat → Cursor → List Char → Nat → (List Char × Nat) × Cursor
  | 0, c, done, column => ((done, column), c)
  | fuel + 1, c, done, column =>
    if c.sees ' ' then
      let c := c.next
      blockIndent fuel c done (max column c.column)
    else if c.peek.any isBreak then
      let (newline, c) := c.lineBreak
      blockIndent fuel c (done ++ newline) column
    else ((done, column), c)

def inBlock (column : Nat) (c : Cursor) : Bool := c.column == column && c.peek.isSome

/-- The lines of a block scalar: what they hold, the last line end, and the empty lines behind. -/
def blockLines (folds : Bool) (column : Nat) :
    Nat → Cursor → (breaks done : List Char) → (List Char × List Char × List Char) × Cursor
  | 0, c, breaks, done => ((done, [], breaks), c)
  | fuel + 1, c, breaks, done =>
    if inBlock column c then
      let startsText := !c.peek.any isSpace
      let (line, c) := c.takeWhile fun ch => !isBreak ch
      let done := done ++ breaks ++ line
      let (newline, c) := c.lineBreak
      let (breaks, c) := blockBreaks column (c.left + 1) c []
      if inBlock column c then
        let joint :=
          if folds && newline == ['\n'] && startsText && !c.peek.any isSpace then
            if breaks = [] then [' '] else []
          else newline
        blockLines folds column fuel c breaks (done ++ joint)
      else ((done, newline, breaks), c)
    else ((done, [], breaks), c)

/-- A block scalar. Its lines are indented deeper than the enclosing block. -/
def blockToken (folds : Bool) (enclosing : Int) (c : Cursor) : Reading (Token × Cursor) := do
  let ((chomp, indent?), c) ← blockHeader c.next
  let least := (max (enclosing + 1) 1).toNat
  let fuel := c.left + 1
  let ((breaks, column), c) := match indent? with
    | none =>
      let ((breaks, column), c) := blockIndent fuel c [] 0
      ((breaks, max least column), c)
    | some n =>
      let (breaks, c) := blockBreaks (least + n - 1) fuel c []
      ((breaks, least + n - 1), c)
  let ((content, newline, breaks), c) := blockLines folds column fuel c breaks []
  let tail := match chomp with
    | .strip => []
    | .clip => newline
    | .keep => newline ++ breaks
  pure (.scalar (.ofChars (content ++ tail)) false, c)

def plainRun (inFlow : Bool) : List Char → List Char
  | [] => []
  | ch :: rest =>
    let next := rest.head?
    let endsHere :=
      isSeparator (some ch) ||
      (ch == ':' && (isSeparator next || (inFlow && next.any isFlowMark))) ||
      (inFlow && (ch == '?' || isFlowMark ch))
    if endsHere then [] else ch :: plainRun inFlow rest

/-- The empty lines behind the first line end within a plain scalar, and whether a line that
separates documents was met. -/
def plainBreaks : Nat → Cursor → List Char → (List Char × Bool) × Cursor
  | 0, c, done => ((done, false), c)
  | fuel + 1, c, done =>
    if c.sees ' ' then plainBreaks fuel c.next done
    else if c.peek.any isBreak then
      let (newline, c) := c.lineBreak
      let done := done ++ newline
      if c.atSeparatorLine then ((done, true), c) else plainBreaks fuel c done
    else ((done, false), c)

/-- What joins two parts of a plain scalar, whether a line ended, and the position behind. The
joint is `none` where the scalar ends. -/
def plainJoint (c : Cursor) : (Option (List Char) × Bool) × Cursor :=
  let (spaces, c) := c.takeWhile (· == ' ')
  if c.peek.any isBreak then
    let (newline, c) := c.lineBreak
    if c.atSeparatorLine then ((none, true), c)
    else
      let ((more, stopped), c) := plainBreaks (c.left + 1) c []
      if stopped then ((none, true), c) else ((some (folded newline more), true), c)
  else ((if spaces = [] then none else some spaces, false), c)

/-- The parts of a plain scalar, and whether a line ended behind the last one. -/
def plainParts (inFlow : Bool) (indent : Int) :
    Nat → Cursor → (joint done : List Char) → (lineEnded : Bool) → (List Char × Bool) × Cursor
  | 0, c, _, done, ended => ((done, ended), c)
  | fuel + 1, c, joint, done, ended =>
    if c.sees '#' then ((done, ended), c)
    else
      let run := plainRun inFlow c.rest
      if run = [] then ((done, ended), c)
      else
        let done := done ++ joint ++ run
        let ((joint?, ended), c) := plainJoint (c.forward run.length)
        match joint? with
        | none => ((done, ended), c)
        | some joint =>
          if c.sees '#' ∨ (!inFlow ∧ (c.column : Int) < indent) then ((done, ended), c)
          else plainParts inFlow indent fuel c joint done ended

def plain (inFlow : Bool) (enclosing : Int) (c : Cursor) : (Token × Bool) × Cursor :=
  let ((content, ended), c) := plainParts inFlow (enclosing + 1) (c.left + 1) c [] [] false
  ((.scalar (.ofChars content) true, ended), c)

def startsPlain (inFlow : Bool) (c : Cursor) : Bool :=
  match c.peek with
  | none => false
  | some ch =>
    let marks := "-?:,[]\x7b\x7d#&*!|>'\"%@\x60".toList
    (!isSpace ch && !isBreak ch && !marks.contains ch) ||
      (!isSeparator (c.peekAt 1) && (ch == '-' || (!inFlow && (ch == '?' || ch == ':'))))

end Token

end Schematic.Yaml
