import Schematic.Json.Basic
import Schematic.Number.Layout

/-!
Writing JSON documents, one item or member on a line, in ASCII. A code point outside ASCII is
written by its UTF-16 code units, half a pair by itself.
-/

namespace Schematic.Json

/-- The `u` escape of one 16-bit unit. -/
def unitEscape (n : Nat) : String :=
  let digits := Nat.toDigits 16 n
  "\\u" ++ String.ofList (List.replicate (4 - digits.length) '0' ++ digits)

def shortEscapes : List (Nat × String) :=
  [(0x22, "\\\""), (0x5c, "\\\\"), (0x0a, "\\n"), (0x0d, "\\r"), (0x09, "\\t"), (0x08, "\\b"),
    (0x0c, "\\f")]

def escape (p : CodePoint) : String :=
  match shortEscapes.lookup p.code with
  | some short => short
  | none =>
    let n := p.code
    if 0x20 ≤ n ∧ n < 0x7f then String.singleton (Char.ofNat n)
    else if n < 0x10000 then unitEscape n
    else
      let m := n - 0x10000
      unitEscape (0xd800 + m / 0x400) ++ unitEscape (0xdc00 + m % 0x400)

def quote (t : Text) : String :=
  "\"" ++ t.points.foldl (fun out p => out ++ escape p) "" ++ "\""

def lineStart (indent depth : Nat) : String :=
  "\n" ++ String.ofList (List.replicate (indent * depth) ' ')

mutual

/-- A document whose items are indented by `indent` blanks a level, from `depth` on. -/
def print (indent depth : Nat) : Json → String
  | .null => "null"
  | .bool b => if b then "true" else "false"
  | .int n => toString n
  | .float x => FloatLayout.document.text x
  | .notANumber => FloatLayout.document.notANumber
  | .text s => quote s
  | .array [] => "[]"
  | .array items =>
    let start := lineStart indent (depth + 1)
    "[" ++ start ++ ("," ++ start).intercalate (printItems indent (depth + 1) items) ++
      lineStart indent depth ++ "]"
  | .gap _ => ""
  | .object [] => "\x7b\x7d"
  | .object members =>
    let start := lineStart indent (depth + 1)
    "\x7b" ++ start ++ ("," ++ start).intercalate (printMembers indent (depth + 1) members) ++
      lineStart indent depth ++ "\x7d"

def printItems (indent depth : Nat) : List Json → List String
  | [] => []
  | j :: js => print indent depth j :: printItems indent depth js

def printMembers (indent depth : Nat) : List (Text × Json) → List String
  | [] => []
  | (name, j) :: rest =>
    (quote name ++ ": " ++ print indent depth j) :: printMembers indent depth rest

end

/-- A document as text; a document with a gap has none. -/
def render (indent : Nat) (j : Json) : Except JsonFault String :=
  match j.firstFault? with
  | some fault => .error fault
  | none => .ok (j.print indent 0)

end Schematic.Json
