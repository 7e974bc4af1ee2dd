import Schematic.Yaml.Timestamp
import Schematic.Text.Basic

/-!
Tags say what a node is. A node without a tag gets one by its looks: a plain scalar is a truth word,
a null word, a number in one of several notations, a day or moment, or else a text.
-/

namespace Schematic.Yaml

/-- The tags that have a meaning; `merge` and `value` mark the two special keys. -/
inductive Tag where
  | null
  | bool
  | int
  | float
  | text
  | bytes
  | timestamp
  | sequence
  | mapping
  | set
  | orderedMapping
  | pairs
  | merge
  | value
  | other (name : String)
  deriving DecidableEq, Repr, Inhabited

namespace Tag

def names : List (String × Tag) :=
  [("null", null), ("bool", bool), ("int", int), ("float", float), ("str", text),
    ("binary", bytes), ("timestamp", timestamp), ("seq", sequence), ("map", mapping), ("set", set),
    ("omap", orderedMapping), ("pairs", pairs), ("merge", merge), ("value", value)]

def ofName (name : String) : Tag :=
  ((names.map fun (short, tag) => ("tag:yaml.org,2002:" ++ short, tag)).lookup name).getD
    (other name)

def trueWords : List String := ["yes", "true", "on"]

def falseWords : List String := ["no", "false", "off"]

def spellings (word : String) : List String := [word, word.capitalize, word.toUpper]

def isTruth (s : String) : Bool := ((trueWords ++ falseWords).flatMap spellings).contains s

def isNull (s : String) : Bool := s == "" || s == "~" || (spellings "null").contains s

def unsigned (cs : List Char) : List Char :=
  match cs with
  | '+' :: rest => rest
  | '-' :: rest => rest
  | _ => cs

def isRun (p : Char → Bool) (cs : List Char) : Bool := !cs.isEmpty && cs.all p

def isGrouped (c : Char) : Bool := c.isDigit || c == '_'

def isWhole (cs : List Char) : Bool := cs.head?.any Char.isDigit && cs.all isGrouped

/-- A group of a number to the base sixty: one digit, or two of which the first is below six. -/
def isSixtieth (cs : List Char) : Bool :=
  match cs with
  | [a] => a.isDigit
  | [a, b] => '0' ≤ a && a ≤ '5' && b.isDigit
  | _ => false

def isInt (s : String) : Bool :=
  match unsigned s.toList with
  | '0' :: 'b' :: rest => isRun (fun c => c == '0' || c == '1' || c == '_') rest
  | '0' :: 'x' :: rest =>
    isRun (fun c => c.isDigit || ('a' ≤ c && c ≤ 'f') || ('A' ≤ c && c ≤ 'F') || c == '_') rest
  | '0' :: rest => rest.all fun c => ('0' ≤ c && c ≤ '7') || c == '_'
  | cs =>
    match cs.splitOn ':' with
    | first :: groups => isWhole first && groups.all isSixtieth
    | [] => false

def isExponent (cs : List Char) : Bool :=
  match cs with
  | [] => true
  | mark :: sign :: digits =>
    (mark == 'e' || mark == 'E') && (sign == '+' || sign == '-') && isRun Char.isDigit digits
  | _ => false

def isFraction (cs : List Char) : Bool := isExponent (cs.dropWhile isGrouped)

def isFloat (s : String) : Bool :=
  let body := unsigned s.toList
  let before := body.takeWhile (· != '.')
  match body.dropWhile (· != '.') with
  | [] => false
  | _ :: after =>
    if before = [] then
      (spellings "inf").contains (String.ofList after) ||
        (s.startsWith "." &&
          (["nan", "NaN", "NAN"].contains (String.ofList after) ||
            (after.head?.any Char.isDigit && isFraction after)))
    else
      match before.splitOn ':' with
      | [whole] => isWhole whole && isFraction after
      | first :: groups => isWhole first && groups.all isSixtieth && after.all isGrouped
      | [] => false

def isTimestamp (s : String) : Bool := (Timestamp.ofText? s.toList).any Timestamp.isPlain

def ofLooks (s : String) : Tag :=
  if isTruth s then .bool
  else if isNull s then .null
  else if isInt s then .int
  else if isFloat s then .float
  else if isTimestamp s then .timestamp
  else if s = "<<" then .merge
  else if s = "=" then .value
  else if ["!", "&", "*"].contains s then .other "tag:yaml.org,2002:yaml"
  else .text

/-- The characters of a text without one newline at its end; a newline alone is kept. -/
def withoutNewline (cs : List Char) : List Char :=
  if cs.getLast? = some '\n' ∧ cs ≠ ['\n'] then cs.dropLast else cs

/-- The tag of a plain scalar. A newline at its end does not count. -/
def ofPlain (content : Text) : Tag :=
  match content.toString? with
  | some s => ofLooks (String.ofList (withoutNewline s.toList))
  | none => .text

end Tag

end Schematic.Yaml
