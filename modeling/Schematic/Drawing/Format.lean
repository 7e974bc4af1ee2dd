import Schematic.Error
import Schematic.Text.LowerCase

/-!
The document formats.
-/

namespace Schematic

inductive Format where
  | debugJson
  | elkJson
  | d3Json
  | elkText
  | mermaid
  deriving DecidableEq, Repr, Inhabited

namespace Format

def all : List Format := [debugJson, elkJson, d3Json, elkText, mermaid]

def name : Format → String
  | debugJson => "dbgjson"
  | elkJson => "elkjson"
  | d3Json => "d3json"
  | elkText => "elkt"
  | mermaid => "mermaid"

def ofValue (v : Value) : Except Error Format :=
  match all.find? fun f => namesIgnoringCase v.plain f.name with
  | some f => .ok f
  | none => .error (.unknownFormat v)

theorem ofValue_name (f : Format) : ofValue (.text f.name) = .ok f := by
  cases f <;> cbv

end Format

end Schematic
