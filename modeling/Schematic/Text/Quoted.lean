import Schematic.Text.Printable

/-!
Quoted text, as values show the strings inside them. A text stands in single quotes, or in double
quotes when it holds a single quote and no double quote.
-/

namespace Schematic

namespace Quoted

/-- The last `width` hexadecimal digits of a number, in lower case. -/
def hex (width n : Nat) : String :=
  let digits := Nat.toDigits 16 n
  String.ofList (List.replicate (width - digits.length) '0' ++ digits)

/-- The escape of a code point that is not printable, as short as its number allows. -/
def codeEscape (n : Nat) : String :=
  if n ≤ 0xff then "\\x" ++ hex 2 n
  else if n ≤ 0xffff then "\\u" ++ hex 4 n
  else "\\U" ++ hex 8 n

def escape (quote : Char) (p : CodePoint) : String :=
  match p.toChar? with
  | none => codeEscape p.code
  | some c =>
    if c = '\\' ∨ c = quote then String.ofList ['\\', c]
    else if c = '\n' then "\\n"
    else if c = '\r' then "\\r"
    else if c = '\t' then "\\t"
    else if p.isPrintable then String.singleton c
    else codeEscape p.code

def quoteFor (t : Text) : Char := if t.holds '\'' ∧ ¬ t.holds '"' then '"' else '\''

end Quoted

def Text.inQuotes (t : Text) : String :=
  let q := Quoted.quoteFor t
  String.singleton q ++ String.join (t.points.map (Quoted.escape q)) ++ String.singleton q

def Quoted.byteEscape (quote : Char) (b : UInt8) : String :=
  if 0x7f ≤ b then "\\x" ++ hex 2 b.toNat else escape quote (Char.ofNat b.toNat)

def quotedBytes (content : List UInt8) : String :=
  let q := Quoted.quoteFor (.ofChars (content.map fun b => Char.ofNat b.toNat))
  "b" ++ String.singleton q ++ String.join (content.map (Quoted.byteEscape q)) ++
    String.singleton q

end Schematic
