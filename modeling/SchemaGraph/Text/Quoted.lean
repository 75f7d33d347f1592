import SchemaGraph.Text.Printable

namespace SchemaGraph.Text

/-!
# Quoted text

Diagnostics show a text between quotes: single quotes, or double quotes when the text
has a single quote and no double quote.  The backslash, the enclosing quote and the
characters that are not printable are escaped, so that the quoted form has no line break
and shows every character.
-/

/-- A hexadecimal digit below sixteen. -/
def hexDigit (n : Nat) : Char :=
  if n < 10 then Char.ofNat (48 + n) else Char.ofNat (87 + n)

/-- The last `width` hexadecimal digits of a number. -/
def hexDigits : Nat → Nat → List Char
  | 0, _ => []
  | width + 1, n => hexDigits width (n / 16) ++ [hexDigit (n % 16)]

/-- An unprintable character, by the shortest of the three numeric escapes. -/
def numericEscape (n : Nat) : List Char :=
  if n < 0x100 then '\\' :: 'x' :: hexDigits 2 n
  else if n < 0x10000 then '\\' :: 'u' :: hexDigits 4 n
  else '\\' :: 'U' :: hexDigits 8 n

/-- One character between the given quotes. -/
def quoteChar (quote c : Char) : List Char :=
  if c = '\\' then ['\\', '\\']
  else if c = quote then ['\\', c]
  else if c = '\n' then ['\\', 'n']
  else if c = '\t' then ['\\', 't']
  else if c = '\r' then ['\\', 'r']
  else if isPrintable c then [c]
  else numericEscape c.toNat

/-- The quote that encloses a text. -/
def enclosing (cs : List Char) : Char :=
  if cs.contains '\'' && !cs.contains '"' then '"' else '\''

/-- A text between quotes. -/
def quoted (s : String) : String :=
  let quote := enclosing s.toList
  String.ofList (quote :: s.toList.flatMap (quoteChar quote) ++ [quote])

/-- A text between quotes whose codes need not be characters. -/
def quotedCodes (codes : List Nat) : String :=
  let code (n : Nat) : List Char :=
    if n.isValidChar then quoteChar '\'' (Char.ofNat n) else numericEscape n
  String.ofList ('\'' :: codes.flatMap code ++ ['\''])

/-- A byte string between quotes; its bytes beyond ASCII are escaped. -/
def quotedBytes (s : String) : String :=
  let quote := enclosing s.toList
  let byte (b : UInt8) : List Char :=
    if b.toNat < 0x80 then quoteChar quote (Char.ofNat b.toNat) else numericEscape b.toNat
  String.ofList ('b' :: quote :: s.toUTF8.toList.flatMap byte ++ [quote])

end SchemaGraph.Text
