import SchemaGraph.Binary64.Shortest
import SchemaGraph.Json
import SchemaGraph.Text.Quoted

namespace SchemaGraph

/-!
# Written JSON

Three layouts of one value: on a single line, and indented by two spaces with
non-ASCII characters either escaped (files) or as they are (terminal).
-/

/-- Which characters of a string are escaped, and how containers are spread. -/
structure Json.Style where
  /-- Escape every character beyond the tilde. -/
  asciiOnly : Bool
  /-- Put every element on a line of its own. -/
  indented : Bool

namespace Json

/-- Documents in files. -/
def fileStyle : Style := ⟨true, true⟩

/-- Documents on the terminal. -/
def terminalStyle : Style := ⟨false, true⟩

/-- A value on one line. -/
def lineStyle : Style := ⟨true, false⟩

/-- An escape of one 16-bit unit. -/
def unitEscape (n : Nat) : List Char := '\\' :: 'u' :: Text.hexDigits 4 n

/-- A character beyond 16 bits takes two units. -/
def unicodeEscape (n : Nat) : List Char :=
  if n < 0x10000 then unitEscape n
  else
    let v := n - 0x10000
    unitEscape (0xd800 + v / 0x400) ++ unitEscape (0xdc00 + v % 0x400)

/-- One character of a string. -/
def escapeChar (asciiOnly : Bool) (c : Char) : List Char :=
  if c = '"' then ['\\', '"']
  else if c = '\\' then ['\\', '\\']
  else if c = '\n' then ['\\', 'n']
  else if c = '\r' then ['\\', 'r']
  else if c = '\t' then ['\\', 't']
  else if c.toNat = 8 then ['\\', 'b']
  else if c.toNat = 12 then ['\\', 'f']
  else if c.toNat < 0x20 then unitEscape c.toNat
  else if asciiOnly && 0x7f ≤ c.toNat then unicodeEscape c.toNat
  else [c]

/-- A string between double quotes. -/
def stringText (asciiOnly : Bool) (s : String) : String :=
  String.ofList ('"' :: s.toList.flatMap (escapeChar asciiOnly) ++ ['"'])

/-- The start of a line at the given depth, or the blank that separates elements. -/
def lineBreak (style : Style) (depth : Nat) (flat : String) : String :=
  if style.indented then "\n" ++ String.ofList (List.replicate (2 * depth) ' ') else flat

/-- Elements between brackets; an empty container has nothing between them. -/
def bracketed (style : Style) (depth : Nat) (left right : String) (parts : List String) :
    String :=
  if parts.isEmpty then left ++ right
  else
    let separator := "," ++ lineBreak style (depth + 1) " "
    left ++ lineBreak style (depth + 1) "" ++ separator.intercalate parts
      ++ lineBreak style depth "" ++ right

mutual

/-- The text of a value inside `depth` containers. -/
def textAt (style : Style) (depth : Nat) : Json → String
  | .null => "null"
  | .bool true => "true"
  | .bool false => "false"
  | .int i => toString i
  | .float x => x.text
  | .str s => stringText style.asciiOnly s
  | .arr items => bracketed style depth "[" "]" (itemTexts style (depth + 1) items)
  | .obj members => bracketed style depth "\x7b" "\x7d" (memberTexts style (depth + 1) members)

/-- The texts of the elements of an array. -/
def itemTexts (style : Style) (depth : Nat) : List Json → List String
  | [] => []
  | v :: rest => textAt style depth v :: itemTexts style depth rest

/-- The texts of the members of an object. -/
def memberTexts (style : Style) (depth : Nat) : List (String × Json) → List String
  | [] => []
  | (k, v) :: rest =>
    (stringText style.asciiOnly k ++ ": " ++ textAt style depth v)
      :: memberTexts style depth rest

end

/-- The text of a value. -/
def text (style : Style) (v : Json) : String := textAt style 0 v

/-- The text of a file that holds a document. -/
def fileText (v : Json) : String := text fileStyle v ++ "\n"

end Json

end SchemaGraph
