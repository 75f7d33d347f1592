import SchemaGraph.Binary64.Shortest
import SchemaGraph.Text.Quoted
import SchemaGraph.Value

namespace SchemaGraph.Value

/-!
# Values in diagnostics

`display` shows a value with its kind: texts are quoted, sequences and mappings spelled
out.  `plain` shows a text as it is and anything else by `display`.
-/

/-- Parts separated by commas. -/
def commaSeparated (parts : List String) : String := ", ".intercalate parts

/-- The elements of a sequence between its brackets; a tuple of one keeps its comma. -/
def displayItems (form : Form) (parts : List String) : String :=
  match form, parts with
  | .list, _ => "[" ++ commaSeparated parts ++ "]"
  | .tuple, [part] => "(" ++ part ++ ",)"
  | .tuple, _ => "(" ++ commaSeparated parts ++ ")"
  | .set, [] => "set()"
  | .set, _ => "\x7b" ++ commaSeparated parts ++ "\x7d"

/-- How many characters of a quoted pattern are shown. -/
def patternWidth : Nat := 200

/-- A pattern: its source, cut off where it is long, and its flags. -/
def displayPattern (p : Pattern) : String :=
  let source := String.ofList ((Text.quoted p.source).toList.take patternWidth)
  let flags :=
    if p.flags.isEmpty then ""
    else ", " ++ "|".intercalate (p.flags.map fun f => "re." ++ f.name)
  "re.compile(" ++ source ++ flags ++ ")"

mutual

/-- A value as diagnostics show it. -/
def display : Value → String
  | .null => "None"
  | .undefined => "UNDEFINED"
  | .bool true => "True"
  | .bool false => "False"
  | .int i => toString i
  | .bigint i => "BigInt(" ++ toString i ++ ")"
  | .float x => x.text
  | .str s => Text.quoted s
  | .foreign (.object _) => "<object>"
  | .foreign (.bytes s) => Text.quotedBytes s
  | .foreign (.moment shown) => shown
  | .foreign (.regex p) => displayPattern p
  | .foreign .classObject => "<class>"
  | .foreign (.raiser ..) => "<function>"
  | .foreign (.reader ..) => "<function>"
  | .foreign (.echo _) => "<function>"
  | .constant .. => "<function>"
  | .items form xs => displayItems form (displays xs)
  | .dict es => "\x7b" ++ commaSeparated (displayEntries es) ++ "\x7d"
  | .loop true => "\x7b'self': \x7b...\x7d\x7d"
  | .loop false => "[[...]]"
  | .fragment _ => "\x7b...\x7d"
  | .borrowed .. => "\x7b...\x7d"
  | .shared _ => "[...]"

/-- Several values. -/
def displays : List Value → List String
  | [] => []
  | v :: vs => display v :: displays vs

/-- The entries of a mapping. -/
def displayEntries : List (Value × Value) → List String
  | [] => []
  | (k, v) :: rest => (display k ++ ": " ++ display v) :: displayEntries rest

end

/-- A value inside running text. -/
def plain : Value → String
  | .str s => s
  | v => v.display

end SchemaGraph.Value
