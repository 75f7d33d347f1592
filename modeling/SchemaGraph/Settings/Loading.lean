import SchemaGraph.Failure
import SchemaGraph.Folder
import SchemaGraph.Yaml.Reader

namespace SchemaGraph

/-!
# Settings in files

The settings of an export may stand in a YAML file.  Whatever is wrong with the file is
reported together with the place where it is wrong, as far as that is known.  What the parser
and the library that checks options write to the logs is theirs alone.

* `Parser` — a library that makes data of texts
* `ExportSettings.loadBy` — the settings in a file, by a parser and a library that checks options
* `ExportSettings.load`   — the settings in a YAML file
-/

/-- The place of a complaint, its steps separated by points. -/
def Complaint.field (c : Complaint) : String := ".".intercalate (c.place.map PathItem.text)

/-- The lines that list complaints. -/
def complaintLines (complaints : List Complaint) : String :=
  let line := fun (c : Complaint) =>
    "\n  - " ++ (if c.field = "" then "<root>" else c.field) ++ ": " ++ c.fault.message
  "Validation failed:" ++ "".intercalate (complaints.map line)

/-- A library that makes data of texts. -/
structure Parser where
  read : String → Except Yaml.Fault Datum
  /-- How a fault is told in the logs, if at all. -/
  explain : Yaml.Fault → Option String

/-- The parser of YAML.  What it writes to the logs is left out. -/
def Yaml.parser : Parser where
  read := Yaml.read
  explain _ := none

namespace ExportSettings

/-- The settings in what a file holds.  A datum that counts as false stands for no options. -/
def ofDatum (V : Validator) (d : Datum) : Except (List Complaint) ExportSettings :=
  match V.mapping "ExportConfig" (if d.isTruthy then d else .dict []) with
  | .ok options => readBy V options
  | .error complaint => .error [complaint]

/-- The failure that reports the first of several complaints about a file. -/
def invalidFile (V : Validator) (path : String) (complaints : List Complaint) : Failure :=
  let field := (complaints.head?.map Complaint.field).getD ""
  let message := (complaints.head?.map fun c => c.fault.message).getD ""
  .configuration ("Invalid configuration: " ++ message) path
    (if field = "" then none else some field) none (V.explain complaints)

/-- The failure that reports a text that is no YAML, with the line, counted from one. -/
def notYaml (parser : Parser) (path : String) (fault : Yaml.Fault) (line : Option Nat) : Failure :=
  -- No field is at fault, as no option was read yet.
  .configuration "Configuration file is not valid YAML" path none (line.map Int.ofNat)
    (parser.explain fault)

/-- The settings in a file whose text a parser makes a datum of, and whose options a library
    checks. -/
def loadBy (parser : Parser) (V : Validator) (folder : Folder) (path : String) :
    Except Failure ExportSettings :=
  let p := FilePath.ofText path
  -- The folder is asked first; what stands in the way of a look is reported as it is.
  match folder.look p with
  | .error obstacle => .error (.blocked obstacle p.text)
  | .ok none => .error (.configuration "Configuration file not found" path none none none)
  | .ok (some .directory) => .error (.blocked .isDirectory p.text)
  | .ok (some (.file text)) =>
    match parser.read text with
    | .ok d => (ofDatum V d).mapError (invalidFile V path)
    -- A number that cannot be held is no fault of the text, and is not reported as one.
    | .error (.outOfRange what) => .error (.outOfRange what)
    -- Lines are counted from one.
    | .error (.broken line) => .error (notYaml parser path (.broken line) (some (line + 1)))
    | .error .unreadable => .error (notYaml parser path .unreadable none)

/-- The settings in a YAML file. -/
def load (folder : Folder) (path : String) : Except Failure ExportSettings :=
  loadBy Yaml.parser .standard folder path

end ExportSettings

end SchemaGraph
