import SchemaGraph.Folder
import SchemaGraph.Kind
import SchemaGraph.Report
import SchemaGraph.Settings.Reading
import SchemaGraph.Yaml.Fault

namespace SchemaGraph

/-!
# Failures

A failure is a cause.  Those that concern schemas have a report.  Functions given by the
user fail with a class and arguments of their own.

* `Failure.report?` — the report of a failure about schemas
* `Failure.label`   — the class of any failure
* `Failure.message?` — what is shown
-/

/-- What a function given by the user raises: a class and the arguments of its maker. -/
structure Raised where
  className : String
  arguments : List Value
deriving DecidableEq, Repr, Inhabited

/-- What is shown of an exception: its argument, or all of several.  A missing key is shown
    between quotes. -/
def Raised.message (r : Raised) : String :=
  match r.arguments with
  | [] => ""
  | [v] => if r.className = "KeyError" then v.display else v.plain
  | vs => (Value.items .tuple vs).display

/-- An exception with a message. -/
def Raised.because (className message : String) : Raised := ⟨className, [.str message]⟩

/-- The class of an obstacle. -/
def Obstacle.label : Obstacle → String
  | .missing => "FileNotFoundError"
  | .fileExists => "FileExistsError"
  | .notDirectory => "NotADirectoryError"
  | .isDirectory => "IsADirectoryError"
  | .tooLong => "OSError"
  | .nullCharacter => "ValueError"

/-- The sentence that reports an obstacle at a path. -/
def Obstacle.message (path : String) : Obstacle → String
  | .missing => "[Errno 2] No such file or directory: " ++ Text.quoted path
  | .fileExists => "[Errno 17] File exists: " ++ Text.quoted path
  | .notDirectory => "[Errno 20] Not a directory: " ++ Text.quoted path
  | .isDirectory => "[Errno 21] Is a directory: " ++ Text.quoted path
  | .tooLong => "[Errno 36] File name too long: " ++ Text.quoted path
  | .nullCharacter => "embedded null byte"

/-- Why a value cannot be written as JSON. -/
inductive NotData where
  /-- A number that is infinite or undefined. -/
  | notFinite
  /-- A container that holds itself. -/
  | circular
  | foreign (typeName : String)
  | badKey (typeName : String)
  /-- An integer with more decimal digits than are written. -/
  | tooManyDigits (limit : Nat)
deriving DecidableEq, Repr, Inhabited

/-- The sentence that reports why a value is not data. -/
def NotData.message : NotData → String
  | .notFinite => "Out of range float values are not JSON compliant"
  | .circular => "Circular reference detected"
  | .foreign t => "Object of type " ++ t ++ " is not JSON serializable"
  | .badKey t => "keys must be str, int, float, bool or None, not " ++ t
  | .tooManyDigits limit =>
    "Exceeds the limit (" ++ toString limit
      ++ " digits) for integer string conversion; use sys.set_int_max_str_digits() to increase the limit"

/-- Why an operation did not return. -/
inductive Failure where
  /-- The kind of a node has no counterpart in documents. -/
  | unrepresentable (kind : Kind) (path : Path)
  | undefinedLiteral (path : Path)
  | bigintLiteral (path : Path)
  /-- A cycle that ends at a path, where cycles are not allowed. -/
  | cycle (path : Path)
  /-- A fallback that could not be computed without the refused value. -/
  | dynamicFallback (cause : Raised) (path : Path)
  | notData (reason : NotData)
  /-- A pattern with flags, which no keyword expresses. -/
  | flaggedPattern (source : String) (path : Path)
  | missingPattern (path : Path)
  /-- A wrapper around something that is not a node. -/
  | missingInner (found : Value) (path : Path)
  /-- A root that the survey has not visited. -/
  | unprocessed (kind : Kind)
  /-- A root that was emitted before. -/
  | reemitted (kind : Kind)
  /-- A document that stands alone cannot share its survey with another one. -/
  | sharedSurvey
  | idTaken (id : Value)
  | unusableFileName (id : Value)
  /-- A file that can be neither read nor written. -/
  | blocked (obstacle : Obstacle) (path : String)
  | configuration (message file : String) (field : Option String) (line : Option Int)
      (details : Option String)
  /-- A report that the user has made. -/
  | reported (report : Report)
  | settings (complaints : List Complaint)
  /-- An exception of the user that concerns no schema. -/
  | raised (cause : Raised)
  | noGetter (kind : Kind)
  /-- An entry of a custom fragment that is not a pair. -/
  | notPair (index length : Nat)
  | unknownLogLevel (given : String)
  /-- A text names something that does not exist. -/
  | outOfRange (what : Yaml.OutOfRange)
  /-- A name between low lines that no member may have. -/
  | reservedMember (name : String)
  /-- Names that no member may have. -/
  | forbiddenMembers (names : List String)
  /-- Members that are ignored after they are declared. -/
  | ignoredMembers (names : List String)
  /-- A field of a node does not change once it is made. -/
  | frozenField (name : String)
  /-- A child is not there, or is not a node. -/
  | missingChild
  /-- A value was used in a way that its kind does not allow. -/
  | misuse
  /-- A question that never comes to an answer. -/
  | endless
deriving DecidableEq, Repr, Inhabited

namespace Failure

/-- A report that cannot be made, as a failure. -/
def ofUnfit : Report.Unfit → Failure
  | .arguments => .misuse
  | .noText => .missingChild

/-- An exception of the user, as a failure. -/
def ofRaised (r : Raised) : Failure :=
  match ReportKind.ofName? r.className with
  | none => .raised r
  | some kind =>
    match Report.ofArguments kind r.arguments [] with
    | .ok report => .reported report
    | .error u => ofUnfit u

/-- How a diagnostic shows an exception. -/
def displayRaised (r : Raised) : String :=
  let arguments := match ofRaised r with
    | .reported report => [report.shown]
    | _ => r.arguments
  r.className ++ "(" ++ Value.commaSeparated (arguments.map Value.display) ++ ")"

/-- A report with a text and details. -/
def reportOf (kind : ReportKind) (message : String) (details : String) (facts : Facts := .nothing) :
    Report :=
  ⟨kind, .str message, .str details, facts⟩

/-- The report of a failure that concerns schemas. -/
def report? : Failure → Option Report
  | .unrepresentable kind path => some (reportOf .unrepresentable
      (unrepresentableMessage (kind.unrepresentableSubject?.getD kind.name))
      ("unrepresentable node at " ++ path.text) (.variant (.str kind.name)))
  | .undefinedLiteral path => some (reportOf .unrepresentable
      (unrepresentableMessage "Literal \x60undefined\x60")
      ("undefined literal at " ++ path.text) (.variant (.str Kind.literal.name)))
  | .bigintLiteral path => some (reportOf .unrepresentable
      (unrepresentableMessage "BigInt literals")
      ("bigint literal at " ++ path.text) (.variant (.str Kind.literal.name)))
  | .cycle path => some ⟨.cycle, .str (cycleMessage path), .null, .path path⟩
  | .dynamicFallback cause path => some (reportOf .dynamicFallback dynamicFallbackMessage
      ("catch fallback at " ++ path.text ++ " failed: " ++ displayRaised cause)
      (.cause cause.className))
  | .notData reason => some (reportOf .serialization "Error converting schema to JSON" reason.message)
  | .flaggedPattern source path => some (reportOf .definition
      "Regex flags cannot be expressed in a JSON Schema pattern"
      ("pattern " ++ Text.quoted source ++ " at " ++ path.text))
  | .missingPattern path => some (reportOf .definition "Pattern not found in template literal"
      ("template literal at " ++ path.text))
  | .missingInner found path => some (reportOf .definition "Wrapper node has no inner schema"
      ("wrapper at " ++ path.text ++ " wraps " ++ found.display))
  | .unprocessed kind => some (reportOf .unprocessed unprocessedMessage
      ("emit() called for " ++ kind.name ++ " node outside the session"))
  | .reemitted kind => some (reportOf .reemission reemissionMessage
      (kind.name ++ " root emitted twice in one session"))
  | .sharedSurvey => some (reportOf .reemission reemissionMessage
      "standalone emission shares a session with another emission")
  | .idTaken id => some
      { kind := .registry
        shown := .str ("ID '" ++ id.plain ++ "' already exists in the registry") }
  | .unusableFileName id => some
      { kind := .registry
        shown := .str ("Schema id '" ++ id.plain ++ "' cannot be used as a file name") }
  | .configuration message file field line details => some (.configuration (.str message)
      (.str file) (orNull (field.map .str)) (orNull (line.map .int)) (orNull (details.map .str)))
  | .reported report => some report
  | _ => none
where
  /-- A value, or `null` where there is none. -/
  orNull (v : Option Value) : Value := v.getD .null

/-- The class of a failure. -/
def label (f : Failure) : String :=
  match f.report? with
  | some report => report.kind.name
  | none =>
    match f with
    | .settings _ => "ValidationError"
    | .raised r => r.className
    | .blocked obstacle _ => obstacle.label
    | .notPair .. => "ValueError"
    | .unknownLogLevel _ => "ValueError"
    | .outOfRange what => what.label
    | .reservedMember _ => "ValueError"
    | .forbiddenMembers _ => "ValueError"
    | .ignoredMembers _ => "ValueError"
    | .frozenField _ => "FrozenInstanceError"
    | .missingChild => "AttributeError"
    | .endless => "RecursionError"
    | _ => "TypeError"

/-- What is shown of a failure; nothing for those without words. -/
def message? (f : Failure) : Option String :=
  match f.report? with
  | some report => some report.message
  | none =>
    match f with
    | .raised r => some r.message
    | .blocked obstacle path => some (obstacle.message path)
    | .noGetter kind => some (kind.name ++ " node has no lazy getter")
    | .notPair index length => some ("dictionary update sequence element #" ++ toString index
        ++ " has length " ++ toString length ++ "; 2 is required")
    | .unknownLogLevel given => some ("Unknown log level: " ++ given)
    | .outOfRange what => some what.message
    | .reservedMember name => some ("_sunder_ names, such as " ++ Text.quoted name
        ++ ", are reserved for future Enum use")
    | .forbiddenMembers names =>
      some ("invalid enum member name(s) " ++ ",".intercalate (names.map Text.quoted))
    | .ignoredMembers names =>
      some ("_ignore_ cannot specify already set names: "
        ++ (Value.items .set (names.map Value.str)).display)
    | .frozenField name => some ("cannot assign to field '" ++ name ++ "'")
    | _ => none

end Failure

end SchemaGraph
