import SchemaGraph.Path
import SchemaGraph.Text.Casing
import SchemaGraph.Value.Elements

namespace SchemaGraph

/-!
# Reports

A failure that concerns schemas has a report: a class, a message that may be shown to
anyone, details for the log, and facts to act on.

* `ReportKind`         — the classes of reports
* `Report.message`     — what is shown
* `Report.ofArguments` — a report of a class from the arguments of its maker
-/

/-- The classes of reports. -/
inductive ReportKind where
  | general
  | unrepresentable
  | cycle
  | dynamicFallback
  | serialization
  | definition
  | emission
  | unprocessed
  | reemission
  | registry
  | configuration
deriving DecidableEq, Repr, Inhabited

namespace ReportKind

/-- All classes. -/
def all : List ReportKind :=
  [.general, .unrepresentable, .cycle, .dynamicFallback, .serialization, .definition,
    .emission, .unprocessed, .reemission, .registry, .configuration]

/-- The name of a class. -/
def name : ReportKind → String
  | .general => "JsonShapeError"
  | .unrepresentable => "UnrepresentableTypeError"
  | .cycle => "CycleError"
  | .dynamicFallback => "DynamicFallbackError"
  | .serialization => "SerializationError"
  | .definition => "SchemaDefinitionError"
  | .emission => "EmissionError"
  | .unprocessed => "UnprocessedSchemaError"
  | .reemission => "ReemissionError"
  | .registry => "RegistryError"
  | .configuration => "ConfigurationError"

/-- The class of a name. -/
def ofName? (s : String) : Option ReportKind := all.find? fun k => k.name = s

/-- The class that a class refines. -/
def base? : ReportKind → Option ReportKind
  | .general => none
  | .unprocessed => some .emission
  | .reemission => some .emission
  | _ => some .general

/-- A class and all that it refines, the most general one last. -/
def lineage (k : ReportKind) : List ReportKind :=
  match k.base? with
  | none => [k]
  | some .general => [k, .general]
  | some b => [k, b, .general]

end ReportKind

/-- What a report says beyond its message.  A report that was made by hand may have any
    value where a text is usual. -/
inductive Facts where
  | nothing
  | variant (name : Value)
  | path (path : Path)
  | cause (className : String)
  | place (file field line : Value)
deriving DecidableEq, Repr, Inhabited

/-- What is known about a failure that concerns schemas. -/
structure Report where
  kind : ReportKind
  /-- What may be shown to anyone. -/
  shown : Value
  /-- What only the log may hold; a value that counts as false stands for nothing. -/
  details : Value := .null
  facts : Facts := .nothing
deriving DecidableEq, Repr, Inhabited

/-- The text of what may be shown. -/
def Report.message (r : Report) : String := r.shown.plain

/-! ### Wording -/

/-- The message about a kind that no document can express. -/
def unrepresentableMessage (subject : String) : String :=
  subject ++ " cannot be represented in JSON Schema"

/-- The message about a cycle that ends at a path. -/
def cycleMessage (path : Path) : String :=
  "Cycle detected: " ++ Path.text (path ++ [.name "<root>"]) ++ "\n\n" ++
    "Set the " ++ "\x60cycles\x60" ++
    " parameter to \"ref\" to resolve cyclical schemas with defs."

/-- The message about a fallback that cannot be known in advance. -/
def dynamicFallbackMessage : String := "Dynamic catch values are not supported in JSON Schema"

/-- The message about a root that was never visited. -/
def unprocessedMessage : String := "Schema must be processed before it can be emitted"

/-- The message about a survey that cannot be emitted again. -/
def reemissionMessage : String :=
  "A document was already emitted from this generator; use a new generator"

/-- A message with the place in a configuration file behind it, as far as known. -/
def placedMessage (message file field line : Value) : Value :=
  let part := fun (v : Value) (before after : String) =>
    if v.isTruthy then [before ++ v.plain ++ after] else []
  let parts := part file "in " "" ++ part line "line " "" ++ part field "field '" "'"
  if parts.isEmpty then message
  else .str (message.plain ++ " (" ++ ", ".intercalate parts ++ ")")

namespace Report

/-- A report about a place in a configuration file. -/
def configuration (message file field line details : Value) : Report where
  kind := .configuration
  shown := placedMessage message file field line
  details := details
  facts := .place file field line

/-! ### Reports made by hand -/

/-- Why the maker of a class makes no report. -/
inductive Unfit where
  /-- An argument is missing, not known, or not of a kind that can be used. -/
  | arguments
  /-- The name of a kind is no text. -/
  | noText
deriving DecidableEq, Repr

/-- What a report calls a kind that no document can express: the description of it, else
    its name with a capital letter. -/
def subject (variant description : Value) : Except Unfit String :=
  if description.isTruthy then .ok description.plain
  else
    match variant with
    | .str s => .ok (Text.capitalize s)
    | .foreign (.bytes s) => .ok (Value.foreign (.bytes (Text.capitalizeAscii s))).display
    | _ => .error .noText

/-- The named arguments that the maker of a class takes besides its first one. -/
def argumentNames : ReportKind → List String
  | .unrepresentable => ["description", "internal_details"]
  | .configuration => ["file_path", "field_path", "line_number", "internal_details"]
  | _ => ["internal_details"]

/-- The name of the first argument, for the classes that take one. -/
def firstArgument? : ReportKind → Option String
  | .unrepresentable => some "variant"
  | .cycle => some "path"
  | .dynamicFallback => none
  | .unprocessed => none
  | .reemission => none
  | _ => some "user_message"

/-- The first argument, given by place or by name, and no argument too many. -/
def firstValue (kind : ReportKind) (args : List Value) (named : Entries) :
    Except Unfit Value :=
  let rest := argumentNames kind
  let known := fun (extra : List String) =>
    (Entries.keys named).all fun k => (extra ++ rest).any fun n => k = .str n
  match firstArgument? kind, args with
  | none, [] => if known [] then .ok .null else .error .arguments
  | none, _ => .error .arguments
  | some _, [v] => if known [] then .ok v else .error .arguments
  | some name, [] =>
    match named.get? name with
    | some v => if known [name] then .ok v else .error .arguments
    | none => .error .arguments
  | some _, _ => .error .arguments

/-- The report that the maker of a class returns. -/
def ofArguments (kind : ReportKind) (args : List Value) (named : Entries) :
    Except Unfit Report := do
  let first ← firstValue kind args named
  let argument := fun (name : String) => (named.get? name).getD .null
  let details := argument "internal_details"
  match kind with
  | .unrepresentable =>
    let subject ← subject first (argument "description")
    .ok ⟨kind, unrepresentableMessage subject, details, .variant first⟩
  | .cycle =>
    match first.elements? with
    | some steps =>
      let path := steps.map PathItem.ofValue
      .ok ⟨kind, cycleMessage path, details, .path path⟩
    | none => .error .arguments
  | .dynamicFallback => .ok ⟨kind, dynamicFallbackMessage, details, .nothing⟩
  | .unprocessed => .ok ⟨kind, unprocessedMessage, details, .nothing⟩
  | .reemission => .ok ⟨kind, reemissionMessage, details, .nothing⟩
  | .configuration => .ok (configuration first (argument "file_path") (argument "field_path")
      (argument "line_number") details)
  | _ => .ok ⟨kind, first, details, .nothing⟩

end Report

end SchemaGraph
