import SchemaGraph.Path
import SchemaGraph.Settings
import SchemaGraph.Value.Datum
import SchemaGraph.Value.Display

namespace SchemaGraph

/-!
# Reading settings

Settings are read from a mapping of option names to data.  What a datum is taken for, and what
is reported of the mapping as a whole, is up to a library that checks options; which options
there are, their order, their words and their defaults is not.  The usual library checks every
option that is known and present in the order of the fields, then refuses every other key in the
order given, and reports all complaints together.

* `Validator` — a library that checks options
* `Validator.standard` — the usual one
* `LoweringSettings.read`, `EmissionSettings.read`, `ExportSettings.read`
* `….entries` — the mapping that is read back as the same settings
-/

/-- What is wrong with an option. -/
inductive Fault where
  /-- The value is none of the words. -/
  | notAmong (words : List String)
  /-- No option has this name. -/
  | unknownOption
  | notText
  /-- The text has codes that are no characters. -/
  | illFormedText
  | emptyText
  | noPlaceholder
  /-- Settings do not change once they are made. -/
  | frozen
  /-- There are no options here at all. -/
  | notMapping (name : String)
  | keyNotText
deriving DecidableEq, Repr

/-- A fault and the place of the option. -/
structure Complaint where
  place : Path
  fault : Fault
deriving DecidableEq, Repr

/-- Words in single quotes, the last one behind `or`. -/
def alternatives (words : List String) : String :=
  let shown := words.map fun w => "'" ++ w ++ "'"
  match shown.reverse with
  | [] => ""
  | [w] => w
  | last :: before => ", ".intercalate before.reverse ++ " or " ++ last

/-- The sentence that reports a fault. -/
def Fault.message : Fault → String
  | .notAmong words => "Input should be " ++ alternatives words
  | .unknownOption => "Extra inputs are not permitted"
  | .notText => "Input should be a valid string"
  | .illFormedText =>
    "Input should be a valid string, unable to parse raw data as a unicode string"
  | .emptyText => "String should have at least 1 character"
  | .noPlaceholder => "Value error, uri_template must contain \x7bid\x7d"
  | .frozen => "Instance is frozen"
  | .notMapping name => "Input should be a valid dictionary or instance of " ++ name
  | .keyNotText => "Keys should be strings"

/-- The short name of a fault. -/
def Fault.code : Fault → String
  | .notAmong _ => "enum"
  | .unknownOption => "extra_forbidden"
  | .notText => "string_type"
  | .illFormedText => "string_unicode"
  | .emptyText => "string_too_short"
  | .noPlaceholder => "value_error"
  | .frozen => "frozen_instance"
  | .notMapping _ => "model_type"
  | .keyNotText => "invalid_key"

/-- The value read for an option, and what is wrong with it. -/
structure Reading (α : Type) where
  value : α
  complaint? : Option Complaint

/-! ### Checking -/

/-- A library that checks options: what it takes data for, and what it reports. -/
structure Validator where
  /-- The options in a datum, for settings with this name. -/
  mapping : String → Datum → Except Complaint Options
  /-- The text that a datum is taken for. -/
  text : Datum → Except Fault String
  /-- Which one of several words a datum is taken for. -/
  word : List String → Datum → Except Fault String
  /-- All that is reported of options, from the names that are known and from the complaints about
      what stands under these names, in the order of the fields. -/
  report : List String → Options → List Complaint → List Complaint
  /-- How complaints are told in the logs, if at all. -/
  explain : List Complaint → Option String

/-- The options in a datum; it must be a mapping. -/
def readMapping (name : String) (d : Datum) : Except Complaint Options :=
  match d.options? with
  | some options => .ok options
  | none => .error ⟨[], .notMapping name⟩

/-- The text of an option; bytes stand for a text. -/
def readText : Datum → Except Fault String
  | .atom (.value (.str s)) => .ok s
  | .atom (.value (.foreign (.bytes s))) => .ok s
  | .atom (.illFormed ..) => .error .illFormedText
  | _ => .error .notText

/-- The text of an option that must be one of several words. -/
def readWord (words : List String) (d : Datum) : Except Fault String :=
  match readText d with
  | .ok s => if s ∈ words then .ok s else .error (.notAmong words)
  -- What is no text at all is reported like a text that is none of the words.
  | .error .notText => .error (.notAmong words)
  | .error other => .error other

/-- The place of a key. -/
def keyPlace : Atom → PathItem
  | .value (.str s) => .name s
  | .value (.int i) => .index i
  -- Truth values count as numbers.
  | .value (.bool b) => .index (if b then 1 else 0)
  | .value v => .name v.display
  | .illFormed codes _ => .name (Text.quotedCodes codes)

/-- What is wrong with a key: it is none of the names that are known, or no text at all. -/
def keyComplaint? (known : List String) : Atom → Option Complaint
  | .value (.str s) => if known.contains s then none else some ⟨[.name s], .unknownOption⟩
  | key => some ⟨[keyPlace key], .keyNotText⟩

/-- A complaint about every key that no option has. -/
def unknownKeys (known : List String) (given : Options) : List Complaint :=
  given.filterMap fun e => keyComplaint? known e.1

/-- The complaints about options, then those about keys.  A key that is an ill-formed text is the
    only thing that is reported. -/
def reportAll (known : List String) (given : Options) (complaints : List Complaint) :
    List Complaint :=
  -- Such a key is met before any option is read.
  if given.any fun e => e.1.isIllFormed then [⟨[], .illFormedText⟩]
  else complaints ++ unknownKeys known given

namespace Validator

/-- The usual library.  What it writes to the logs is left out. -/
def standard : Validator where
  mapping := readMapping
  text := readText
  word := readWord
  report := reportAll
  explain _ := none

variable (V : Validator)

/-- The alternative whose word a datum is taken for. -/
def choice {α : Type} [Choice α] (d : Datum) : Except Fault α :=
  let words := (Choice.all : List α).map Choice.word
  match V.word words d with
  | .ok w =>
    match (Choice.all : List α).find? fun a => Choice.word a = w with
    | some a => .ok a
    | none => .error (.notAmong words)
  | .error fault => .error fault

/-- The template that a datum is taken for: a text with the place of the id. -/
def template (d : Datum) : Except Fault UriTemplate := do
  let s ← V.text d
  if s = "" then .error .emptyText
  else if h : hasPlaceholder s.toList = true then .ok ⟨s, h⟩
  else .error .noPlaceholder

end Validator

/-- The template that a value is taken for. -/
def readTemplate (v : Value) : Except Fault UriTemplate := Validator.standard.template (.value v)

/-- An option by its name; the default if it is absent. -/
def readOption {α : Type} (given : Options) (name : String) (default : α)
    (read : Datum → Except Fault α) : Reading α :=
  match given.get? name with
  | none => ⟨default, none⟩
  | some d =>
    match read d with
    | .ok a => ⟨a, none⟩
    -- Reading goes on with the default, so that all complaints are found.
    | .error fault => ⟨default, some ⟨[.name name], fault⟩⟩

/-- The settings in options, by the names and the fields that they have, if nothing is reported. -/
def readSettings {α : Type} (V : Validator) (known : List String)
    (fields : Options → α × List Complaint) (given : Options) : Except (List Complaint) α :=
  let (settings, complaints) := fields given
  let reported := V.report known given complaints
  if reported.isEmpty then .ok settings else .error reported

/-- What is wrong with giving a new value to a field of settings: settings are frozen.  Only
    names that begin with a low line are no concern of theirs. -/
def assignmentFault? (name : String) : Option Complaint :=
  if name.toList.head? = some '_' then none else some ⟨[.name name], .frozen⟩

/-! ### Lowering -/

/-- The names of the options of the lowering. -/
def LoweringSettings.optionNames : List String := ["target", "unrepresentable", "io"]

/-- The fields of the lowering and the complaints about them. -/
def LoweringSettings.fields (V : Validator) (given : Options) :
    LoweringSettings × List Complaint :=
  let target := readOption given "target" Target.draft2020 V.choice
  let unrepresentable := readOption given "unrepresentable" Unrepresentable.reject V.choice
  let side := readOption given "io" Side.output V.choice
  (⟨target.value, unrepresentable.value, side.value⟩,
    [target.complaint?, unrepresentable.complaint?, side.complaint?].filterMap id)

/-- Settings of the lowering from options. -/
def LoweringSettings.read (given : Entries) : Except (List Complaint) LoweringSettings :=
  readSettings .standard optionNames (fields .standard) (.ofEntries given)

/-- Settings of the lowering as options. -/
def LoweringSettings.entries (s : LoweringSettings) : Entries :=
  [("target", Choice.word s.target), ("unrepresentable", Choice.word s.unrepresentable),
    ("io", Choice.word s.side)]

/-! ### Emission -/

/-- The names of the options of the emission. -/
def EmissionSettings.optionNames : List String := ["cycles", "reused"]

/-- The fields of the emission and the complaints about them. -/
def EmissionSettings.fields (V : Validator) (given : Options) :
    EmissionSettings × List Complaint :=
  let cycles := readOption given "cycles" CyclePolicy.refer V.choice
  let reused := readOption given "reused" ReusePolicy.inline V.choice
  (⟨cycles.value, reused.value⟩, [cycles.complaint?, reused.complaint?].filterMap id)

/-- Settings of the emission from options. -/
def EmissionSettings.read (given : Entries) : Except (List Complaint) EmissionSettings :=
  readSettings .standard optionNames (fields .standard) (.ofEntries given)

/-- Settings of the emission as options. -/
def EmissionSettings.entries (s : EmissionSettings) : Entries :=
  [("cycles", Choice.word s.cycles), ("reused", Choice.word s.reused)]

/-! ### Export -/

/-- The names of all options. -/
def ExportSettings.optionNames : List String :=
  LoweringSettings.optionNames ++ EmissionSettings.optionNames ++ ["uri_template"]

/-- The fields of an export and the complaints about them. -/
def ExportSettings.fields (V : Validator) (given : Options) : ExportSettings × List Complaint :=
  let (lowering, onLowering) := LoweringSettings.fields V given
  let (emission, onEmission) := EmissionSettings.fields V given
  let template := readOption given "uri_template" UriTemplate.bare V.template
  (⟨lowering, emission, template.value⟩,
    onLowering ++ onEmission ++ [template.complaint?].filterMap id)

/-- Settings of an export from options that a library checks. -/
def ExportSettings.readBy (V : Validator) (given : Options) :
    Except (List Complaint) ExportSettings :=
  readSettings V optionNames (fields V) given

/-- Settings of an export from options. -/
def ExportSettings.read (given : Entries) : Except (List Complaint) ExportSettings :=
  readBy .standard (.ofEntries given)

/-- Settings of an export as options. -/
def ExportSettings.entries (s : ExportSettings) : Entries :=
  s.lowering.entries ++ s.emission.entries ++ [(.str "uri_template", .str s.uriTemplate.text)]

/-- Options read over settings that are there already.  Without options the settings are
    taken as they are. -/
def overlay {α : Type} (read : Entries → Except (List Complaint) α) (entries : α → Entries)
    (base : Option α) (options : Entries) : Except (List Complaint) α :=
  match base with
  | none => read options
  | some settings =>
    -- What was read once is read again, with the options over it.
    if options.isEmpty then .ok settings else read ((entries settings).update options)

end SchemaGraph
