import SchemaGraph.Command.Failure
import SchemaGraph.Command.Reference
import SchemaGraph.Command.Usage
import SchemaGraph.Export
import SchemaGraph.Terminal

namespace SchemaGraph.Command

/-!
# The command line

A group of three commands: one exports a node, one a catalog, and one looks at the file
with the settings.  A command runs in surroundings, with modules whose names it can use,
and has an outcome: a code, what it shows, what is recorded, and the files it writes.

* `Command.run`  — runs the group on the words behind its name
* `commandNames` — the names of the commands
-/

/-- What ends a command although nobody foresaw it. -/
inductive Accident where
  | failure (f : Failure)
  /-- A message that cannot be shown. -/
  | markup (fault : Terminal.MarkupFault)
deriving DecidableEq, Repr

/-- The sentence that reports an accident. -/
def Accident.message : Accident → String
  | .failure f => f.label ++ ": " ++ f.message?.getD ""
  | .markup fault => fault.label ++ ": " ++ fault.message

/-- What a command leaves behind. -/
structure Outcome where
  exitCode : Nat := 0
  /-- What cut the command short. -/
  accident : Option Accident := none
  output : String := ""
  files : List File := []
  events : List Event := []
deriving Repr

/-- The outcome of an accident. -/
def Accident.outcome (a : Accident) : Outcome :=
  { exitCode := CommandFailure.userCode, accident := some a }

/-- What a command works on. -/
structure Workplace where
  surroundings : Surroundings := {}
  modules : List NamedModule := []
  store : Store := {}

/-! ### Options -/

/-- The words of a closed choice. -/
def wordsOf (α : Type) [Choice α] : List String := (Choice.all : List α).map Choice.word

/-- The option that asks for help. -/
def helpOption : OptionSpec := { key := "help", names := ["--help"], kind := .flag, ends := true }

/-- The environment variable that names the file with the settings. -/
def settingsVariable : String := "JSONSHAPE_CONFIG"

/-- The options of the group. -/
def groupOptions : List OptionSpec :=
  [{ key := "version", names := ["--version"], kind := .flag, ends := true },
    { key := "no_color", names := ["--no-color"], kind := .flag },
    { key := "log_level"
      names := ["--log-level"]
      kind := .choice ["DEBUG", "INFO", "WARNING", "ERROR", "CRITICAL"] true
      envVar := some "JSONSHAPE_LOG_LEVEL"
      default := some "WARNING" },
    helpOption]

/-- The options of every export. -/
def exportOptions : List OptionSpec :=
  [{ key := "config"
     names := ["-c", "--config"]
     kind := .filePath
     envVar := some settingsVariable },
    { key := "target", names := ["--target"], kind := .choice (wordsOf Target) false },
    { key := "io", names := ["--io"], kind := .choice (wordsOf Side) false },
    { key := "unrepresentable"
      names := ["--unrepresentable"]
      kind := .choice (wordsOf Unrepresentable) false },
    { key := "cycles", names := ["--cycles"], kind := .choice (wordsOf CyclePolicy) false },
    { key := "reused", names := ["--reused"], kind := .choice (wordsOf ReusePolicy) false },
    helpOption]

/-- The options over the settings in the file. -/
def overrides (values : Values) : Entries :=
  ["target", "io", "unrepresentable", "cycles", "reused", "uri_template"].map fun key =>
    (.str key, textOrNull (values.get? key))

/-! ### Outcomes -/

/-- The outcome of a command that shows messages.  One that cannot be shown is an accident. -/
def showing (exitCode : Nat) : List String → Outcome
  | [] => { exitCode }
  | message :: rest =>
    match Terminal.shown message with
    | .error fault => (Accident.markup fault).outcome
    | .ok text =>
      let behind := showing exitCode rest
      { behind with output := text ++ "\n" ++ behind.output }

/-- The outcome of a command that failed. -/
def CommandFailure.outcome : CommandFailure → Outcome
  | .told message exitCode => showing exitCode [Terminal.error message]
  | .unforeseen f => (Accident.failure f).outcome

/-- The outcome of a command whose reference leads nowhere, which is a mistake of the user. -/
def ReferenceError.outcome (e : ReferenceError) : Outcome :=
  match e.report with
  | .ok message => CommandFailure.outcome (.told message CommandFailure.userCode)
  | .error f => (Accident.failure f).outcome

/-! ### Commands -/

/-- What a command does with its options and arguments. -/
abbrev Activity := Workplace → Values → List String → Outcome

/-- A command. -/
structure CommandSpec where
  name : String
  options : List OptionSpec
  /-- The names of the arguments. -/
  arguments : List String
  activity : Activity

/-- Runs an export of something that a reference leads to.  The settings are looked at
    first. -/
def exporting {α β : Type} (place : Workplace) (values : Values) (find : Lookup α)
    (action destination : String)
    (task : Export → α → Store → Except CommandFailure (Action Export.Progress β))
    (outcome : β → Outcome) : Outcome :=
  let folder := place.surroundings.folder
  match resolveSettings folder (values.get? "config") (overrides values) with
  | .error f => CommandFailure.outcome f
  | .ok settings =>
    -- Looking something up may run functions, which leave events.
    let (found, store) := find.run.run { place.store with events := [] }
    match found with
    | .error e => { ReferenceError.outcome e with events := store.events }
    | .ok subject =>
      match task { base := some settings } subject store with
      | .error f => { CommandFailure.outcome f with events := store.events }
      | .ok task =>
        let (result, final) := task.run.run { conversion := .start store, folder }
        let ended := match result with
          | .ok b => outcome b
          | .error f => CommandFailure.outcome (f.told action destination)
        { ended with
          files := final.written
          events := store.events ++ final.conversion.store.events }

/-- The reference that a command is given. -/
def referenceOf (arguments : List String) : String := arguments.headD ""

/-- Exports a node: to a file, or onto the terminal. -/
def exportNode : Activity := fun place values arguments =>
  let output := values.get? "output"
  exporting place values (Reference.node place.modules (referenceOf arguments))
    "Schema export" (output.getD "None")
    (fun x n _ => .ok (x.document n output))
    (fun document =>
      match output with
      | none => { output := Json.text Json.terminalStyle document ++ "\n" }
      | some path => showing 0 [Terminal.success ("Schema exported to " ++ path)])

/-- The refusal to export a catalog without ids. -/
def emptyCatalog (reference : String) : CommandFailure :=
  .told ("Registry '" ++ reference ++ "' has no schemas with an id") CommandFailure.userCode

/-- Exports a catalog into a directory. -/
def exportCatalog : Activity := fun place values arguments =>
  let directory := (values.get? "output_dir").getD ""
  let reference := referenceOf arguments
  exporting place values (Reference.catalog place.modules reference)
    "Registry export" directory
    (fun x name store =>
      -- Only now is it known whether there are ids.
      if (store.catalog name).ids.isEmpty then .error (emptyCatalog reference)
      else .ok (x.documents name (some directory)))
    (fun documents =>
      let lines := documents.map fun (id, _) => "  " ++ id.plain ++ ".json"
      let summary := "Exported " ++ toString documents.length ++ " schema(s) to " ++ directory
      showing 0 (lines ++ [Terminal.success summary]))

/-- Looks at the file with the settings and shows them. -/
def validate : Activity := fun place values _ =>
  let path := (values.get? "file").getD ""
  match fileSettings place.surroundings.folder path "--file" with
  | .error f => CommandFailure.outcome f
  | .ok settings =>
    let lines := settings.entries.map fun (key, v) => "  " ++ key.plain ++ ": " ++ v.plain
    showing 0 (Terminal.success "Configuration valid" :: lines)

/-- All commands, by name. -/
def commands : List CommandSpec :=
  [{ name := "export"
     options := { key := "output", names := ["-o", "--output"], kind := .filePath }
       :: exportOptions
     arguments := ["MODULE:ATTR"]
     activity := exportNode },
    { name := "export-registry"
      options :=
        [{ key := "output_dir"
           names := ["-o", "--output-dir"]
           kind := .directoryPath
           default := some "./schemas" },
          { key := "uri_template", names := ["--uri-template"] }] ++ exportOptions
      arguments := ["MODULE:ATTR"]
      activity := exportCatalog },
    { name := "validate"
      options :=
        [{ key := "file"
           names := ["-f", "--file"]
           kind := .path
           envVar := some settingsVariable
           default := some "./jsonshape.yaml" },
          helpOption]
      arguments := []
      activity := validate }]

/-- The names of the commands. -/
def commandNames : List String := commands.map (·.name)

/-- The command of a name. -/
def command? (name : String) : Option CommandSpec := commands.find? fun c => c.name = name

/-! ### Running -/

/-- A short account of how to use a command. -/
def helpLines (usage : String) (options : List OptionSpec) (names : List String) : List String :=
  ("Usage: " ++ usage) :: "" :: "Options:" ::
    options.map (fun o => "  " ++ ", ".intercalate o.names)
    ++ if names.isEmpty then [] else "" :: "Commands:" :: names.map ("  " ++ ·)

/-- The outcome of plain lines. -/
def plainOutcome (lines : List String) : Outcome :=
  { output := "".intercalate (lines.map (· ++ "\n")) }

/-- The number of the lowest level of events that are let through. -/
def thresholdOf (values : Values) : Nat :=
  match LogLevel.threshold ((values.get? "log_level").getD "") with
  | .ok n => n
  | .error _ => 0

/-- Runs a command on the words behind its name. -/
def CommandSpec.run (c : CommandSpec) (place : Workplace) (threshold : Nat)
    (words : List String) : Except UsageError Outcome := do
  let given ← scan c.options true words.length words {}
  if given.ending?.isSome then
    let usage := " ".intercalate ("jsonshape" :: c.name :: "[OPTIONS]" :: c.arguments)
    .ok (plainOutcome (helpLines usage c.options []))
  else
    let (values, arguments) ← check place.surroundings c.options c.arguments given
    let outcome := c.activity place values arguments
    -- Events are recorded all the same, and let through by their level.
    .ok { outcome with events := outcome.events.filter fun e => threshold ≤ e.level.number }

/-- What the options of the group come to: an outcome, or the values of the options and the
    words behind them. -/
def readGroup (place : Workplace) (words : List String) :
    Except UsageError (Outcome ⊕ Values × List String) := do
  let given ← scan groupOptions false words.length words {}
  match given.ending? with
  | some o =>
    if o.key = "version" then .ok (.inl (plainOutcome ["jsonshape, version 0.1.0"]))
    else
      let usage := "jsonshape [OPTIONS] COMMAND [ARGS]..."
      .ok (.inl (plainOutcome (helpLines usage groupOptions commandNames)))
  | none =>
    let (values, _) ←
      check place.surroundings groupOptions [] { given with arguments := [] }
    .ok (.inr (values, given.arguments))

/-- The end of a call whose first word is no command.  A word that looks like an option is
    read as one first. -/
def unknownCommand (place : Workplace) (name : String) (rest : List String) :
    Except UsageError Outcome := do
  if name.startsWith "-" then
    -- As an option it may be at fault, and that is reported instead.
    match ← readGroup place (name :: rest) with
    | .inl outcome => .ok outcome
    | .inr _ => .error (.noSuchCommand name)
  else .error (.noSuchCommand name)

/-- Runs the group on the words behind its name, unless they are at fault. -/
def runWords (place : Workplace) (words : List String) : Except UsageError Outcome := do
  if words.isEmpty then .error .nothingGiven
  else
    match ← readGroup place words with
    | .inl outcome => .ok outcome
    | .inr (_, []) => .error .missingCommand
    | .inr (values, name :: rest) =>
      match command? name with
      | some c => c.run place (thresholdOf values) rest
      | none => unknownCommand place name rest

/-- Runs the group on the words behind its name.  A path that cannot be looked up is an
    accident. -/
def run (place : Workplace) (words : List String) : Except UsageError Outcome :=
  match runWords place words with
  -- No usage is at fault where the system refuses to look.
  | .error (.obstructed obstacle path) =>
    .ok (Accident.failure (.blocked obstacle path)).outcome
  | result => result

end SchemaGraph.Command
