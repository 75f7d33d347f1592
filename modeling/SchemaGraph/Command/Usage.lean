import SchemaGraph.Failure
import SchemaGraph.Text.Quoted
import SchemaGraph.Text.Similarity

namespace SchemaGraph.Command

/-!
# Words on the command line

A command takes options by name and arguments by place.  An option that is not given may
stand in an environment variable, or has a default.  The words are first told apart, then
the options are checked: those given in the order in which they were given, behind them
the others in the order of their declaration.

* `Command.scan`    — tells options and arguments apart
* `Command.check`   — checks the options and the arguments
* `UsageError`      — what can be wrong
-/

/-- What an option stands for. -/
inductive OptionKind where
  /-- The option has no value. -/
  | flag
  | text
  /-- A path that may lead anywhere. -/
  | path
  /-- One of several words, in any case if so marked. -/
  | choice (words : List String) (anyCase : Bool)
  /-- A path that leads to no directory. -/
  | filePath
  /-- A path that leads to no file. -/
  | directoryPath
deriving DecidableEq, Repr

/-- An option of a command. -/
structure OptionSpec where
  /-- The key under which the value is kept. -/
  key : String
  names : List String
  kind : OptionKind := .text
  /-- The environment variable that stands in for the option. -/
  envVar : Option String := none
  default : Option String := none
  /-- Whether nothing else happens if the option is given. -/
  ends : Bool := false
deriving DecidableEq, Repr

/-- What can be wrong with the words on a command line. -/
inductive UsageError where
  /-- No option has this name; some have similar ones. -/
  | noSuchOption (name : String) (similar : List String)
  | needsArgument (name : String)
  | takesNoValue (name : String)
  | invalidValue (names : List String) (complaint : String)
  | missingArgument (name : String)
  | extraArguments (given : List String)
  | noSuchCommand (name : String)
  | missingCommand
  /-- A path that cannot even be looked up. -/
  | obstructed (obstacle : Obstacle) (path : String)
  /-- A group of commands was called without a word. -/
  | nothingGiven
deriving DecidableEq, Repr

/-- A question for what may have been meant. -/
def suggestion (similar : List String) : String :=
  let shown := similar.map fun s => "'" ++ s ++ "'"
  match shown with
  | [] => ""
  | [one] => " Did you mean " ++ one ++ "?"
  | several => " (Did you mean one of: " ++ ", ".intercalate several ++ "?)"

/-- The sentence that reports an error. -/
def UsageError.message : UsageError → String
  | .noSuchOption name similar =>
    "No such option " ++ Text.quoted name ++ "." ++ suggestion similar
  | .needsArgument name => "Option " ++ Text.quoted name ++ " requires an argument."
  | .takesNoValue name => "Option " ++ Text.quoted name ++ " does not take a value."
  | .invalidValue names complaint =>
    "Invalid value for " ++ " / ".intercalate (names.map fun n => "'" ++ n ++ "'") ++ ": "
      ++ complaint
  | .missingArgument name => "Missing argument '" ++ name ++ "'."
  | .extraArguments given =>
    (if given.length = 1 then "Got unexpected extra argument ("
      else "Got unexpected extra arguments (") ++ " ".intercalate given ++ ")"
  | .noSuchCommand name => "No such command " ++ Text.quoted name ++ "."
  | .missingCommand => "Missing command."
  | .obstructed obstacle path => obstacle.message path
  | .nothingGiven => ""

/-! ### Telling words apart -/

/-- The names of options that begin with two hyphens. -/
def longNames (specs : List OptionSpec) : List String :=
  (specs.flatMap (·.names)).filter fun n => n.startsWith "--"

/-- The option of a name. -/
def option? (specs : List OptionSpec) (name : String) : Option OptionSpec :=
  specs.find? fun s => s.names.contains name

/-- The words on a command line, told apart. -/
structure Words where
  options : List (OptionSpec × String) := []
  arguments : List String := []
deriving Repr

/-- Takes the value of an option: the text behind its equals sign, or the next word. -/
def takeValue (name : String) (attached : Option String) (rest : List String) :
    Except UsageError (String × List String) :=
  match attached, rest with
  | some v, _ => .ok (v, rest)
  | none, v :: rest => .ok (v, rest)
  | none, [] => .error (.needsArgument name)

/-- A word split at its first equals sign. -/
def splitEquals (word : String) : String × Option String :=
  let cs := word.toList
  let name := cs.takeWhile (· ≠ '=')
  match cs.drop name.length with
  | _ :: value => (String.ofList name, some (String.ofList value))
  | [] => (word, none)

/-- Options of one letter, several of them behind one hyphen; the rest of the word behind
    an option with a value is the value. -/
def letters (specs : List OptionSpec) :
    List Char → List String → Except UsageError (List (OptionSpec × String) × List String)
  | [], rest => .ok ([], rest)
  | c :: cs, rest =>
    let name := String.ofList ['-', c]
    match option? specs name with
    | none => .error (.noSuchOption name [])
    | some spec =>
      if spec.kind = .flag then do
        let (more, rest) ← letters specs cs rest
        .ok ((spec, "") :: more, rest)
      else do
        -- What is left of the word is the value.
        let attached := if cs.isEmpty then none else some (String.ofList cs)
        let (v, rest) ← takeValue name attached rest
        .ok ([(spec, v)], rest)

/-- A word that begins with a hyphen, and the value behind it. -/
def optionWord (specs : List OptionSpec) (word : String) (rest : List String) :
    Except UsageError (List (OptionSpec × String) × List String) :=
  let (name, attached) := splitEquals word
  -- An equals sign belongs to a value only behind two hyphens.
  match (option? specs name).filter fun _ => name.startsWith "--" with
  | some spec =>
    if spec.kind = .flag then
      match attached with
      | some _ => .error (.takesNoValue name)
      | none => .ok ([(spec, "")], rest)
    else do
      let (v, rest) ← takeValue name attached rest
      .ok ([(spec, v)], rest)
  | none =>
    if word.startsWith "--" then
      .error (.noSuchOption name (Text.similarWords name (longNames specs)))
    else letters specs word.toList.tail rest

/-- Tells options and arguments apart.  Where arguments may not stand among options, the
    first argument ends the options; two hyphens always do. -/
def scan (specs : List OptionSpec) (mixed : Bool) :
    Nat → List String → Words → Except UsageError Words
  | 0, rest, ws => .ok { ws with arguments := ws.arguments ++ rest }
  | _ + 1, [], ws => .ok ws
  | fuel + 1, word :: rest, ws =>
    if word = "--" then .ok { ws with arguments := ws.arguments ++ rest }
    -- A hyphen alone is an argument.
    else if word.startsWith "-" && word ≠ "-" then do
      let (given, rest) ← optionWord specs word rest
      scan specs mixed fuel rest { ws with options := ws.options ++ given }
    else if mixed then
      scan specs mixed fuel rest { ws with arguments := ws.arguments ++ [word] }
    else .ok { ws with arguments := ws.arguments ++ word :: rest }

/-! ### Checking values -/

/-- Where a command runs. -/
structure Surroundings where
  folder : Folder := {}
  environment : List (String × String) := []

/-- The value of an environment variable; an empty one counts as absent. -/
def Surroundings.setting? (s : Surroundings) (name : String) : Option String :=
  ((s.environment.find? fun v => v.1 = name).map (·.2)).filter (· ≠ "")

/-- What a path on the command line leads to, if anything. -/
def pathEntry? (folder : Folder) (v : String) : Except UsageError (Option FileEntry) :=
  match folder.find v with
  | .ok e => .ok (some e)
  | .error .nullCharacter => .error (.obstructed .nullCharacter v)
  | .error _ => .ok none

/-- What is wrong with the value of an option. -/
def complaint? (folder : Folder) (kind : OptionKind) (v : String) :
    Except UsageError (Option String) := do
  match kind with
  | .flag => .ok none
  | .text => .ok none
  | .choice words anyCase =>
    let shown := if anyCase then words.map String.toLower else words
    let given := if anyCase then v.toLower else v
    .ok (if shown.contains given then none
      else some (Text.quoted v ++ " is not one of "
        ++ ", ".intercalate (shown.map Text.quoted) ++ "."))
  -- Where it leads does not matter, but it has to be looked up.
  | .path =>
    let _ ← pathEntry? folder v
    .ok none
  | .filePath =>
    match ← pathEntry? folder v with
    | some .directory => .ok (some ("File " ++ Text.quoted v ++ " is a directory."))
    | _ => .ok none
  | .directoryPath =>
    match ← pathEntry? folder v with
    | some (.file _) => .ok (some ("Directory " ++ Text.quoted v ++ " is a file."))
    | _ => .ok none

/-- The values of options by their keys. -/
abbrev Values := List (String × String)

/-- The value of an option: the last one given, else the one in the environment, else the
    default. -/
def valueOf? (place : Surroundings) (ws : Words) (spec : OptionSpec) : Option String :=
  -- Of an option that is given several times the last value counts.
  match (ws.options.reverse.find? fun o => o.1.key = spec.key).map (·.2) with
  | some v => some v
  | none => (spec.envVar.bind place.setting?).or spec.default

/-- The value of an option, if nothing is wrong with it. -/
def checkOption (place : Surroundings) (ws : Words) (spec : OptionSpec) :
    Except UsageError Values :=
  match valueOf? place ws spec with
  | none => .ok []
  | some v => do
    match ← complaint? place.folder spec.kind v with
    | some c => .error (.invalidValue spec.names c)
    | none => .ok [(spec.key, v)]

/-- The values of several options. -/
def checkOptions (place : Surroundings) (ws : Words) :
    List OptionSpec → Except UsageError Values
  | [] => .ok []
  | spec :: rest => do
    let v ← checkOption place ws spec
    let vs ← checkOptions place ws rest
    .ok (v ++ vs)

/-- Options without repetition, in the order in which they were given. -/
def givenSpecs (ws : Words) : List OptionSpec :=
  ws.options.foldl (fun seen o => if seen.contains o.1 then seen else seen ++ [o.1]) []

/-- The first of the given options that lets nothing else happen. -/
def Words.ending? (ws : Words) : Option OptionSpec := (ws.options.map (·.1)).find? (·.ends)

/-- The checked options and arguments of a command with the given named arguments. -/
def check (place : Surroundings) (specs : List OptionSpec) (names : List String) (ws : Words) :
    Except UsageError (Values × List String) := do
  let given := givenSpecs ws
  let before ← checkOptions place ws given
  -- Arguments that are missing come before faults of options that were not given.
  match names.drop ws.arguments.length with
  | name :: _ => .error (.missingArgument name)
  | [] =>
    let behind ← checkOptions place ws (specs.filter fun s => !given.contains s)
    match ws.arguments.drop names.length with
    | [] => .ok (before ++ behind, ws.arguments)
    | extra => .error (.extraArguments extra)

/-- The value of a key. -/
def Values.get? (vs : Values) (key : String) : Option String :=
  (vs.find? fun v => v.1 = key).map (·.2)

end SchemaGraph.Command
