import SchemaGraph.Settings.Loading

namespace SchemaGraph

/-!
# Failures of commands

A command tells its user what went wrong and ends with a code: one for mistakes of the
user, two for what is missing around the command.  What nobody foresaw is not told.

* `Failure.told`    — a failure of an action as a command reports it
* `resolveSettings` — the settings in a file, if there is one, with options over them
-/

/-- Why a command did not succeed. -/
inductive CommandFailure where
  | told (message : String) (exitCode : Nat)
  | unforeseen (f : Failure)
deriving DecidableEq, Repr, Inhabited

namespace CommandFailure

/-- The code for mistakes of the user. -/
def userCode : Nat := 1

/-- The code for what is missing around the command. -/
def surroundingsCode : Nat := 2

/-- No file is where the settings are looked for; an option names another place. -/
def missingFile (path option : String) : CommandFailure :=
  .told ("File not found: " ++ path ++ "\n\nCreate a jsonshape.yaml file, or use " ++ option
    ++ " to specify a path.") surroundingsCode

end CommandFailure

/-- A failure of an action that writes to a destination. -/
def Failure.told (f : Failure) (action destination : String) : CommandFailure :=
  match f.report? with
  | some report => .told (action ++ " failed: " ++ report.message) CommandFailure.userCode
  | none =>
    if f.label = "PermissionError" then
      .told ("Permission denied: cannot write " ++ destination) CommandFailure.surroundingsCode
    else .unforeseen f

/-- The settings in a file; an option names the file. -/
def fileSettings (folder : Folder) (path option : String) :
    Except CommandFailure ExportSettings :=
  let p := FilePath.ofText path
  match folder.look p with
  | .error obstacle => .error (.unforeseen (.blocked obstacle p.text))
  | .ok none => .error (.missingFile path option)
  | .ok (some _) =>
    (ExportSettings.load folder path).mapError fun f =>
      match f.report? with
      | some report => .told report.message CommandFailure.userCode
      | none => .unforeseen f

/-- The settings in a file, if there is one, with options over them.  An option without a
    value is no option. -/
def resolveSettings (folder : Folder) (path : Option String) (options : Entries) :
    Except CommandFailure ExportSettings := do
  let base ← match path with
    | some p => (fileSettings folder p "--config").map some
    | none => .ok none
  let given := options.filter fun (_, v) => v ≠ .null
  (overlay ExportSettings.read ExportSettings.entries base given).mapError fun complaints =>
    .told ("Invalid options:\n" ++ complaintLines complaints) CommandFailure.userCode

end SchemaGraph
