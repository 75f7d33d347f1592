import SchemaGraph.Command

/-!
# The program

Reads what a command may need from the system, runs it, and carries out its outcome.  A
program with schemas of its own starts with its modules and its store in place of none.
-/

namespace SchemaGraph.Program

open Command

/-- Paths that a command may read: its words, and what words hold behind an option. -/
def mentionedPaths (words : List String) : List String :=
  "jsonshape.yaml" :: words.flatMap fun w =>
    let attached := match splitEquals w with
      | (_, some value) => [value]
      | _ => []
    w :: (w.drop 2).toString :: attached

/-- The places on the way along a path. -/
def placesOn (here : FilePlace) (path : String) : List FilePlace :=
  let steps := pathSteps path
  let start := if isAbsolute path then [] else here.reverse
  (List.range (steps.length + 1)).map fun count => climb start (steps.take count)

/-- The folder with what is at a place. -/
def lookAt (folder : Folder) (place : FilePlace) : IO Folder := do
  let full := (← IO.currentDir) / ("/" ++ pathText place)
  try
    let text ← IO.FS.readFile full
    pure (folder.put ⟨place, text⟩)
  catch _ =>
    try
      let _ ← full.readDir
      pure { folder with directories := folder.directories ++ [place] }
    catch _ => pure folder

/-- The values of the environment variables that commands look at. -/
def environment : IO (List (String × String)) := do
  let names := [settingsVariable, "JSONSHAPE_LOG_LEVEL"]
  let values ← names.mapM fun name => do
    pure ((← IO.getEnv name).map fun v => (name, v))
  pure (values.filterMap id)

/-- What surrounds the program. -/
def surroundings (words : List String) : IO Surroundings := do
  let here := pathSteps (toString (← IO.currentDir))
  let environment ← environment
  let paths := mentionedPaths (words ++ environment.map (·.2))
  let folder ← (paths.flatMap (placesOn here)).foldlM lookAt { here }
  pure { folder, environment }

/-- Writes a file; the directories above it are made if they are missing. -/
def write (file : File) : IO Unit := do
  IO.FS.createDirAll ("/" ++ pathText file.place.dropLast)
  IO.FS.writeFile ("/" ++ pathText file.place) file.text

/-- An event on one line. -/
def eventLine (e : Event) : String :=
  " ".intercalate ((e.level.name ++ ":") :: e.name
    :: e.fields.map fun (key, v) => key ++ "=" ++ v.display)

/-- Runs the program on the words behind its name. -/
def start (modules : List NamedModule) (store : Store) (words : List String) : IO UInt32 := do
  match Command.run { surroundings := ← surroundings words, modules, store } words with
  | .error e =>
    IO.eprintln ("Error: " ++ e.message)
    pure 2
  | .ok outcome =>
    for e in outcome.events do
      IO.eprintln (eventLine e)
    for file in outcome.files do
      write file
    IO.print outcome.output
    if let some accident := outcome.accident then
      IO.eprintln accident.message
    pure (UInt32.ofNat outcome.exitCode)

end SchemaGraph.Program

/-- The program without any schemas. -/
def main (words : List String) : IO UInt32 := SchemaGraph.Program.start [] {} words
