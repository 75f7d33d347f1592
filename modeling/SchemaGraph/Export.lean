import SchemaGraph.Converter
import SchemaGraph.Folder
import SchemaGraph.Json.Layout

namespace SchemaGraph

/-!
# Exports

An export reads its settings, converts, and writes files one after the other.  Every export
leaves an event when it starts and one when it ends.  What is written before an obstacle
stays written.

* `Export.document`  — exports a node
* `Export.documents` — exports a catalog, one file for each document
* `fileName`         — the name of the file of a document
-/

/-! ### Files -/

/-- The name of the file of a document. -/
def fileName (id : Value) : Except Failure String :=
  match id with
  | .str s => if isFileName s then .ok (s ++ ".json") else .error (.unusableFileName id)
  | _ => .error .misuse

/-- The paths of documents in a directory. -/
def filePaths (directory : FilePath) :
    List (Value × Json) → Except Failure (List (FilePath × Json))
  | [] => .ok []
  | (id, doc) :: rest => do
    let name ← fileName id
    let paths ← filePaths directory rest
    .ok ((directory.child name, doc) :: paths)

/-! ### Settings -/

/-- What an export goes by besides its settings. -/
structure Export where
  /-- Settings that are there already. -/
  base : Option ExportSettings := none
  /-- Options that are read over them. -/
  options : Entries := []
  /-- The catalog with the annotations, if not the usual one. -/
  annotations : Option String := none
  override : Option Override := none
  /-- How ids become addresses, if not by the template of the settings. -/
  addressing : Option Addressing := none

namespace Export

/-- The settings of an export. -/
def settings (x : Export) : Except Failure ExportSettings :=
  (overlay ExportSettings.read ExportSettings.entries x.base x.options).mapError .settings

/-- The settings of an export, or its end. -/
def readSettings (x : Export) : Action Conversion ExportSettings :=
  match x.settings with
  | .ok settings => pure settings
  | .error f => Conversion.fail f

/-- The converter of an export. -/
def converter (x : Export) (settings : ExportSettings) (catalog : String) : Converter where
  guide := { settings := settings.lowering, catalog }
  override := x.override

/-- A node as a document.  Annotations come from the common catalog by default. -/
def convert (x : Export) (root : NodeId) : Action Conversion Json := do
  let settings ← x.readSettings
  let converter := x.converter settings (x.annotations.getD "global")
  converter.document settings.emission root

/-- A catalog as documents.  Annotations come from the catalog itself by default. -/
def convertAll (x : Export) (catalog : String) : Action Conversion (List (Value × Json)) := do
  let settings ← x.readSettings
  let converter := x.converter settings (x.annotations.getD catalog)
  converter.documents settings.emission catalog
    (x.addressing.getD (.template settings.uriTemplate))

/-! ### Operations -/

/-- The state of an export that writes: its conversion, the folder as it is now, and the
    files written so far. -/
structure Progress where
  conversion : Conversion := {}
  folder : Folder := {}
  written : List File := []

namespace Progress

/-- An action on the conversion. -/
def onConversion {α : Type} (a : Action Conversion α) : Action Progress α := fun p =>
  let (result, conversion) := a p.conversion
  (result, { p with conversion })

/-- Records an event. -/
def log (e : Event) : Action Progress Unit := onConversion (Conversion.log e)

/-- Fails; a failure that concerns schemas leaves an event. -/
def fail {α : Type} (f : Failure) : Action Progress α := onConversion (Conversion.fail f)

/-- Writes a document. -/
def write (path : FilePath) (doc : Json) : Action Progress Unit := do
  match (← get).folder.write path doc.fileText with
  | .ok (file, folder) =>
    modify fun p => { p with folder, written := p.written ++ [file] }
  | .error (obstacle, place) => fail (.blocked obstacle place.text)

/-- Writes documents one after the other. -/
def writeAll : List (FilePath × Json) → Action Progress Unit
  | [] => pure ()
  | (path, doc) :: rest => do
    write path doc
    writeAll rest

end Progress

/-- The place to write to as events show it. -/
def placeShown (place : Option String) : Value :=
  match place with
  | some p => if p = "" then .null else .str p
  | none => .null

/-- The fields of the event of a failure. -/
def failureFields (f : Failure) : List (String × Value) :=
  match f.message? with
  | some m => [("error", .str m)]
  | none => []

/-- Fails, and records that an operation has failed. -/
def failed {α : Type} (name : String) (fields : List (String × Value)) (f : Failure) :
    Action Progress α := do
  Progress.log ⟨.error, name ++ "_failed", failureFields f ++ fields⟩
  throw f

/-- Runs an action between the events of an operation.  The action returns further fields
    as soon as they are known, and what remains to be done. -/
def operation {α : Type} (name : String) (fields : List (String × Value))
    (action : Action Progress (List (String × Value) × Action Progress α)) :
    Action Progress α := do
  Progress.log ⟨.debug, name ++ "_started", fields⟩
  -- What fails at first is reported without the fields that only a success tells.
  let (more, rest) ← tryCatch action (failed name fields)
  let a ← tryCatch rest (failed name (fields ++ more))
  Progress.log ⟨.info, name ++ "_completed", fields ++ more⟩
  pure a

/-- Exports a node; with a path, the document is written there. -/
def document (x : Export) (root : NodeId) (path : Option String) : Action Progress Json :=
  operation "export_schema" [("output_path", placeShown path)] do
    let doc ← Progress.onConversion (x.convert root)
    pure ([], do
      match path with
      | some p => Progress.write (.ofText p) doc
      | none => pure ()
      pure doc)

/-- Exports a catalog; with a directory, each document is written there under its id.  All
    names are looked at before anything is written. -/
def documents (x : Export) (catalog : String) (directory : Option String) :
    Action Progress (List (Value × Json)) :=
  operation "export_registry" [("output_dir", placeShown directory)] do
    let docs ← Progress.onConversion (x.convertAll catalog)
    pure ([("documents", .int docs.length)], do
      match directory with
      | some d =>
        -- All names are known before the first file is written.
        match filePaths (.ofText d) docs with
        | .ok paths => Progress.writeAll paths
        | .error f => Progress.fail f
      | none => pure ()
      pure docs)

end Export

end SchemaGraph
