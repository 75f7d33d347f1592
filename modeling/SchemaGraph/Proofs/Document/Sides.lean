import SchemaGraph.Proofs.Document.Targets
import SchemaGraph.Proofs.Survey.Facing

namespace SchemaGraph

open SchemaGraph.Action Conversion

/-!
# Exports for either side

The options of an export name the side that its documents describe.  Whichever they name, the export
reads the same other settings, or has the same complaints about them.  A graph that looks the same
from either side comes to the same document, or the conversion fails in the same way, whatever the
other options, the annotations and the override are.

* `Export.facing`      — an export with its options, but for the other side
* `Converter.document_facing` — the conversion of a graph that looks the same from either side
* `Export.sides_agree` — what is exported for one side is exported for the other one
-/

/-! ### Settings -/

section Reading

variable (given : Entries) (side : Side)

/-- The fields of the lowering for the other side. -/
theorem LoweringSettings.fields_side :
    LoweringSettings.fields .standard (.ofEntries (given.set "io" (.str (Choice.word side)))) =
      let target := readOption (.ofEntries given) "target" Target.draft2020 Validator.standard.choice
      let unrepresentable := readOption (.ofEntries given) "unrepresentable" Unrepresentable.reject
        Validator.standard.choice
      (⟨target.value, unrepresentable.value, side⟩,
        [target.complaint?, unrepresentable.complaint?].filterMap id) := by
  unfold LoweringSettings.fields
  rw [readOption_word given _ (by cases side <;> rfl), readOption_set given (by decide),
    readOption_set given (by decide)]
  simp [List.filterMap_cons]

/-- The side that is named makes no difference to the other settings. -/
theorem ExportSettings.read_side :
    ExportSettings.read (given.set "io" (.str (Choice.word side))) =
      (ExportSettings.read (given.set "io" (.str (Choice.word Side.output)))).map fun settings =>
        { settings with lowering := settings.lowering.facing side } := by
  have hkey : "io" ∈ LoweringSettings.optionNames := by decide
  refine read_set given hkey (LoweringSettings.facing · side) ?_
  rw [LoweringSettings.fields_side, LoweringSettings.fields_side]
  rfl

end Reading

/-! ### Conversions -/

/-- **Conversions.** A graph that looks the same from either side is converted in the same way for
    both. -/
theorem Converter.document_facing (conv : Converter) (policy : EmissionSettings) {c : Conversion}
    {root : NodeId} (hc : c.Even root) :
    (conv.facing .input).document policy root c = (conv.facing .output).document policy root c := by
  unfold document
  rw [run_bind, run_bind, conv.process_facing hc]
  rfl

namespace Export

/-- The export with its options, but for the other side. -/
def facing (x : Export) (side : Side) : Export :=
  { x with
    options := (x.options.filter fun e => e.1 ≠ .str "io") ++
      [(.str "io", .str (Choice.word side))] }

/-- **Sides.** The settings of an export for the other side are the same otherwise, or there are the
    same complaints. -/
theorem settings_facing (x : Export) (side : Side) :
    (x.facing side).settings = (x.facing .output).settings.map fun settings =>
      { settings with lowering := settings.lowering.facing side } := by
  obtain ⟨given, hgiven⟩ := x.exists_given "io"
  unfold facing
  rw [hgiven, hgiven, ExportSettings.read_side]
  cases ExportSettings.read (given.set "io" (.str (Choice.word Side.output))) <;> rfl

/-- **Sides.** Where no node in the graph of a root describes other values on the input side than on
    the output side, and none does whatever lazy nodes answer, the exports of the root for both
    sides come to the same: the same document or the same failure, and the same state behind it. -/
theorem sides_agree (x : Export) {store : Store} (hs : store.Closed) {root : NodeId}
    (h : (start store).store.OneSided root) :
    (x.facing .input).convert root (start store) =
      (x.facing .output).convert root (start store) := by
  have hinput := x.settings_facing .input
  have houtput := x.settings_facing .output
  cases hsettings : (x.facing .output).settings with
  | error f =>
    rw [hsettings] at hinput
    unfold convert readSettings
    rw [hinput, hsettings]
    rfl
  | ok settings =>
    have hside : settings = { settings with lowering := settings.lowering.facing .output } := by
      rw [hsettings] at houtput
      exact Except.ok.inj houtput
    rw [hsettings] at hinput
    have heven : (start store).Even root := ⟨⟨Converter.start_closed hs, h⟩, nofun⟩
    rw [convert_eq hinput, convert_eq hsettings, hside]
    exact Converter.document_facing
      { guide := { settings := settings.lowering, catalog := x.annotations.getD "global" }
        override := x.override } settings.emission heven

/-- A folder with a name and, if there are any, further folders. -/
def folders : Store where
  nodes := [{ kind := .object, shape := some [("name", .node 1), ("folders", .node 2)] },
    { kind := .string }, { kind := .optional, inner := .node 3 },
    { kind := .array, element := .node 4 }, { kind := .lazy, getter := some 0 }]
  getters := [{ owner := .node 4, source := .named "folder" }]
  names := [("folder", .node 0)]
  catalogs := [("global", { entries := [(.node 1, [(.str "default", .str "new")])] })]

/-- Folders are exported for both sides. -/
theorem sides_agree_folders :
    (start folders).store.OneSided (.node 0) ∧
    (facing {} .input).convert (.node 0) (start folders) =
      (facing {} .output).convert (.node 0) (start folders) ∧
    ((facing {} .output).convert (.node 0) (start folders)).1.isOk = true := by
  have hclosed : folders.Closed :=
    .of_forall (by decide) (by decide) (List.forall_mem_singleton.mpr trivial)
  have hside : (start folders).store.OneSided (.node 0) := by
    refine Store.oneSided_of_settled (Converter.settled_of_named ?_) (by decide) _
    exact List.forall_mem_singleton.mpr ⟨_, rfl⟩
  exact ⟨hside, sides_agree {} hclosed hside, by decide +kernel⟩

end Export

end SchemaGraph
