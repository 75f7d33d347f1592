import SchemaGraph.Proofs.Document.Repeating
import SchemaGraph.Proofs.Document.Translation

namespace SchemaGraph

open SchemaGraph.Action Conversion Emission

/-!
# Exports in two dialects

The options of an export name the dialect of its documents.  Whichever they name, the export reads
the same other settings, or has the same complaints about them; it converts the same graphs, and
fails for the same reasons; and the documents in both dialects correspond position by position.

* `Export.aimed`     — an export with its options, but for another dialect
* `Export.addresses` — how its ids become addresses
* `Export.dialects_correspond` — what is converted in one dialect is converted in the other one
-/

/-! ### Settings -/

/-- The keys of a mapping do not depend on what is set. -/
theorem Entries.keys_set (key v w : Value) (e : Entries) :
    (e.set key v).map (·.1) = (e.set key w).map (·.1) := by
  induction e with
  | nil => rfl
  | cons p rest ih =>
    obtain ⟨k, u⟩ := p
    unfold Entries.set
    split
    · rfl
    · exact congrArg (k :: ·) ih

/-- Options of values are looked up as the values are. -/
theorem Options.get?_ofEntries (name : String) (e : Entries) :
    (Options.ofEntries e).get? name = (e.get? (.str name)).map Datum.value := by
  induction e with
  | nil => rfl
  | cons p rest ih =>
    obtain ⟨k, v⟩ := p
    -- among keys that are texts, those that count as equal are equal
    have hkey : k.canonical = (Value.str name).canonical ↔ Atom.value k = .value (.str name) := by
      rw [Atom.value.injEq]
      exact ⟨Value.canonical_eq_str, fun h => by rw [h]⟩
    change (if Atom.value k = .value (.str name) then _ else Options.get? name (Options.ofEntries rest))
      = Option.map Datum.value
        (if k.canonical = (Value.str name).canonical then _ else Entries.get? (.str name) rest)
    simp only [← hkey, ih]
    split <;> rfl

/-- What is reported depends on the keys and the complaints about options alone. -/
theorem reportAll_congr {given other : Options} (h : given.map (·.1) = other.map (·.1))
    (known : List String) (complaints : List Complaint) :
    reportAll known given complaints = reportAll known other complaints := by
  have hany : ∀ o : Options, (o.any fun e => e.1.isIllFormed) =
      (o.map (·.1)).any Atom.isIllFormed := fun o => by
    rw [List.any_map]
    rfl
  have hunknown : ∀ o : Options, unknownKeys known o =
      (o.map (·.1)).filterMap (keyComplaint? known) := fun o => by
    rw [List.filterMap_map]
    rfl
  unfold reportAll
  rw [hany, hany, hunknown, hunknown, h]

section Reading

variable (given : Entries) {key : String}

/-- An option of another name is read as if this one had not been set. -/
theorem readOption_set {α : Type} {name : String} (hname : name ≠ key) (default : α)
    (read : Datum → Except Fault α) (v : Value) :
    readOption (.ofEntries (given.set (.str key) v)) name default read =
      readOption (.ofEntries given) name default read := by
  unfold readOption
  rw [Options.get?_ofEntries, Options.get?_ofEntries, Entries.get?_set_str, if_neg hname]

/-- A choice that was set is read. -/
theorem readOption_word {α : Type} [Choice α] (default : α) {a : α}
    (h : Validator.standard.choice (.value (.str (Choice.word a))) = .ok a) :
    readOption (.ofEntries (given.set (.str key) (.str (Choice.word a)))) key default
      Validator.standard.choice = ⟨a, none⟩ := by
  unfold readOption
  rw [Options.get?_ofEntries, Entries.get?_set_self]
  dsimp only [Option.map_some]
  rw [h]

/-- The fields of the emission are read as if no option of the lowering had been set. -/
theorem EmissionSettings.fields_set (hkey : key ∈ LoweringSettings.optionNames) (v : Value) :
    EmissionSettings.fields .standard (.ofEntries (given.set (.str key) v)) =
      EmissionSettings.fields .standard (.ofEntries given) := by
  have hother : ∀ name ∈ optionNames, name ≠ key := by
    rintro name hname rfl
    revert hname hkey
    simp only [optionNames, LoweringSettings.optionNames]
    grind
  unfold EmissionSettings.fields
  rw [readOption_set given (hother _ (by decide)), readOption_set given (hother _ (by decide))]

/-- **Settings.** An option of the lowering that is set in two ways makes no difference to the other
    settings, nor to what is wrong with them, if it makes none within the lowering. -/
theorem ExportSettings.read_set (hkey : key ∈ LoweringSettings.optionNames) {v w : Value}
    (change : LoweringSettings → LoweringSettings)
    (hfields : LoweringSettings.fields .standard (.ofEntries (given.set (.str key) v)) =
      (LoweringSettings.fields .standard (.ofEntries (given.set (.str key) w))).map change id) :
    ExportSettings.read (given.set (.str key) v) =
      (ExportSettings.read (given.set (.str key) w)).map fun settings =>
        { settings with lowering := change settings.lowering } := by
  have hkeys : (Options.ofEntries (given.set (.str key) v)).map (·.1) =
      (Options.ofEntries (given.set (.str key) w)).map (·.1) := by
    have hset := congrArg (List.map Atom.value) (Entries.keys_set (.str key) v w given)
    rw [List.map_map, List.map_map] at hset
    unfold Options.ofEntries
    rw [List.map_map, List.map_map]
    exact hset
  have htemplate : "uri_template" ≠ key := by
    rintro rfl
    revert hkey
    decide
  unfold ExportSettings.read readBy readSettings fields
  rw [hfields, EmissionSettings.fields_set given hkey, EmissionSettings.fields_set given hkey,
    readOption_set given htemplate, readOption_set given htemplate]
  dsimp only [Validator.standard, Prod.map, id_eq]
  rw [reportAll_congr hkeys]
  split <;> rfl

/-- The fields of the lowering in another dialect. -/
theorem LoweringSettings.fields_target (target : Target) :
    LoweringSettings.fields .standard
        (.ofEntries (given.set "target" (.str (Choice.word target)))) =
      let unrepresentable := readOption (.ofEntries given) "unrepresentable" Unrepresentable.reject
        Validator.standard.choice
      let side := readOption (.ofEntries given) "io" Side.output Validator.standard.choice
      (⟨target, unrepresentable.value, side.value⟩,
        [unrepresentable.complaint?, side.complaint?].filterMap id) := by
  unfold LoweringSettings.fields
  rw [readOption_word given _ (by cases target <;> rfl), readOption_set given (by decide),
    readOption_set given (by decide)]
  rfl

variable (target : Target)

/-- The dialect that is named makes no difference to the other settings. -/
theorem ExportSettings.read_target :
    ExportSettings.read (given.set "target" (.str (Choice.word target))) =
      (ExportSettings.read (given.set "target" (.str (Choice.word Target.draft2020)))).map
        fun settings => { settings with lowering := settings.lowering.inDialect target } := by
  have hkey : "target" ∈ LoweringSettings.optionNames := by decide
  refine read_set given hkey (LoweringSettings.inDialect · target) ?_
  rw [LoweringSettings.fields_target, LoweringSettings.fields_target]
  rfl

/-- Settings that are read with a dialect named have this dialect. -/
theorem ExportSettings.target_of_read {settings : ExportSettings}
    (h : ExportSettings.read (given.set "target" (.str (Choice.word target))) = .ok settings) :
    settings.lowering.target = target := by
  unfold ExportSettings.read readBy readSettings fields at h
  rw [LoweringSettings.fields_target] at h
  dsimp only at h
  split at h <;> cases h
  rfl

end Reading

namespace Export

variable {x : Export} {store : Store}

/-- The options of an export but for the dialect. -/
def otherOptions (x : Export) : Entries := x.options.filter fun e => e.1 ≠ .str "target"

/-- The export with its options, but for another dialect. -/
def aimed (x : Export) (target : Target) : Export :=
  { x with options := x.otherOptions ++ [(.str "target", .str (Choice.word target))] }

/-- An export with its options but for one reads its settings from options in which that one is
    set. -/
theorem exists_given (x : Export) (key : String) : ∃ given : Entries, ∀ v : Value,
    ({ x with options := (x.options.filter fun e => e.1 ≠ .str key) ++ [(.str key, v)] } :
        Export).settings = (ExportSettings.read (given.set (.str key) v)).mapError .settings := by
  cases hbase : x.base with
  | none =>
    refine ⟨x.options.filter fun e => e.1 ≠ .str key, fun v => ?_⟩
    -- Without a base the filtered options are the mapping, and they have lost the key.
    have hnone : Entries.get? (.str key) (x.options.filter fun e => e.1 ≠ .str key) = none :=
      Entries.get?_eq_none fun p hp hkey =>
        of_decide_eq_true (List.mem_filter.mp hp).2 (Value.canonical_eq_str hkey)
    rw [Entries.set_of_get?_none hnone]
    unfold settings overlay
    rfl
  | some settings =>
    refine ⟨settings.entries.update (x.options.filter fun e => e.1 ≠ .str key), fun v => ?_⟩
    have hfull : ((x.options.filter fun e => e.1 ≠ .str key) ++
        [(.str key, v)] : Entries).isEmpty = false := by simp
    unfold Export.settings overlay
    dsimp only
    rw [hfull, if_neg Bool.false_ne_true]
    unfold Entries.update
    rw [List.foldl_append]
    rfl

/-- **Dialects.** The settings of an export for another dialect are the same otherwise, or there are
    the same complaints. -/
theorem settings_aimed (x : Export) (target : Target) :
    (x.aimed target).settings = (x.aimed .draft2020).settings.map fun settings =>
      { settings with lowering := settings.lowering.inDialect target } := by
  obtain ⟨given, hgiven⟩ := x.exists_given "target"
  unfold aimed otherOptions
  rw [hgiven, hgiven, ExportSettings.read_target]
  cases ExportSettings.read (given.set "target" (.str (Choice.word Target.draft2020))) <;> rfl

/-- An export that is aimed at a dialect converts to it. -/
theorem target_of_aimed {target : Target} {settings : ExportSettings}
    (h : (x.aimed target).settings = .ok settings) : settings.lowering.target = target := by
  obtain ⟨given, hgiven⟩ := x.exists_given "target"
  unfold aimed otherOptions at h
  rw [hgiven] at h
  cases hread : ExportSettings.read (given.set "target" (.str (Choice.word target))) with
  | error complaints =>
    rw [hread] at h
    cases h
  | ok settings' =>
    rw [hread] at h
    cases h
    exact ExportSettings.target_of_read given target hread

/-- How ids become addresses in an export, as far as its settings can be read. -/
def addresses (x : Export) : Addressing :=
  x.addressing.getD (.template ((x.settings.toOption.map (·.uriTemplate)).getD .bare))

end Export

/-! ### References -/

/-- References stand alone: what is left of a node holds nothing beside a reference, and definitions
    hold none. -/
def Survey.ReferencesAlone (s : Survey) : Prop :=
  ∀ n, ((s.fragment n).has Visit.refKey = true → ∃ ref, s.fragment n = [(Visit.refKey, .str ref)]) ∧
    (s.definition n).has Visit.refKey = false

/-- In the second dialect references stand alone. -/
theorem Survey.Bilingual.referencesAlone {scope : Option Addressing} {s t : Survey}
    (h : s.Bilingual scope t) : t.ReferencesAlone := by
  have hnone : ∀ {es fs : Entries}, es.RewordedBody scope t.LeavesReference fs →
      fs.has Visit.refKey = false := by
    rintro es fs ⟨form, hbody, -⟩
    unfold Entries.has
    rw [hbody.get?_ref]
    rfl
  refine fun n => ⟨fun href => ?_, hnone (h.definition n)⟩
  have hfragment := h.fragment n
  generalize s.fragment n = es at hfragment
  generalize t.fragment n = fs at hfragment href
  cases hfragment with
  | reference _ => exact ⟨_, rfl⟩
  | body hbody =>
    rw [hnone hbody] at href
    cases href

/-- What has returned in both dialects leaves references that stand alone. -/
theorem Action.Coincide.referencesAlone {α β : Type} {Q : α → β → Prop} {scope : Option Addressing}
    {a : Action Conversion α} {b : Action Conversion β} {c d : Conversion}
    (h : Coincide (Conversion.Bilingual scope) Q a b c d) (hok : (b d).1.isOk = true) :
    (b d).2.survey.ReferencesAlone := by
  obtain ⟨hagree, hstates⟩ := h
  obtain ⟨y, hy⟩ := exists_returns hok
  rcases ha : a c with ⟨f | x, c'⟩
  · rw [ha, show b d = (.ok y, (b d).2) from hy] at hagree
    cases hagree
  · exact (hstates x y c' _ ha hy).survey.referencesAlone

/-! ### Conversions -/

namespace Export

variable {x : Export} {store : Store}

/-- Settings that cannot be read end an export in both dialects. -/
theorem coincide_of_error {α β : Type} {R : Conversion → Conversion → Prop} {Q : α → β → Prop}
    {f : Failure} {a : ExportSettings → Action Conversion α}
    {b : ExportSettings → Action Conversion β} {c : Conversion}
    (hsettings : (x.aimed .draft2020).settings = .error f) :
    Coincide R Q ((x.aimed .draft2020).readSettings >>= a) ((x.aimed .draft7).readSettings >>= b) c
      c := by
  have hother : (x.aimed .draft7).settings = .error f := by
    rw [settings_aimed, hsettings]
    rfl
  obtain ⟨d, hrun, -, -⟩ := run_fail ExportSettings f c
  have hfails : ∀ {y : Export}, y.settings = .error f → y.readSettings c = (.error f, d) := by
    intro y hy
    unfold readSettings
    rw [hy]
    exact hrun
  unfold Coincide Returns
  rw [run_bind, run_bind, hfails hsettings, hfails hother]
  exact ⟨.error f, nofun⟩

section Conversions

variable (hoverride : x.override = none) (hs : store.Closed)
include hoverride hs

/-- Where nothing touches keywords that dialects spell differently, the conversions of a root
    coincide up to spelling. -/
theorem convert_coincides (root : NodeId)
    (hneutral : let c := ((x.aimed .draft2020).convert root (start store)).2
      ∀ n, c.survey.has n = true → c.store.Neutral (x.annotations.getD "global") n) :
    Coincide (Conversion.Bilingual none) (Json.RewordedDocument none)
      ((x.aimed .draft2020).convert root) ((x.aimed .draft7).convert root) (start store)
      (start store) := by
  cases hsettings : (x.aimed .draft2020).settings with
  | error f => exact coincide_of_error hsettings
  | ok settings =>
    have hother := x.settings_aimed .draft7
    rw [hsettings] at hother
    rw [convert_eq hsettings] at hneutral
    rw [convert_eq hsettings, convert_eq hother]
    exact Converter.document_translated hs (target_of_aimed hsettings) hoverride root hneutral

/-- So do those of a catalog. -/
theorem convertAll_coincides (catalog : String)
    (hrooted : ∀ r ∈ (store.catalog catalog).ids, (store.node? r.2).isSome = true ∧
      (annotatedId store catalog r.2).isTruthy = true)
    (hneutral : let c := ((x.aimed .draft2020).convertAll catalog (start store)).2
      ∀ n, c.survey.has n = true → c.store.Neutral (x.annotations.getD catalog) n) :
    let scope := some (x.aimed .draft2020).addresses
    Coincide (Conversion.Bilingual scope) (List.Forall₂ (Json.RewordedEntry scope))
      ((x.aimed .draft2020).convertAll catalog) ((x.aimed .draft7).convertAll catalog) (start store)
      (start store) := by
  intro scope
  cases hsettings : (x.aimed .draft2020).settings with
  | error f => exact coincide_of_error hsettings
  | ok settings =>
    have hother := x.settings_aimed .draft7
    rw [hsettings] at hother
    -- The addresses are read off the settings, which the target leaves as they are.
    have hscope : scope = some ((x.aimed .draft2020).addressing.getD
        (.template settings.uriTemplate)) := by
      show some (addresses _) = _
      unfold addresses
      rw [hsettings]
      rfl
    rw [convertAll_eq hsettings] at hneutral
    rw [convertAll_eq hsettings, convertAll_eq hother, hscope]
    exact Converter.documents_translated hs (target_of_aimed hsettings) hoverride catalog _ hrooted
      hneutral

end Conversions

/-- **Dialects.** Of an export without override that is aimed at either dialect, both conversions of
    a node come to documents that correspond position by position, or fail in the same way.  Both
    conversions of a catalog come to such documents under the same ids in the same order, or fail in
    the same way, if its nodes are registered under ids that are not falsy.  In the second dialect
    references stand alone.

    What is supplied for the nodes that are visited, by annotations and by lowerings of their own,
    must be data under other keywords than those that dialects spell differently. -/
theorem dialects_correspond (x : Export) (hoverride : x.override = none) {store : Store}
    (hs : store.Closed) :
    (∀ root,
      let run := (x.aimed .draft2020).convert root (start store)
      let run' := (x.aimed .draft7).convert root (start store)
      (∀ n, run.2.survey.has n = true → run.2.store.Neutral (x.annotations.getD "global") n) →
        Corresponds (Json.RewordedDocument none) run.1 run'.1 ∧
          (run'.1.isOk = true → run'.2.survey.ReferencesAlone)) ∧
    ∀ catalog,
      let run := (x.aimed .draft2020).convertAll catalog (start store)
      let run' := (x.aimed .draft7).convertAll catalog (start store)
      (∀ r ∈ (store.catalog catalog).ids, (store.node? r.2).isSome = true ∧
          (annotatedId store catalog r.2).isTruthy = true) →
        (∀ n, run.2.survey.has n = true → run.2.store.Neutral (x.annotations.getD catalog) n) →
        Corresponds (List.Forall₂ (Json.RewordedEntry (some (x.aimed .draft2020).addresses))) run.1
            run'.1 ∧
          (run'.1.isOk = true → run'.2.survey.ReferencesAlone) := by
  constructor
  · intro root run run' hneutral
    have hboth := convert_coincides hoverride hs root hneutral
    exact ⟨hboth.1, hboth.referencesAlone⟩
  · intro catalog run run' hrooted hneutral
    have hboth := convertAll_coincides hoverride hs catalog hrooted hneutral
    exact ⟨hboth.1, hboth.referencesAlone⟩

/-- A text with an id, a view of it that can only be read, and both as a pair with an id. -/
def labelledPair : Store where
  nodes := [{ kind := .string }, { kind := .readonly, inner := .node 0 },
    { kind := .tuple, items := [.node 0, .node 1] }]
  catalogs := [("global",
    { entries := [(.node 0, [(.str "id", .str "text")]), (.node 2, [(.str "id", .str "pair")])]
      ids := [(.str "text", .node 0), (.str "pair", .node 2)] })]

/-- What is said about the nodes of the labelled pair is data, under a common key. -/
theorem neutral_labelledPair {s : Store} (hnodes : s.nodes = labelledPair.nodes)
    (hcatalogs : s.catalogs = labelledPair.catalogs) (n : NodeId) : s.Neutral "global" n := by
  refine .of_forall ?_ ?_ n
  · rw [hnodes]
    decide
  · unfold Store.catalog
    rw [hcatalogs]
    decide

/-- The pair is converted in both dialects, alone and with its catalog. -/
theorem dialects_correspond_labelledPair :
    (∃ doc doc' c d,
      Returns ((aimed {} .draft2020).convert (.node 2)) (start labelledPair) doc c ∧
      Returns ((aimed {} .draft7).convert (.node 2)) (start labelledPair) doc' d ∧
      Json.RewordedDocument none doc doc' ∧ d.survey.ReferencesAlone) ∧
    ∃ docs docs' c d,
      Returns ((aimed {} .draft2020).convertAll "global") (start labelledPair) docs c ∧
      Returns ((aimed {} .draft7).convertAll "global") (start labelledPair) docs' d ∧
      List.Forall₂ (Json.RewordedEntry (some (aimed {} .draft2020).addresses)) docs docs' ∧
      d.survey.ReferencesAlone := by
  have hclosed : labelledPair.Closed := .of_forall (by decide) nofun nofun
  obtain ⟨hone, hall⟩ := dialects_correspond {} rfl hclosed
  constructor
  · obtain ⟨doc, h⟩ := exists_returns (a := (aimed {} .draft2020).convert (.node 2))
      (s := start labelledPair) (by decide +kernel)
    obtain ⟨doc', h'⟩ := exists_returns (a := (aimed {} .draft7).convert (.node 2))
      (s := start labelledPair) (by decide +kernel)
    have hnodes : ((aimed {} .draft2020).convert (.node 2) (start labelledPair)).2.store.nodes =
      labelledPair.nodes := by decide +kernel
    have hcatalogs : ((aimed {} .draft2020).convert (.node 2)
      (start labelledPair)).2.store.catalogs = labelledPair.catalogs := by decide +kernel
    have hboth := hone (.node 2)
    dsimp only at hboth
    rw [show ((aimed {} .draft2020).convert (.node 2) (start labelledPair)).1 = .ok doc from
        congrArg (·.1) h,
      show ((aimed {} .draft7).convert (.node 2) (start labelledPair)).1 = .ok doc' from
        congrArg (·.1) h'] at hboth
    obtain ⟨hagree, halone⟩ := hboth fun n _ => neutral_labelledPair hnodes hcatalogs n
    cases hagree with
    | ok hsame => exact ⟨doc, doc', _, _, h, h', hsame, halone rfl⟩
  -- The common documents of the two ids.
  · obtain ⟨docs, h⟩ := exists_returns (a := (aimed {} .draft2020).convertAll "global")
      (s := start labelledPair) (by decide +kernel)
    obtain ⟨docs', h'⟩ := exists_returns (a := (aimed {} .draft7).convertAll "global")
      (s := start labelledPair) (by decide +kernel)
    have hnodes : ((aimed {} .draft2020).convertAll "global" (start labelledPair)).2.store.nodes =
      labelledPair.nodes := by decide +kernel
    have hcatalogs : ((aimed {} .draft2020).convertAll "global"
      (start labelledPair)).2.store.catalogs = labelledPair.catalogs := by decide +kernel
    have hboth := hall "global"
    dsimp only at hboth
    rw [show ((aimed {} .draft2020).convertAll "global" (start labelledPair)).1 = .ok docs from
        congrArg (·.1) h,
      show ((aimed {} .draft7).convertAll "global" (start labelledPair)).1 = .ok docs' from
        congrArg (·.1) h'] at hboth
    obtain ⟨hagree, halone⟩ := hboth (by decide) fun n _ => neutral_labelledPair hnodes hcatalogs n
    cases hagree with
    | ok hsame => exact ⟨docs, docs', _, _, h, h', hsame, halone rfl⟩

/-- A text with an id, and a view of it under an empty id. -/
def unnamedView : Store where
  nodes := [{ kind := .string }, { kind := .readonly, inner := .node 0 }]
  catalogs := [("global",
    { entries := [(.node 0, [(.str "id", .str "text")]), (.node 1, [(.str "id", .str "")])]
      ids := [(.str "text", .node 0), (.str "", .node 1)] })]

/-- The view under an empty id is finished when its document is emitted.  In the first dialect it
    holds a reference by then, is taken for a definition, and its content is lost.  In the second
    dialect it holds none; so it becomes a definition, and is listed among the common ones, too. -/
theorem dialects_differ :
    let schema := fun target : Target => ("$schema", Json.str target.schemaUri)
    let text := fun target => (Value.str "text",
      Json.obj [("type", .str "string"), ("id", .str "text"), schema target])
    let members := [("readOnly", Json.bool true), ("id", .str ""),
      ("allOf", .arr [.obj [("$ref", .str "text")]])]
    ((aimed {} .draft2020).convertAll "global" (start unnamedView)).1.toOption =
        some [text .draft2020, (.str "", .obj [schema .draft2020])] ∧
      ((aimed {} .draft7).convertAll "global" (start unnamedView)).1.toOption =
        some [text .draft7, (.str "", .obj (members ++ [schema .draft7])),
          (.str "__shared", .obj [("definitions", .obj [("schema0", .obj members)])])] := by
  decide +kernel

end Export

end SchemaGraph
