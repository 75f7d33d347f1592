import SchemaGraph.Export
import SchemaGraph.Proofs.Document.Composing
import SchemaGraph.Proofs.Files.Reading
import SchemaGraph.Proofs.Files.Writing
import SchemaGraph.Proofs.Store.Catalogs

namespace SchemaGraph

open SchemaGraph.Action Emission

/-!
# Exported documents

The export of a catalog converts, looks at all names, and only then writes, one file for each
document.  As long as nothing stands in the way of one of the files, all of them are written to
places of their own in the directory, and every document can be read from its file.

* `Converter.Labelled`  — documents under texts, each of them under its own
* `Export.Unwritten`    — nothing was written on the way
* `Export.filesOf`      — the files of documents in a directory
* `Export.Filed`        — documents were written to a directory
* `Export.documents_written` — all documents of a catalog are written, or none
-/

/-! ### Documents under ids -/

/-- In what a view shows the members of each object have different names. -/
theorem View.Shows.keyed {view : View} {v : Value} {doc : Json} (h : view.Shows v doc) :
    doc.Keyed := by
  obtain ⟨depth, path, h⟩ := h
  exact Value.toJson_keyed _ h

namespace Converter

variable {conv : Converter} {policy : EmissionSettings} {c d : Conversion}
  {docs : List (Value × Json)}

/-- Documents under texts, each of them under its own. -/
structure Labelled (docs : List (Value × Json)) : Prop where
  texts : ∀ entry ∈ docs, ∃ s, entry.1 = .str s
  unique : (docs.map (·.1)).Nodup
  keyed : ∀ entry ∈ docs, entry.2.Keyed

/-- The documents of ids stand under the ids, and each is written from a value. -/
theorem emitAll_ids {roots : List (Value × NodeId)}
    (h : Returns (conv.emitAll policy roots) c docs d) :
    docs.map (·.1) = roots.map (·.1) ∧
      ∀ entry ∈ docs, ∃ (view : View) (v : Value), view.Shows v entry.2 := by
  induction roots generalizing c docs with
  | nil =>
    obtain ⟨rfl, rfl⟩ := returns_pure.mp h
    exact ⟨rfl, nofun⟩
  | cons root rest ih =>
    obtain ⟨id, n⟩ := root
    obtain ⟨doc, f, hemit, h₁⟩ := returns_bind.mp h
    obtain ⟨docs', d', hall, h₂⟩ := returns_bind.mp h₁
    obtain ⟨rfl, rfl⟩ := returns_pure.mp h₂
    obtain ⟨_, _, -, -, hdoc, -, -⟩ := document_returns hemit
    obtain ⟨hids, hshown⟩ := ih hall
    refine ⟨congrArg (id :: ·) hids, fun entry hentry => ?_⟩
    rcases List.mem_cons.mp hentry with rfl | hentry
    · exact ⟨_, _, hdoc⟩
    · exact hshown entry hentry

/-- The ids of the documents are those from before and the one that was put in. -/
theorem mem_ids_putDocument {s : String} {doc : Json} {label : Value} :
    label ∈ (putDocument (.str s) doc docs).map (·.1) ↔
      label ∈ docs.map (·.1) ∨ label = .str s := by
  induction docs with
  | nil => simp [putDocument]
  | cons entry rest ih =>
    obtain ⟨i, former⟩ := entry
    rw [putDocument]
    split
    · rename_i hi
      obtain rfl := Catalog.canonical_eq_text.mp hi
      exact ⟨.inl, fun h => h.elim id fun h => h ▸ .head _⟩
    · rw [List.map_cons, List.mem_cons, ih, List.map_cons, List.mem_cons, or_assoc]

/-- A document that is there after another one was put in was there before, or is that one. -/
theorem mem_putDocument {id : Value} {doc : Json} {entry : Value × Json}
    (h : entry ∈ putDocument id doc docs) : entry ∈ docs ∨ entry.2 = doc := by
  induction docs with
  | nil => exact .inr (by rw [List.mem_singleton.mp h])
  | cons first rest ih =>
    obtain ⟨i, former⟩ := first
    rw [putDocument] at h
    split at h
    · rcases List.mem_cons.mp h with rfl | h
      · exact .inr rfl
      · exact .inl (.tail _ h)
    · rcases List.mem_cons.mp h with rfl | h
      · exact .inl (.head _)
      · exact (ih h).imp_left (.tail _)

/-- Ids stay different when a document is put in. -/
theorem nodup_putDocument {s : String} {doc : Json} (h : (docs.map (·.1)).Nodup) :
    ((putDocument (.str s) doc docs).map (·.1)).Nodup := by
  induction docs with
  | nil => simp [putDocument]
  | cons entry rest ih =>
    obtain ⟨i, former⟩ := entry
    rw [List.map_cons, List.nodup_cons] at h
    rw [putDocument]
    split
    · rwa [List.map_cons, List.nodup_cons]
    · rename_i hi
      rw [List.map_cons, List.nodup_cons, mem_ids_putDocument]
      exact ⟨fun hmem => hmem.elim h.1 (mt Catalog.canonical_eq_text.mpr hi), ih h.2⟩

/-- A document that takes its place leaves the ids apart. -/
theorem Labelled.putDocument (h : Labelled docs) (s : String) {doc : Json} (hdoc : doc.Keyed) :
    Labelled (putDocument (.str s) doc docs) where
  texts := by
    intro entry hentry
    rcases mem_ids_putDocument.mp (List.mem_map_of_mem hentry) with hid | hid
    · obtain ⟨former, hformer, heq⟩ := List.mem_map.mp hid
      rw [← heq]
      exact h.texts former hformer
    · exact ⟨s, hid⟩
  unique := nodup_putDocument h.unique
  keyed := by
    intro entry hentry
    rcases mem_putDocument hentry with hentry | hentry
    · exact h.keyed entry hentry
    · rw [hentry]
      exact hdoc

/-- The documents of a catalog have ids that are texts, each of them its own. -/
theorem documents_labelled {catalog : String} {addressing : Addressing}
    (hsound : (c.store.catalog catalog).Sound)
    (h : Returns (conv.documents policy catalog addressing) c docs d) : Labelled docs := by
  obtain ⟨c₀, _, hget, h₁⟩ := returns_bind.mp h
  obtain ⟨rfl, rfl⟩ := returns_get.mp hget
  obtain ⟨_, p, -, h₂⟩ := returns_bind.mp h₁
  obtain ⟨_, p', -, h₃⟩ := returns_bind.mp h₂
  obtain ⟨own, c', hemit, h₄⟩ := returns_bind.mp h₃
  obtain ⟨_, _, hget', h₅⟩ := returns_bind.mp h₄
  obtain ⟨rfl, rfl⟩ := returns_get.mp hget'
  obtain ⟨hids, hshown⟩ := emitAll_ids hemit
  -- The roots are listed under the ids of the catalog, which are texts and differ.
  have hown : Labelled own := by
    refine ⟨fun entry hentry => ?_, ?_, fun entry hentry => ?_⟩
    · have hmem : entry.1 ∈ own.map (·.1) := List.mem_map_of_mem hentry
      rw [hids] at hmem
      obtain ⟨root, hroot, heq⟩ := List.mem_map.mp hmem
      rw [← heq]
      exact hsound.texts root hroot
    · rw [hids]
      exact List.pairwise_map.mpr hsound.unique
    · obtain ⟨_, _, hdoc⟩ := hshown entry hentry
      exact hdoc.keyed
  dsimp only at h₅
  split at h₅
  · obtain ⟨rfl, rfl⟩ := returns_pure.mp h₅
    exact hown
  · -- definitions that no document of the catalog holds make one more document
    obtain ⟨table, f, hfinalize, h₆⟩ := returns_bind.mp h₅
    obtain ⟨rfl, rfl⟩ := returns_pure.mp h₆
    obtain ⟨-, hshows⟩ := finalize_returns hfinalize
    refine hown.putDocument _ ⟨by simp, hshows.keyed, trivial⟩

end Converter

namespace Export

variable {x : Export} {p q : Progress} {f : Failure}

/-! ### Operations -/

/-- Nothing is written on the way: the folder and the files written so far are the same. -/
structure Unwritten (p q : Progress) : Prop where
  folder : q.folder = p.folder
  written : q.written = p.written

/-- Where nothing is written in two parts, nothing is written in both together. -/
theorem Unwritten.trans {r : Progress} (h₁ : Unwritten p q) (h₂ : Unwritten q r) :
    Unwritten p r := ⟨h₂.folder.trans h₁.folder, h₂.written.trans h₁.written⟩

/-- Recording an event writes no file. -/
theorem unwritten_log (e : Event) (p : Progress) : Unwritten p (Progress.log e p).2 :=
  ⟨rfl, rfl⟩

/-- Recording an event changes the events of the conversion alone. -/
theorem run_log (e : Event) (p : Progress) :
    Progress.log e p = (.ok (), { p with conversion := (Conversion.log e p.conversion).2 }) := rfl

/-- What an operation begins with. -/
def started (name : String) (fields : List (String × Value)) (c : Conversion) : Conversion :=
  (Conversion.log ⟨.debug, name ++ "_started", fields⟩ c).2

/-- An operation that has failed leaves a state in which nothing more was written. -/
theorem run_failed {α : Type} (name : String) (fields : List (String × Value)) (f : Failure)
    (p : Progress) : ∃ q, failed (α := α) name fields f p = (.error f, q) ∧ Unwritten p q :=
  ⟨_, rfl, unwritten_log _ p⟩

/-- An action on the conversion leaves the folder. -/
theorem run_onConversion {α : Type} (a : Action Conversion α) (p : Progress) :
    Progress.onConversion a p
      = ((a p.conversion).1, { p with conversion := (a p.conversion).2 }) := rfl

/-- A failure leaves a state in which nothing more was written. -/
theorem Progress.run_fail {α : Type} (f : Failure) (p : Progress) :
    ∃ q, Progress.fail (α := α) f p = (.error f, q) ∧ Unwritten p q := by
  obtain ⟨c, hc, -⟩ := Conversion.run_fail α f p.conversion
  refine ⟨{ p with conversion := c }, ?_, ⟨rfl, rfl⟩⟩
  rw [Progress.fail, run_onConversion, hc]

section Operation

variable {α β : Type} {name : String} {fields : List (String × Value)}
  {convert : Action Conversion β} {next : β → List (String × Value) × Action Progress α}

/-- An operation whose conversion fails has failed for the same reason, and nothing is written. -/
theorem operation_of_error (h : (convert (started name fields p.conversion)).1 = .error f) :
    (operation name fields (do
        let b ← Progress.onConversion convert
        pure (next b)) p).1 = .error f ∧
      Unwritten p (operation name fields (do
        let b ← Progress.onConversion convert
        pure (next b)) p).2 := by
  obtain ⟨r, hr, hsame⟩ := run_failed (α := List (String × Value) × Action Progress α) name
    fields f { p with conversion := (convert (started name fields p.conversion)).2 }
  have hrun : operation name fields (do
      let b ← Progress.onConversion convert
      pure (next b)) p = (.error f, r) := by
    rw [operation, run_bind, run_log]
    simp only
    rw [run_bind, run_tryCatch, ← started, run_bind, run_onConversion, h]
    simp only [hr]
  rw [hrun]
  exact ⟨rfl, hsame.folder, hsame.written⟩

/-- Behind the conversion, what remains of an operation decides what comes of it. -/
theorem operation_of_ok {b : β} (h : (convert (started name fields p.conversion)).1 = .ok b) :
    ∃ c r, operation name fields (do
        let b ← Progress.onConversion convert
        pure (next b)) p = (((next b).2 { p with conversion := c }).1, r) ∧
      Unwritten ((next b).2 { p with conversion := c }).2 r := by
  refine ⟨(convert (started name fields p.conversion)).2, ?_⟩
  rw [operation, run_bind, run_log]
  simp only
  rw [run_bind, run_tryCatch, ← started, run_bind, run_onConversion, h]
  simp only [run_pure]
  rw [run_bind, run_tryCatch]
  rcases (next b).2 { p with conversion := (convert (started name fields p.conversion)).2 }
    with ⟨f | a, t⟩
  · obtain ⟨r, hr, hsame⟩ := run_failed (α := α) name (fields ++ (next b).1) f t
    exact ⟨r, by simp only [hr], hsame⟩
  · exact ⟨_, rfl, unwritten_log _ t⟩

end Operation

/-! ### Names -/

/-- Documents under their names. -/
def documentsOf (named : List (String × Json)) : List (Value × Json) :=
  named.map fun e => (.str e.1, e.2)

/-- The paths of the files of documents in a directory. -/
def pathsOf (directory : String) (named : List (String × Json)) : List (FilePath × Json) :=
  named.map fun e => ((FilePath.ofText directory).child (e.1 ++ ".json"), e.2)

/-- The files of documents in a directory. -/
def filesOf (folder : Folder) (directory : String) (named : List (String × Json)) : List File :=
  named.map fun e => ⟨folder.place directory ++ [e.1 ++ ".json"], e.2.fileText⟩

/-- A name can be one of a file exactly if it is a step of a path, and does not lead upwards. -/
theorem isFileName_iff {name : String} :
    isFileName name = true ↔ IsStep name ∧ name ≠ ".." := by
  simp only [isFileName, Bool.and_eq_true, decide_eq_true_eq, List.all_eq_true]
  constructor
  · rintro ⟨⟨⟨hnonempty, hmoves⟩, hdown⟩, hsingle⟩
    exact ⟨⟨hnonempty, hmoves, fun hmem => hsingle '/' hmem rfl⟩, hdown⟩
  · rintro ⟨⟨hnonempty, hmoves, hsingle⟩, hdown⟩
    exact ⟨⟨⟨hnonempty, hmoves⟩, hdown⟩, fun c hc heq => hsingle (heq ▸ hc)⟩

/-- The name of a file is a single step as well, and does not lead upward. -/
theorem isStep_fileName {name : String} (h : isFileName name = true) :
    IsStep (name ++ ".json") ∧ name ++ ".json" ≠ ".." := by
  obtain ⟨⟨-, -, hsingle⟩, -⟩ := isFileName_iff.mp h
  have hlength : ∀ text : String, text.length < 5 → name ++ ".json" ≠ text := by
    rintro text hshort rfl
    rw [String.length_append] at hshort
    exact absurd hshort (by show ¬ name.length + 5 < 5; omega)
  refine ⟨⟨hlength "" (by decide), hlength "." (by decide), ?_⟩, hlength ".." (by decide)⟩
  rw [String.toList_append, List.mem_append, not_or]
  exact ⟨hsingle, by decide⟩

/-- Names are looked at before anything is written, and one that cannot be used is reported. -/
theorem filePaths_of_refused (directory : String) {named : List (String × Json)}
    (h : ∃ e ∈ named, isFileName e.1 = false) :
    ∃ e ∈ named, isFileName e.1 = false ∧
      filePaths (.ofText directory) (documentsOf named)
        = .error (.unusableFileName (.str e.1)) := by
  induction named with
  | nil =>
    obtain ⟨_, hnone, -⟩ := h
    cases hnone
  | cons first rest ih =>
    rw [documentsOf, List.map_cons, ← documentsOf, filePaths, fileName]
    by_cases hfirst : isFileName first.1 = true
    · obtain ⟨e, he, hrefused⟩ := h
      have hrest : e ∈ rest := by
        rcases List.mem_cons.mp he with rfl | he
        · rw [hfirst] at hrefused
          cases hrefused
        · exact he
      obtain ⟨found, hfound, hname, hpaths⟩ := ih ⟨e, hrest, hrefused⟩
      exact ⟨found, .tail _ hfound, hname, by rw [hpaths, if_pos hfirst]; rfl⟩
    · -- the first name that is refused ends the search
      exact ⟨first, .head _, by simpa using hfirst, by rw [if_neg hfirst]; rfl⟩

/-- Names that can be those of files make the paths of the documents. -/
theorem filePaths_of_names (directory : String) {named : List (String × Json)}
    (h : ∀ e ∈ named, isFileName e.1 = true) :
    filePaths (.ofText directory) (documentsOf named) = .ok (pathsOf directory named) := by
  induction named with
  | nil => rfl
  | cons first rest ih =>
    obtain ⟨hfirst, hrest⟩ := List.forall_mem_cons.mp h
    rw [documentsOf, List.map_cons, ← documentsOf, filePaths, ih hrest, fileName, if_pos hfirst]
    rfl

/-! ### Files -/

/-- Different names have different places. -/
theorem nodup_filesOf (folder : Folder) (directory : String) {named : List (String × Json)}
    (h : (named.map (·.1)).Nodup) :
    ((filesOf folder directory named).map (·.place)).Nodup := by
  rw [filesOf, List.map_map]
  rw [List.Nodup, List.pairwise_map] at h ⊢
  refine h.imp fun {a b} hne heq => hne ?_
  have hlast : [a.1 ++ ".json"] = [b.1 ++ ".json"] := List.append_cancel_left heq
  exact String.append_left_inj ".json" |>.mp (List.cons.inj hlast).1

/-- What can be written is written, and the file is listed. -/
theorem run_write {path : FilePath} {doc : Json} {file : File} {folder : Folder}
    (h : p.folder.write path doc.fileText = .ok (file, folder)) :
    Progress.write path doc p = (.ok (), { p with folder, written := p.written ++ [file] }) := by
  rw [Progress.write, run_bind, run_get]
  simp only [h]
  rfl

/-- Documents are written one after the other where all of them can be. -/
theorem writeAll_prepared {directory : String} {names : List String}
    {named : List (String × Json)} (h : p.folder.Prepared directory names)
    (hnames : ∀ e ∈ named, e.1 ++ ".json" ∈ names) :
    Progress.writeAll (pathsOf directory named) p
      = (.ok (), { p with
          folder := p.folder.putAll (filesOf p.folder directory named)
          written := p.written ++ filesOf p.folder directory named }) := by
  induction named generalizing p with
  | nil => simp [filesOf, pathsOf, Progress.writeAll, Folder.putAll]
  | cons e rest ih =>
    obtain ⟨he, hrest⟩ := List.forall_mem_cons.mp hnames
    rw [pathsOf, List.map_cons, ← pathsOf, Progress.writeAll, run_bind,
      run_write (h.write he e.2.fileText)]
    simp only
    rw [ih (h.put he e.2.fileText) hrest]
    simp only [List.append_assoc]
    rfl

/-- Where each document can be written alone, all of them are, and no other file is touched. -/
theorem writeAll_writable {directory : String} {named : List (String × Json)}
    (hdistinct : (named.map (·.1)).Nodup)
    (hnamed : ∀ e ∈ named, isFileName e.1 = true ∧
      p.folder.Writable ((FilePath.ofText directory).child (e.1 ++ ".json"))) :
    ∃ r, Progress.writeAll (pathsOf directory named) p = (.ok (), r) ∧
      r.written = p.written ++ filesOf p.folder directory named ∧
      r.folder.files = p.folder.files.filter
          (fun file => file.place ∉ (filesOf p.folder directory named).map (·.place))
        ++ filesOf p.folder directory named := by
  cases named with
  | nil =>
    refine ⟨p, rfl, by simp [filesOf], ?_⟩
    rw [filesOf, List.map_nil, List.append_nil, List.filter_eq_self.mpr (by simp)]
  | cons e rest =>
    -- the first file makes the directory that the others find
    obtain ⟨made, place, hmade, -, -⟩ := Folder.writable_iff.mp (hnamed e (.head _)).2
    have hparent : ((FilePath.ofText directory).child (e.1 ++ ".json")).parent.steps
        = (FilePath.ofText directory).steps := List.dropLast_concat
    rw [hparent] at hmade
    obtain ⟨-, hkeeps, hfiles⟩ := Folder.makeDirectories_eq_ok hmade
    have hplace : filesOf made directory (e :: rest) = filesOf p.folder directory (e :: rest) := by
      rw [filesOf, filesOf, Folder.place, Folder.place, hkeeps.here]
    have hprepared : made.Prepared directory ((e :: rest).map (·.1 ++ ".json")) := by
      refine Folder.prepared_of_writable (fun name hname => ?_) (fun name hname => ?_) hmade
      all_goals
        obtain ⟨e, he, rfl⟩ := List.mem_map.mp hname
      · exact isStep_fileName (hnamed e he).1
      · exact (hnamed e he).2
    have hnames : ∀ e' ∈ e :: rest, e'.1 ++ ".json" ∈ (e :: rest).map (·.1 ++ ".json") :=
      fun e' he' => List.mem_map_of_mem he'
    have hrun : Progress.writeAll (pathsOf directory (e :: rest)) p
        = Progress.writeAll (pathsOf directory (e :: rest)) { p with folder := made } := by
      rw [pathsOf, List.map_cons, Progress.writeAll, run_bind, run_bind,
        run_write (hprepared.write_making hmade (hnames e (.head _)) e.2.fileText),
        run_write (hprepared.write (hnames e (.head _)) e.2.fileText)]
    refine ⟨_, hrun.trans (writeAll_prepared hprepared hnames), ?_, ?_⟩
    · rw [hplace]
    · simp only
      rw [Folder.files_putAll (nodup_filesOf made directory hdistinct), hplace, hfiles]

/-- Whatever stands in the way, only files of the documents are written, in their order. -/
theorem writeAll_take (directory : String) {named : List (String × Json)}
    (h : ∀ e ∈ named, isFileName e.1 = true) :
    ∃ k, (Progress.writeAll (pathsOf directory named) p).2.written
      = p.written ++ (filesOf p.folder directory named).take k := by
  induction named generalizing p with
  | nil => exact ⟨0, (List.append_nil _).symm⟩
  | cons e rest ih =>
    obtain ⟨he, hrest⟩ := List.forall_mem_cons.mp h
    rw [pathsOf, List.map_cons, ← pathsOf, Progress.writeAll, run_bind]
    cases hwrite : p.folder.write ((FilePath.ofText directory).child (e.1 ++ ".json"))
        e.2.fileText with
    | error blocked =>
      -- nothing is written behind the first file that something stands in the way of
      obtain ⟨q, hq, hsame⟩ := Progress.run_fail (α := Unit) (.blocked blocked.1 blocked.2.text) p
      refine ⟨0, ?_⟩
      rw [Progress.write, run_bind, run_get]
      simp only [hwrite, hq]
      rw [hsame.written, List.take_zero, List.append_nil]
    | ok r =>
      obtain ⟨made, place, hmade, hfollow, -, rfl⟩ := Folder.write_eq_ok.mp hwrite
      obtain ⟨hstep, hdown⟩ := isStep_fileName he
      obtain ⟨-, hkeeps, -⟩ := Folder.makeDirectories_eq_ok hmade
      obtain rfl := Folder.follow_child hstep hdown hfollow
      have hplace : ∀ file, (made.put file).place directory = p.folder.place directory := by
        intro file
        rw [Folder.place, Folder.place, ← hkeeps.here]
        rfl
      have hmade : made.place directory = p.folder.place directory := hplace ⟨[], ""⟩
      rw [run_write hwrite]
      simp only
      generalize hfile : File.mk (made.place directory ++ [e.1 ++ ".json"]) e.2.fileText = file
      obtain ⟨k, hk⟩ := ih hrest
        (p := { p with folder := made.put file, written := p.written ++ [file] })
      refine ⟨k + 1, hk.trans ?_⟩
      rw [filesOf, filesOf, hplace, List.map_cons, List.take_succ_cons, List.append_assoc,
        ← hfile, hmade]
      rfl

/-! ### Exports -/

/-- The documents of an export have ids that are texts, each of them its own. -/
theorem convertAll_labelled {catalog : String} {c d : Conversion} {docs : List (Value × Json)}
    (hsound : (c.store.catalog catalog).Sound) (h : Returns (x.convertAll catalog) c docs d) :
    Converter.Labelled docs := by
  obtain ⟨settings, c', hsettings, h₁⟩ := returns_bind.mp h
  have hc : c' = c := by
    unfold readSettings at hsettings
    split at hsettings
    · exact (returns_pure.mp hsettings).2
    · exact absurd hsettings Conversion.not_returns_fail
  rw [hc] at h₁
  exact Converter.documents_labelled hsound h₁

/-- Documents under texts are documents of names. -/
theorem exists_named {docs : List (Value × Json)} (h : Converter.Labelled docs) :
    ∃ named : List (String × Json), docs = documentsOf named ∧
      (named.map (·.1)).Nodup ∧ ∀ e ∈ named, e.2.Keyed := by
  have htexts : ∃ named : List (String × Json), docs = documentsOf named := by
    have hall := h.texts
    clear h
    induction docs with
    | nil => exact ⟨[], rfl⟩
    | cons entry rest ih =>
      obtain ⟨hfirst, hrest⟩ := List.forall_mem_cons.mp hall
      obtain ⟨s, hs⟩ := hfirst
      obtain ⟨named, rfl⟩ := ih hrest
      exact ⟨(s, entry.2) :: named, by rw [documentsOf, documentsOf, List.map_cons, ← hs]⟩
  obtain ⟨named, rfl⟩ := htexts
  refine ⟨named, rfl, ?_, fun e he => h.keyed _ (List.mem_map_of_mem he)⟩
  have hunique := h.unique
  rw [documentsOf, List.map_map] at hunique
  exact (List.pairwise_map.mpr ((List.pairwise_map.mp hunique).imp fun hne heq =>
    hne (congrArg Value.str heq)))

/-- What the conversion comes to that the export of a catalog begins with. -/
def converted (x : Export) (catalog directory : String) (p : Progress) :
    Except Failure (List (Value × Json)) :=
  (x.convertAll catalog
    (started "export_registry" [("output_dir", placeShown (some directory))] p.conversion)).1

/-- What an export begins with has ids that are texts, each of them its own. -/
theorem converted_labelled {catalog directory : String} {docs : List (Value × Json)}
    (hsound : (p.conversion.store.catalog catalog).Sound)
    (h : x.converted catalog directory p = .ok docs) : Converter.Labelled docs := by
  have hstart : ((started "export_registry" [("output_dir", placeShown (some directory))]
      p.conversion).store.catalog catalog).Sound := hsound
  have hreturns : Returns (x.convertAll catalog)
      (started "export_registry" [("output_dir", placeShown (some directory))] p.conversion) docs
      _ := Prod.ext h rfl
  exact convertAll_labelled hstart hreturns

/-- Documents were written to a directory: one file for each, in a place of its own below the
    directory, from which the document can be read, and no other file has changed. -/
structure Filed (p q : Progress) (directory : String) (named : List (String × Json)) : Prop where
  written : q.written = p.written ++ filesOf p.folder directory named
  apart : ((filesOf p.folder directory named).map (·.place)).Nodup
  files : q.folder.files = p.folder.files.filter
      (fun file => file.place ∉ (filesOf p.folder directory named).map (·.place))
    ++ filesOf p.folder directory named
  readable : ∀ e ∈ named, (∀ n ∈ e.2.floats, Json.ReadBack n) →
    Json.parse? e.2.fileText = some e.2

/-- What remains of the export of a catalog behind the conversion. -/
def deliver (directory : String) (docs : List (Value × Json)) :
    Action Progress (List (Value × Json)) := do
  match filePaths (.ofText directory) docs with
  | .ok paths => Progress.writeAll paths
  | .error f => Progress.fail f
  pure docs

/-- Without documents, nothing is written. -/
theorem documents_of_failed {catalog directory : String}
    (h : x.converted catalog directory p = .error f) :
    (x.documents catalog (some directory) p).1 = .error f ∧
      Unwritten p (x.documents catalog (some directory) p).2 :=
  operation_of_error h

/-- The export of a catalog that was converted goes on by writing its documents. -/
theorem documents_of_converted {catalog directory : String} {docs : List (Value × Json)}
    (h : x.converted catalog directory p = .ok docs) :
    ∃ c r, x.documents catalog (some directory) p
        = ((deliver directory docs { p with conversion := c }).1, r) ∧
      Unwritten (deliver directory docs { p with conversion := c }).2 r :=
  operation_of_ok h

/-- A name that is refused is reported before anything is written. -/
theorem deliver_of_refused (directory : String) {named : List (String × Json)}
    (h : ∃ e ∈ named, isFileName e.1 = false) :
    ∃ e ∈ named, isFileName e.1 = false ∧
      (deliver directory (documentsOf named) p).1 = .error (.unusableFileName (.str e.1)) ∧
      Unwritten p (deliver directory (documentsOf named) p).2 := by
  obtain ⟨e, he, hrefused, hpaths⟩ := filePaths_of_refused directory h
  obtain ⟨q, hq, hsame⟩ := Progress.run_fail (α := Unit) (.unusableFileName (.str e.1)) p
  refine ⟨e, he, hrefused, ?_⟩
  rw [deliver, hpaths]
  simp only
  rw [run_bind, hq]
  exact ⟨rfl, hsame⟩

/-- Documents whose names can be those of files are delivered as they are written. -/
theorem deliver_of_names {directory : String} {named : List (String × Json)} {r : Progress}
    {result : Except Failure Unit} (h : ∀ e ∈ named, isFileName e.1 = true)
    (hrun : Progress.writeAll (pathsOf directory named) p = (result, r)) :
    deliver directory (documentsOf named) p = (result.map fun _ => documentsOf named, r) := by
  rw [deliver, filePaths_of_names directory h]
  simp only
  rw [run_bind, hrun]
  cases result <;> rfl

/-- **All files or none.** An export whose conversion fails, and one with a name that cannot be
    used, fails and writes nothing.  Otherwise, if each of the files could be written alone, there
    is one file for each document, in a place of its own right below the directory, from which the
    document can be read; no other file changes, and whatever stands in the way, no file is written
    elsewhere.  The export of a single node writes nothing either if its conversion fails. -/
theorem documents_written (x : Export) (catalog directory : String) (p : Progress)
    (hsound : (p.conversion.store.catalog catalog).Sound) :
    (∀ f, x.converted catalog directory p = .error f →
      (x.documents catalog (some directory) p).1 = .error f ∧
        Unwritten p (x.documents catalog (some directory) p).2) ∧
    (∀ docs, x.converted catalog directory p = .ok docs →
      ∃ named : List (String × Json), docs = documentsOf named ∧ (named.map (·.1)).Nodup ∧
        (∃ k, (x.documents catalog (some directory) p).2.written
          = p.written ++ (filesOf p.folder directory named).take k) ∧
        ((∃ e ∈ named, isFileName e.1 = false) → ∃ e ∈ named, isFileName e.1 = false ∧
          (x.documents catalog (some directory) p).1 = .error (.unusableFileName (.str e.1)) ∧
          Unwritten p (x.documents catalog (some directory) p).2) ∧
        ((∀ e ∈ named, isFileName e.1 = true ∧
            p.folder.Writable ((FilePath.ofText directory).child (e.1 ++ ".json"))) →
          (x.documents catalog (some directory) p).1 = .ok docs ∧
          Filed p (x.documents catalog (some directory) p).2 directory named)) ∧
    ∀ root path f, (x.convert root
        (started "export_schema" [("output_path", placeShown path)] p.conversion)).1 = .error f →
      (x.document root path p).1 = .error f ∧ Unwritten p (x.document root path p).2 := by
  refine ⟨fun f hf => documents_of_failed hf, fun docs hdocs => ?_,
    fun root path f hf => operation_of_error hf⟩
  obtain ⟨named, rfl, hdistinct, hkeyed⟩ := exists_named (converted_labelled hsound hdocs)
  obtain ⟨c, r, hrun, hsame⟩ := documents_of_converted hdocs
  rw [hrun]
  refine ⟨named, rfl, hdistinct, ?_, fun hrefused => ?_, fun hnamed => ?_⟩
  -- Files are written one by one in order, and none at all if one of the names is refused.
  · by_cases hnames : ∀ e ∈ named, isFileName e.1 = true
    · obtain ⟨k, hk⟩ := writeAll_take (p := { p with conversion := c }) directory hnames
      rw [deliver_of_names hnames rfl] at hsame
      exact ⟨k, hsame.written.trans hk⟩
    · have hrefused : ∃ e ∈ named, isFileName e.1 = false := by simpa using hnames
      obtain ⟨-, -, -, -, hnone⟩ :=
        deliver_of_refused (p := { p with conversion := c }) directory hrefused
      refine ⟨0, ?_⟩
      rw [List.take_zero, List.append_nil]
      exact (hnone.trans hsame).written
  -- Names are checked before anything is written.
  · obtain ⟨e, he, hname, herror, hnone⟩ :=
      deliver_of_refused (p := { p with conversion := c }) directory hrefused
    have hall := hnone.trans hsame
    exact ⟨e, he, hname, herror, hall.folder, hall.written⟩
  -- Files of different names do not stand in each other's way.
  · obtain ⟨q, hq, hwritten, hfiles⟩ :=
      writeAll_writable (p := { p with conversion := c }) hdistinct hnamed
    rw [deliver_of_names (fun e he => (hnamed e he).1) hq] at hsame ⊢
    refine ⟨rfl, ?_⟩
    exact {
      written := hsame.written.trans hwritten
      apart := nodup_filesOf p.folder directory hdistinct
      files := (congrArg (·.files) hsame.folder).trans hfiles
      readable := fun e he hfloats => Json.parse?_fileText hfloats (hkeyed e he) }

/-- Two strings under ids, about to be exported. -/
def twoTexts (first second : String) : Progress where
  conversion := { store := {
    nodes := [{ kind := .string }, { kind := .string }]
    catalogs := [("texts",
      { entries := [(.node 0, [(.str "id", .str first)]), (.node 1, [(.str "id", .str second)])]
        ids := [(.str first, .node 0), (.str second, .node 1)] })] } }

/-- The catalog of two strings is sound. -/
theorem twoTexts_sound : ((twoTexts "a" "b").conversion.store.catalog "texts").Sound := by
  have hfirst : Catalog.Sound
      { entries := [(.node 0, [(.str "id", .str "a")])], ids := [(.str "a", .node 0)] } :=
    Catalog.sound_empty.add (.inr ⟨"a", rfl⟩) (by rfl :
      Catalog.add {} (.node 0) [(.str "id", .str "a")] = .ok _)
  exact hfirst.add (.inr ⟨"b", rfl⟩) (by rfl :
    Catalog.add _ (.node 1) [(.str "id", .str "b")] = .ok _)

/-- The strings `a` and `b` are exported to two files. -/
theorem documents_written_twoTexts :
    ((twoTexts "a" "b").conversion.store.catalog "texts").Sound ∧
      ∃ named, named.map (·.1) = ["a", "b"] ∧
        (({} : Export).documents "texts" (some "out") (twoTexts "a" "b")).1
          = .ok (documentsOf named) ∧
        Filed (twoTexts "a" "b")
          (({} : Export).documents "texts" (some "out") (twoTexts "a" "b")).2 "out" named := by
  refine ⟨twoTexts_sound, ?_⟩
  have hids : ((({} : Export).converted "texts" "out" (twoTexts "a" "b")).toOption.map
      fun docs => docs.map (·.1)) = some [.str "a", .str "b"] := by
    decide +kernel
  obtain ⟨-, hconverted, -⟩ := documents_written {} "texts" "out" (twoTexts "a" "b") twoTexts_sound
  cases hdocs : ({} : Export).converted "texts" "out" (twoTexts "a" "b") with
  | error f =>
    rw [hdocs] at hids
    cases hids
  | ok docs =>
    obtain ⟨named, rfl, -, -, -, hwritten⟩ := hconverted docs hdocs
    rw [hdocs] at hids
    -- The labels are the ids, and a label tells its text.
    have hnames : named.map (·.1) = ["a", "b"] := by
      have hlabels : (named.map (·.1)).map Value.str = ["a", "b"].map Value.str := by
        simpa [documentsOf, Except.toOption, Function.comp_def] using hids
      exact List.map_injective_iff.mpr (fun _ _ => Value.str.inj) hlabels
    refine ⟨named, hnames, hwritten fun e he => ?_⟩
    have hname : e.1 ∈ ["a", "b"] := hnames ▸ List.mem_map_of_mem he
    generalize e.1 = name at hname
    revert name
    simp only [Folder.Writable]
    decide +kernel

/-- A name that no file can have is found out too late: another file has been written. -/
theorem documents_written_null :
    (∀ folder : Folder,
      ¬ folder.Writable ((FilePath.ofText "out").child ("b\x00c" ++ ".json"))) ∧
    (({} : Export).documents "texts" (some "out") (twoTexts "a" "b\x00c")).1.isOk = false ∧
    (({} : Export).documents "texts" (some "out") (twoTexts "a" "b\x00c")).2.written.map (·.place)
      = [["out", "a.json"]] := by
  refine ⟨fun folder hwritable => ?_, by decide +kernel, by decide +kernel⟩
  obtain ⟨_, _, -, hfollow, -⟩ := Folder.writable_iff.mp hwritable
  obtain ⟨hnull, -⟩ := Folder.follow_eq_ok.mp hfollow
  exact hnull (by decide +kernel)

end Export

end SchemaGraph
