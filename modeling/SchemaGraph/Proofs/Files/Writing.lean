import SchemaGraph.Proofs.Files.Paths

namespace SchemaGraph

/-!
# Files written side by side

Directories stay where they are when a file is written, and so does what they lead to.  Files of
different names in one directory do not stand in each other's way: what can be written to each of
them alone can be written to all of them, one after the other.

* `Folder.Keeps`     — every directory is still one
* `Folder.walk_eq_climb` — a walk ends where its steps lead
* `Folder.write_eq_ok`   — what it takes to write a file
* `Folder.Writable`  — a file can be written to a path
* `Folder.Prepared`  — a directory is there, and files of some names can be written in it
-/

/-! ### Results -/

/-- What is done in sequence returns if both parts do. -/
theorem bind_eq_ok {ε α β : Type} {x : Except ε α} {k : α → Except ε β} {b : β} :
    (x >>= k) = .ok b ↔ ∃ a, x = .ok a ∧ k a = .ok b := by
  cases x with
  | error e => simp [bind, Except.bind]
  | ok a => simp [bind, Except.bind]

/-- Failures that are renamed leave results alone. -/
theorem mapError_eq_ok {ε δ α : Type} {x : Except ε α} {k : ε → δ} {a : α} :
    x.mapError k = .ok a ↔ x = .ok a := by
  cases x with
  | error e => constructor <;> intro h <;> cases h
  | ok b =>
    exact ⟨fun h => congrArg Except.ok (Except.ok.inj h),
      fun h => congrArg Except.ok (Except.ok.inj h)⟩

namespace Folder

variable {folder f g h made : Folder} {place target : FilePlace}

/-! ### Directories -/

/-- From the same place, every directory is still one. -/
structure Keeps (f g : Folder) : Prop where
  here : g.here = f.here
  directory : ∀ {place}, f.entry? place = some .directory → g.entry? place = some .directory

/-- A folder keeps its own directories. -/
theorem Keeps.refl (f : Folder) : Keeps f f := ⟨rfl, id⟩

/-- Directories that stay twice stay. -/
theorem Keeps.trans (h₁ : Keeps f g) (h₂ : Keeps g h) : Keeps f h :=
  ⟨h₂.here.trans h₁.here, fun hd => h₂.directory (h₁.directory hd)⟩

/-- No file is at a place where none is found. -/
theorem no_file_of_entry (h : ∀ text, folder.entry? place ≠ some (.file text)) :
    ∀ file ∈ folder.files, file.place ≠ place := by
  intro file hfile heq
  unfold entry? at h
  cases hfind : folder.files.find? fun file => file.place = place with
  | none => exact absurd heq (by simpa using List.find?_eq_none.1 hfind file hfile)
  | some found => exact h found.text (by rw [hfind])

/-- A place is a directory if no file is there and something lies below it. -/
theorem entry?_eq_directory :
    folder.entry? place = some .directory ↔
      (∀ file ∈ folder.files, file.place ≠ place) ∧ folder.isDirectoryAt place = true := by
  constructor
  · intro h
    refine ⟨no_file_of_entry (by rw [h]; nofun), ?_⟩
    unfold entry? at h
    split at h
    · cases h
    split at h
    · assumption
    · cases h
  · rintro ⟨hfiles, hd⟩
    have hfind : folder.files.find? (fun file => file.place = place) = none :=
      List.find?_eq_none.2 fun file hfile => by simpa using hfiles file hfile
    unfold entry?
    rw [hfind, if_pos hd]

/-- A place is a directory if the present one, another one or a file lies below it. -/
theorem isDirectoryAt_eq_true :
    folder.isDirectoryAt place = true ↔ place <+: folder.here ∨
      (∃ d ∈ folder.directories, place <+: d) ∨
      ∃ file ∈ folder.files, place ≠ file.place ∧ place <+: file.place := by
  simp [isDirectoryAt, or_assoc]

/-- A directory that is made is one. -/
theorem keeps_directory (hfree : folder.entry? place = none) :
    Keeps folder { folder with directories := folder.directories ++ [place] } ∧
      Folder.entry? { folder with directories := folder.directories ++ [place] } place
        = some .directory := by
  have hfiles : ∀ file ∈ folder.files, file.place ≠ place :=
    no_file_of_entry (by rw [hfree]; nofun)
  refine ⟨⟨rfl, fun {q} hq => ?_⟩, entry?_eq_directory.2 ⟨hfiles, ?_⟩⟩
  · obtain ⟨hq, hd⟩ := entry?_eq_directory.1 hq
    refine entry?_eq_directory.2 ⟨hq, isDirectoryAt_eq_true.2 ?_⟩
    rcases isDirectoryAt_eq_true.1 hd with hd | ⟨d, hd, hp⟩ | hd
    · exact .inl hd
    · exact .inr (.inl ⟨d, List.mem_append_left _ hd, hp⟩)
    · exact .inr (.inr hd)
  · exact isDirectoryAt_eq_true.2 (.inr (.inl ⟨place, by simp, List.prefix_rfl⟩))

/-- A file that is put where no directory is leaves every directory. -/
theorem keeps_put {file : File} (h : folder.isDirectoryAt file.place = false) :
    Keeps folder (folder.put file) := by
  refine ⟨rfl, fun {q} hq => ?_⟩
  obtain ⟨hfiles, hd⟩ := entry?_eq_directory.1 hq
  have hne : file.place ≠ q := by
    rintro rfl
    rw [h] at hd
    cases hd
  refine entry?_eq_directory.2 ⟨fun other hother => ?_, isDirectoryAt_eq_true.2 ?_⟩
  · rcases List.mem_append.1 hother with hother | hother
    · exact hfiles other (List.mem_filter.1 hother).1
    · rw [List.mem_singleton.1 hother]
      exact hne
  rcases isDirectoryAt_eq_true.1 hd with hd | hd | ⟨other, hother, hp⟩
  · exact .inl hd
  · exact .inr (.inl hd)
  refine .inr (.inr ?_)
  -- the directory of a file that is replaced is that of the new one
  by_cases heq : other.place = file.place
  · exact ⟨file, by simp [put], hne.symm, heq ▸ hp.2⟩
  · exact ⟨other, by simp [put, hother, heq], hp⟩

/-! ### Walks -/

/-- The place that a step leads to. -/
def stepFrom (place : FilePlace) (step : String) : FilePlace :=
  if step = "." then place else if step = ".." then place.dropLast else place ++ [step]

/-- A walk goes on from a directory only. -/
theorem walk_cons_eq_ok {step : String} {rest : List String} :
    folder.walk place (step :: rest) = .ok target ↔
      folder.entry? place = some .directory ∧
      (step = "." ∨ step = ".." ∨ step.utf8ByteSize ≤ longestStep) ∧
      folder.walk (stepFrom place step) rest = .ok target := by
  rw [Folder.walk, stepFrom]
  split
  · rename_i hentry; simp [hentry]
  · rename_i hentry; simp [hentry]
  rename_i hentry
  by_cases hdot : step = "."
  · simp [hentry, hdot]
  by_cases hup : step = ".."
  · simp [hentry, hup]
  by_cases hlong : longestStep < step.utf8ByteSize
  · simp [hentry, hdot, hup, hlong, Nat.not_le.2 hlong]
  · simp [hentry, hdot, hup, hlong, Nat.not_lt.1 hlong]

/-- A path leads to a place if it is well formed, is not too long, and can be walked. -/
theorem follow_eq_ok {path : String} :
    folder.follow path = .ok target ↔
      '\x00' ∉ path.toList ∧ path ≠ "" ∧ path.utf8ByteSize ≤ longestPath ∧
      folder.walk (if isAbsolute path then [] else folder.here) (stepsTaken path) = .ok target := by
  unfold Folder.follow
  by_cases hnull : '\x00' ∈ path.toList
  · simp [hnull]
  by_cases hempty : path = ""
  · simp [hempty]
  by_cases hlong : longestPath < path.utf8ByteSize
  · simp [hnull, hempty, hlong, Nat.not_le.2 hlong]
  · simp [hnull, hempty, hlong, Nat.not_lt.1 hlong]

/-- A walk goes the same way as long as every directory is still one. -/
theorem Keeps.walk (hk : Keeps f g) {steps : List String} (h : f.walk place steps = .ok target) :
    g.walk place steps = .ok target := by
  induction steps generalizing place with
  | nil => exact h
  | cons step rest ih =>
    obtain ⟨hentry, hstep, hrest⟩ := walk_cons_eq_ok.1 h
    exact walk_cons_eq_ok.2 ⟨hk.directory hentry, hstep, ih hrest⟩

/-- Where directories are kept, paths lead to the same places. -/
theorem Keeps.follow (hk : Keeps f g) {path : String} (h : f.follow path = .ok target) :
    g.follow path = .ok target := by
  obtain ⟨hnull, hempty, hlong, hwalk⟩ := follow_eq_ok.1 h
  refine follow_eq_ok.2 ⟨hnull, hempty, hlong, ?_⟩
  rw [hk.here]
  exact hk.walk hwalk

/-- A walk ends where its steps lead. -/
theorem walk_eq_climb {steps : List String} (hsteps : "." ∉ steps)
    (h : folder.walk place steps = .ok target) : target = climb place.reverse steps := by
  induction steps generalizing place with
  | nil =>
    cases h
    rw [climb, List.reverse_reverse]
  | cons step rest ih =>
    rw [List.mem_cons, not_or] at hsteps
    obtain ⟨-, -, hrest⟩ := walk_cons_eq_ok.1 h
    rw [ih hsteps.2 hrest, climb, stepFrom, if_neg (Ne.symm hsteps.1)]
    split
    · rw [List.tail_reverse]
    · rw [List.reverse_append]
      rfl

/-! ### Making directories -/

/-- A directory is found where a path leads to one. -/
theorem find_eq_directory {path : String} :
    folder.find path = .ok .directory ↔
      ∃ place, folder.follow path = .ok place ∧ folder.entry? place = some .directory := by
  rw [find, bind_eq_ok]
  refine exists_congr fun place => and_congr_right fun _ => ?_
  cases folder.entry? place <;> simp

/-- Where directories are kept, they are found. -/
theorem Keeps.find (hk : Keeps f g) {path : String} (h : f.find path = .ok .directory) :
    g.find path = .ok .directory := by
  obtain ⟨place, hfollow, hentry⟩ := find_eq_directory.1 h
  exact find_eq_directory.2 ⟨place, hk.follow hfollow, hk.directory hentry⟩

/-- A directory that is there need not be made. -/
theorem ensureDirectory_of_find {path : FilePath} (h : folder.find path.text = .ok .directory) :
    folder.ensureDirectory path = .ok folder := by
  obtain ⟨place, hfollow, hentry⟩ := find_eq_directory.1 h
  have hmake : folder.makeDirectory path = .error .fileExists := by
    simp [makeDirectory, hfollow, hentry, bind, Except.bind]
  rw [ensureDirectory, hmake]
  simp only [h]

/-- A directory that was made is there, every other one still is, and no file has changed. -/
theorem ensureDirectory_eq_ok {path : FilePath} (h : folder.ensureDirectory path = .ok made) :
    made.find path.text = .ok .directory ∧ Keeps folder made ∧ made.files = folder.files := by
  unfold ensureDirectory at h
  split at h
  · rename_i g hmake
    cases h
    obtain ⟨place, hfollow, hplace⟩ := bind_eq_ok.1 hmake
    split at hplace
    · cases hplace
    · rename_i hfree
      cases hplace
      obtain ⟨hkeeps, hentry⟩ := keeps_directory hfree
      exact ⟨find_eq_directory.2 ⟨place, hkeeps.follow hfollow, hentry⟩, hkeeps, rfl⟩
  · -- what stands in the way may be the directory itself
    split at h
    · rename_i hfind
      cases h
      exact ⟨hfind, .refl folder, rfl⟩
    · cases h

/-- Directories that were made are there. -/
theorem makeDirectories_eq_ok {root : String} {steps : List String}
    (h : folder.makeDirectories root steps = .ok made) :
    (steps ≠ [] → made.find (FilePath.mk root steps.reverse).text = .ok .directory) ∧
      Keeps folder made ∧ made.files = folder.files := by
  induction steps generalizing made with
  | nil =>
    cases h
    exact ⟨fun hne => absurd rfl hne, .refl folder, rfl⟩
  | cons step above ih =>
    unfold makeDirectories at h
    simp only at h
    split at h
    · rename_i g hensure
      cases h
      obtain ⟨hfind, hkeeps⟩ := ensureDirectory_eq_ok hensure
      exact ⟨fun _ => hfind, hkeeps⟩
    · -- the directory above was missing, and is made first
      obtain ⟨g, habove, hensure⟩ := bind_eq_ok.1 h
      obtain ⟨hfind, hkeeps, hfiles⟩ := ensureDirectory_eq_ok (mapError_eq_ok.1 hensure)
      obtain ⟨-, hkeeps', hfiles'⟩ := ih habove
      exact ⟨fun _ => hfind, hkeeps'.trans hkeeps, hfiles.trans hfiles'⟩
    · cases h

/-- Directories that are there need not be made. -/
theorem makeDirectories_of_find {root : String} {steps : List String}
    (h : steps ≠ [] → folder.find (FilePath.mk root steps.reverse).text = .ok .directory) :
    folder.makeDirectories root steps = .ok folder := by
  cases steps with
  | nil => rfl
  | cons step above =>
    unfold makeDirectories
    simp only [ensureDirectory_of_find (h nofun)]

/-! ### Writing -/

/-- What it takes to write a file: its directory is there or can be made, its path can be followed,
    and no directory is in its place. -/
theorem write_eq_ok {path : FilePath} {text : String} {r : File × Folder} :
    folder.write path text = .ok r ↔
      ∃ made place, folder.makeDirectories path.root path.parent.steps.reverse = .ok made ∧
        made.follow path.text = .ok place ∧ made.isDirectoryAt place = false ∧
        r = (⟨place, text⟩, made.put ⟨place, text⟩) := by
  rw [write, bind_eq_ok]
  refine exists_congr fun made => ?_
  rw [exists_and_left]
  refine and_congr_right fun _ => ?_
  rw [bind_eq_ok]
  refine exists_congr fun place => ?_
  rw [mapError_eq_ok]
  refine and_congr_right fun _ => ?_
  cases made.isDirectoryAt place <;> simp [eq_comm]

/-- A file can be written to a path. -/
def Writable (folder : Folder) (path : FilePath) : Prop :=
  (folder.write path "").isOk = true

/-- A file can be written if its directories can be made and no directory is in its place. -/
theorem writable_iff {path : FilePath} :
    folder.Writable path ↔
      ∃ made place, folder.makeDirectories path.root path.parent.steps.reverse = .ok made ∧
        made.follow path.text = .ok place ∧ made.isDirectoryAt place = false := by
  unfold Writable
  constructor
  · intro h
    cases hwrite : folder.write path "" with
    | error e => rw [hwrite] at h; cases h
    | ok r =>
      obtain ⟨made, place, hmade, hfollow, hfree, -⟩ := write_eq_ok.1 hwrite
      exact ⟨made, place, hmade, hfollow, hfree⟩
  · rintro ⟨made, place, hmade, hfollow, hfree⟩
    rw [write_eq_ok.2 ⟨made, place, hmade, hfollow, hfree, rfl⟩]
    rfl

/-- A path to a name in a directory leads to the place of that name in the place that the directory
    has. -/
theorem follow_child {directory name : String} (hname : IsStep name) (hdown : name ≠ "..")
    (h : folder.follow ((FilePath.ofText directory).child name).text = .ok place) :
    place = folder.place directory ++ [name] := by
  have hplain := (FilePath.plain_ofText directory).child hname
  have hne : ((FilePath.ofText directory).child name).steps ≠ [] := by simp [FilePath.child]
  -- the path begins where the directory does, and its steps end with the name
  have habsolute : isAbsolute ((FilePath.ofText directory).child name).text
      = isAbsolute directory := by
    rw [Bool.eq_iff_iff, hplain.isAbsolute_text hne, FilePath.isAbsolute_ofText]
    rfl
  obtain ⟨-, -, -, hwalk⟩ := follow_eq_ok.1 h
  rw [hplain.stepsTaken_text hne, habsolute] at hwalk
  have hmoves : "." ∉ ((FilePath.ofText directory).child name).steps :=
    fun hmem => (hplain.steps "." hmem).moves rfl
  rw [walk_eq_climb hmoves hwalk]
  have hstart : (if isAbsolute directory then [] else folder.here).reverse
      = if isAbsolute directory then [] else folder.here.reverse := by
    split <;> rfl
  rw [hstart]
  exact climb_append hdown _ _

/-! ### Files of one directory -/

/-- A directory is there, and nothing stands in the way of files of these names in it. -/
structure Prepared (folder : Folder) (directory : String) (names : List String) : Prop where
  made : folder.makeDirectories (FilePath.ofText directory).root
    (FilePath.ofText directory).steps.reverse = .ok folder
  follow : ∀ name ∈ names, folder.follow ((FilePath.ofText directory).child name).text
    = .ok (folder.place directory ++ [name])
  free : ∀ name ∈ names, folder.isDirectoryAt (folder.place directory ++ [name]) = false

section Prepared

variable {directory name : String} {names : List String}

/-- Where each file can be written alone, the directory can be prepared for all of them. -/
theorem prepared_of_writable (hsteps : ∀ name ∈ names, IsStep name ∧ name ≠ "..")
    (hwritable : ∀ name ∈ names, folder.Writable ((FilePath.ofText directory).child name))
    (hmade : folder.makeDirectories (FilePath.ofText directory).root
      (FilePath.ofText directory).steps.reverse = .ok made) :
    made.Prepared directory names := by
  have hparent : ∀ name, ((FilePath.ofText directory).child name).parent.steps
      = (FilePath.ofText directory).steps := fun name => List.dropLast_concat
  obtain ⟨hfind, hkeeps, -⟩ := makeDirectories_eq_ok hmade
  have hplace : made.place directory = folder.place directory := by
    rw [place, place, hkeeps.here]
  refine ⟨makeDirectories_of_find hfind, fun name hname => ?_, fun name hname => ?_⟩
  all_goals
    obtain ⟨made', place, hmade', hfollow, hfree⟩ := writable_iff.1 (hwritable name hname)
    rw [hparent] at hmade'
    obtain rfl : made = made' := Except.ok.inj (hmade.symm.trans hmade')
    obtain ⟨hstep, hdown⟩ := hsteps name hname
    obtain rfl := follow_child hstep hdown hfollow
  · exact hfollow
  · exact hfree

/-- The directory is made on the way, and the file written there. -/
theorem Prepared.write_making (h : made.Prepared directory names)
    (hmade : folder.makeDirectories (FilePath.ofText directory).root
      (FilePath.ofText directory).steps.reverse = .ok made) (hname : name ∈ names)
    (text : String) :
    folder.write ((FilePath.ofText directory).child name) text
      = .ok (⟨made.place directory ++ [name], text⟩,
        made.put ⟨made.place directory ++ [name], text⟩) := by
  have hparent : ((FilePath.ofText directory).child name).parent.steps
      = (FilePath.ofText directory).steps := List.dropLast_concat
  refine write_eq_ok.2 ⟨made, _, ?_, h.follow name hname, h.free name hname, rfl⟩
  rw [hparent]
  exact hmade

/-- A file of a prepared name is written to its place in the directory. -/
theorem Prepared.write (h : folder.Prepared directory names) (hname : name ∈ names)
    (text : String) :
    folder.write ((FilePath.ofText directory).child name) text
      = .ok (⟨folder.place directory ++ [name], text⟩,
        folder.put ⟨folder.place directory ++ [name], text⟩) :=
  h.write_making h.made hname text

/-- A file of one name leaves the way free for those of the others. -/
theorem Prepared.put (h : folder.Prepared directory names) (hname : name ∈ names)
    (text : String) :
    (folder.put ⟨folder.place directory ++ [name], text⟩).Prepared directory names := by
  have hkeeps : Keeps folder (folder.put ⟨folder.place directory ++ [name], text⟩) :=
    keeps_put (h.free name hname)
  obtain ⟨hfind, -, -⟩ := makeDirectories_eq_ok h.made
  refine ⟨makeDirectories_of_find fun hne => hkeeps.find (hfind hne),
    fun other hother => hkeeps.follow (h.follow other hother), fun other hother => ?_⟩
  have hfree := h.free other hother
  rw [Bool.eq_false_iff, ne_eq, isDirectoryAt_eq_true] at hfree ⊢
  rintro (hhere | hdirectory | ⟨file, hfile, hne, hbelow⟩)
  · exact hfree (.inl hhere)
  · exact hfree (.inr (.inl hdirectory))
  rcases List.mem_append.1 hfile with hfile | hfile
  · exact hfree (.inr (.inr ⟨file, (List.mem_filter.1 hfile).1, hne, hbelow⟩))
  · -- the place of a sibling is no longer than this one
    obtain rfl := List.mem_singleton.1 hfile
    exact hne (hbelow.eq_of_length (by rw [List.length_append, List.length_append]; rfl))

end Prepared

/-- Files put one after the other. -/
def putAll (folder : Folder) (files : List File) : Folder := files.foldl Folder.put folder

/-- Files in different places are all there in the end, beside those in other places. -/
theorem files_putAll {files : List File} (hplaces : (files.map (·.place)).Nodup) :
    (folder.putAll files).files
      = folder.files.filter (fun file => file.place ∉ files.map (·.place)) ++ files := by
  induction files generalizing folder with
  | nil =>
    rw [List.append_nil, List.filter_eq_self.2 (by simp)]
    rfl
  | cons file rest ih =>
    rw [List.map_cons, List.nodup_cons] at hplaces
    have hlast : [file].filter (fun other => other.place ∉ rest.map (·.place)) = [file] :=
      List.filter_eq_self.2 (by simpa using hplaces.1)
    have hboth : ∀ other : File, (decide (other.place ∉ rest.map (·.place))
        && decide (other.place ≠ file.place))
          = decide (other.place ∉ (file :: rest).map (·.place)) := by
      intro other
      rw [← Bool.decide_and]
      exact decide_eq_decide.2 (by rw [List.map_cons, List.mem_cons, not_or]; exact and_comm)
    rw [putAll, List.foldl_cons, ← putAll, ih hplaces.2, Folder.put, List.filter_append, hlast,
      List.filter_filter, List.append_assoc, List.singleton_append]
    simp only [hboth]

end Folder

end SchemaGraph
