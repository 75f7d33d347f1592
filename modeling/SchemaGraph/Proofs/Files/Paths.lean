import SchemaGraph.Folder

namespace SchemaGraph

/-!
# Texts of paths

A path without needless steps is spelled by a text that takes the same steps again.

* `IsStep`         — a single step to somewhere else
* `FilePath.Plain` — what a path is made of that a text spells
* `FilePath.Plain.stepsTaken_text` — the text of a path takes the steps of the path
* `climb_append`   — a name behind steps leads to the place of that name
-/

/-! ### Parts of a text -/

/-- A text splits into one part at least. -/
theorem splitSlashes_ne_nil (cs : List Char) : splitSlashes cs ≠ [] := by
  cases cs with
  | nil => nofun
  | cons c cs =>
    rw [splitSlashes]
    split
    · nofun
    · split <;> nofun

/-- A text splits at each slash. -/
theorem splitSlashes_append (cs more : List Char) :
    splitSlashes (cs ++ '/' :: more) = splitSlashes cs ++ splitSlashes more := by
  induction cs with
  | nil => rfl
  | cons c cs ih =>
    rw [List.cons_append, splitSlashes, splitSlashes, ih]
    split
    · rfl
    · cases hcs : splitSlashes cs with
      | nil => exact absurd hcs (splitSlashes_ne_nil cs)
      | cons part parts => rfl

/-- A text without a slash is its only part. -/
theorem splitSlashes_of_not_mem {cs : List Char} (h : '/' ∉ cs) : splitSlashes cs = [cs] := by
  induction cs with
  | nil => rfl
  | cons c cs ih =>
    rw [List.mem_cons, not_or] at h
    rw [splitSlashes, if_neg (Ne.symm h.1), ih h.2]

/-- No part holds a slash. -/
theorem not_mem_of_mem_splitSlashes {cs part : List Char} (h : part ∈ splitSlashes cs) :
    '/' ∉ part := by
  induction cs generalizing part with
  | nil =>
    rw [List.mem_singleton.1 h]
    nofun
  | cons c cs ih =>
    rw [splitSlashes] at h
    split at h
    · rcases List.mem_cons.1 h with rfl | h
      · nofun
      · exact ih h
    -- A character other than a slash joins the first part of the rest.
    rename_i hc
    split at h
    · rw [List.mem_singleton.1 h]
      simpa using Ne.symm hc
    · rename_i first parts hsplit
      rw [hsplit] at ih
      rcases List.mem_cons.1 h with rfl | h
      · rw [List.mem_cons, not_or]
        exact ⟨Ne.symm hc, ih (.head _)⟩
      · exact ih (.tail _ h)

/-! ### Paths -/

/-- A step that leads somewhere else, and no path of several steps. -/
structure IsStep (step : String) : Prop where
  nonempty : step ≠ ""
  moves : step ≠ "."
  single : '/' ∉ step.toList

/-- Steps are read back from the text that joins them. -/
theorem pathParts_pathText {steps : List String} (hne : steps ≠ [])
    (h : ∀ step ∈ steps, '/' ∉ step.toList) : pathParts (pathText steps) = steps := by
  induction steps with
  | nil => exact absurd rfl hne
  | cons step rest ih =>
    have hstep := splitSlashes_of_not_mem (h step (.head _))
    cases rest with
    | nil =>
      rw [pathParts, pathText, String.intercalate_singleton, hstep]
      simp
    | cons next rest =>
      have hrest := ih nofun fun s hs => h s (.tail _ hs)
      rw [pathParts, pathText] at hrest ⊢
      have htext : (String.intercalate "/" (step :: next :: rest)).toList
          = step.toList ++ '/' :: (String.intercalate "/" (next :: rest)).toList := by
        simp [String.intercalate_cons_cons]
      rw [htext, splitSlashes_append, hstep, List.singleton_append, List.map_cons, hrest]
      simp

namespace FilePath

variable {path : FilePath}

/-- What the path that a text spells is made of. -/
structure Plain (path : FilePath) : Prop where
  root : path.root = "" ∨ path.root = "/" ∨ path.root = "//"
  steps : ∀ step ∈ path.steps, IsStep step

/-- A path that is read from a text is plain. -/
theorem plain_ofText (text : String) : (ofText text).Plain where
  root := by
    unfold ofText
    simp only
    split <;> simp
  steps := by
    intro step hstep
    rw [ofText, pathSteps, List.mem_filter, pathParts, List.mem_map] at hstep
    obtain ⟨⟨part, hpart, rfl⟩, hne⟩ := hstep
    simp only [ne_eq, decide_eq_true_eq] at hne
    exact ⟨hne.1, hne.2, by simpa using not_mem_of_mem_splitSlashes hpart⟩

/-- A plain path with one step more is plain. -/
theorem Plain.child (h : path.Plain) {name : String} (hname : IsStep name) :
    (path.child name).Plain where
  root := h.root
  steps := by
    intro step hstep
    rcases List.mem_append.1 hstep with hstep | hstep
    · exact h.steps step hstep
    · rw [List.mem_singleton.1 hstep]
      exact hname

/-- A text spells an absolute path exactly if its path has a root. -/
theorem isAbsolute_ofText (text : String) :
    isAbsolute text = true ↔ (ofText text).root ≠ "" := by
  unfold isAbsolute ofText
  cases text.toList with
  | nil => simp
  | cons c cs =>
    by_cases hc : c = '/'
    · subst hc
      simp only [List.head?_cons, decide_true, true_iff, List.takeWhile_cons]
      simp only [if_pos]
      split <;> simp_all
    · simp [hc]

/-- The text of a path spells its steps, behind nothing or behind empty parts. -/
theorem Plain.pathParts_text (h : path.Plain) (hne : path.steps ≠ []) :
    ∃ front : List String, (∀ part ∈ front, part = "") ∧
      pathParts path.text = front ++ path.steps := by
  have hsteps := pathParts_pathText hne fun s hs => (h.steps s hs).single
  have hslash : ∀ text : String, pathParts ("/" ++ text) = "" :: pathParts text := by
    intro text
    simp [pathParts, splitSlashes]
  rw [text, if_neg fun hnone => hne hnone.2]
  -- each slash of the root spells one empty part
  rcases h.root with hr | hr | hr <;> rw [hr]
  · exact ⟨[], nofun, by rw [String.empty_append, hsteps]; rfl⟩
  · exact ⟨[""], by simp, by rw [hslash, hsteps]; rfl⟩
  · have htwo : "//" ++ pathText path.steps = "/" ++ ("/" ++ pathText path.steps) := by
      rw [← String.append_assoc]
      rfl
    exact ⟨["", ""], by simp, by rw [htwo, hslash, hslash, hsteps]; rfl⟩

/-- The text of a plain path takes the steps of the path. -/
theorem Plain.stepsTaken_text (h : path.Plain) (hne : path.steps ≠ []) :
    Folder.stepsTaken path.text = path.steps := by
  obtain ⟨front, hfront, hparts⟩ := h.pathParts_text hne
  have hsteps : ∀ step ∈ path.steps, step ≠ "" := fun s hs => (h.steps s hs).nonempty
  -- no slash ends the text, since the last part is a step
  have hlast : (front ++ path.steps).getLast? ≠ some "" := by
    rw [List.getLast?_append, List.getLast?_eq_some_getLast hne, Option.some_or, ne_eq,
      Option.some.injEq]
    exact hsteps _ (List.getLast_mem hne)
  rw [Folder.stepsTaken, hparts]
  simp only [if_neg hlast, List.filter_append]
  rw [List.filter_eq_nil_iff.2 (by simpa using hfront), List.nil_append,
    List.filter_eq_self.2 (by simpa using hsteps)]

/-- The text of a plain path is absolute exactly if the path has a root. -/
theorem Plain.isAbsolute_text (h : path.Plain) (hne : path.steps ≠ []) :
    isAbsolute path.text = true ↔ path.root ≠ "" := by
  rw [text, if_neg fun hnone => hne hnone.2]
  rcases h.root with hr | hr | hr <;> rw [hr]
  · have hsteps := pathParts_pathText hne fun s hs => (h.steps s hs).single
    rw [String.empty_append]
    refine ⟨fun habsolute => ?_, fun hroot => absurd rfl hroot⟩
    -- a slash in front would spell an empty step
    have hempty : "" ∈ pathParts (pathText path.steps) := by
      unfold isAbsolute at habsolute
      rw [pathParts]
      cases htext : (pathText path.steps).toList with
      | nil => simp [htext] at habsolute
      | cons c cs =>
        obtain rfl : c = '/' := by simpa [htext] using habsolute
        simp [splitSlashes]
    rw [hsteps] at hempty
    exact absurd rfl (h.steps "" hempty).nonempty
  · simp [isAbsolute]
  · simp [isAbsolute]

end FilePath

/-! ### Places -/

/-- A name behind steps leads to the place of that name where the steps lead. -/
theorem climb_append {name : String} (hname : name ≠ "..") (steps done : List String) :
    climb done (steps ++ [name]) = climb done steps ++ [name] := by
  induction steps generalizing done with
  | nil => simp [climb, hname]
  | cons step rest ih =>
    rw [List.cons_append, climb, climb]
    split
    · exact ih _
    · exact ih _

end SchemaGraph
