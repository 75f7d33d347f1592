import SchemaGraph.Proofs.Document.Holding

namespace SchemaGraph

/-!
# What schemas say about values

A value satisfies a schema if it satisfies all keywords of the schema, and with them the schema
to which it refers.  What a single keyword says is left to the dialect; it depends on what the
keyword holds, and on some of the keywords beside it.  Recursive schemas make it necessary to
look down to a depth only, so that a verdict may be open.

* `Dialect`             — what single keywords say
* `Dialect.Independent` — keywords that may be put over others, or stand beside them
* `Json.segments`       — the keywords that apply together, one reference after the other
* `Json.verdict`        — what a schema with references says about a value
-/

/-! ### Verdicts -/

/-- What is known of whether a value satisfies a schema. -/
inductive Verdict where
  | accepted
  | rejected
  /-- It takes a look at greater depth, or a reference leads nowhere. -/
  | unsettled
deriving DecidableEq, Repr

/-- One rejection is enough; acceptance takes all. -/
def Verdict.all (vs : List Verdict) : Verdict :=
  if .rejected ∈ vs then .rejected
  else if .unsettled ∈ vs then .unsettled
  else .accepted

/-- The order of verdicts does not count, nor how often one is given. -/
theorem Verdict.all_congr {vs ws : List Verdict} (h : ∀ v, v ∈ vs ↔ v ∈ ws) :
    all vs = all ws := by
  unfold all
  simp only [h]

/-! ### Dialects -/

/-- What a set of keywords holds, as far as it is known what the schemas in it say. -/
abbrev Keywords := String → Option (Holding (Json → Verdict))

/-- What single keywords say about values. -/
structure Dialect where
  /-- The keywords on which it depends what a keyword says: commonly the keyword itself and a
      few beside it, and none for annotations. -/
  reads : String → List String
  judge : String → Keywords → Json → Verdict
  judge_congr : ∀ {name : String} {f g : Keywords},
    (∀ r ∈ reads name, f r = g r) → judge name f = judge name g

namespace Dialect

/-- A keyword says something about a value. -/
def Finds (D : Dialect) (keywords : Keywords) (x : Json) (v : Verdict) : Prop :=
  ∃ name, (keywords name).isSome ∧ D.judge name keywords x = v

/-- What the keywords of the given names say about a value. -/
def findings (D : Dialect) (names : List String) (keywords : Keywords) (x : Json) :
    List Verdict :=
  names.map fun name => D.judge name keywords x

/-- What keywords say does not change when the first are put over the second: the first neither
    replace a keyword by another one nor come near one on which others depend. -/
structure Independent {α : Type} (D : Dialect) (own below : String → Option α) : Prop where
  alone : ∀ {name r}, (own name).isSome → r ∈ D.reads name → (below r).isSome → (own r).isSome
  agree : ∀ {name r}, (below name).isSome → r ∈ D.reads name → (own r).isSome → own r = below r

variable {D : Dialect} {α : Type} {own more below : String → Option α}

/-- What a dialect finds among names is what it finds with the keywords of these names. -/
theorem mem_findings {names : List String} {keywords : Keywords}
    (hnames : ∀ name, name ∈ names ↔ (keywords name).isSome) {x : Json} {v : Verdict} :
    v ∈ D.findings names keywords x ↔ D.Finds keywords x v := by
  unfold findings Finds
  simp only [List.mem_map, hnames]

/-- Keywords that nothing depends on are independent of all others. -/
theorem Independent.of_unread (h : ∀ r, (own r).isSome → D.reads r = [] ∧
    ∀ name, (below name).isSome → r ∉ D.reads name) : D.Independent own below where
  alone {name r} hname hr := by
    rw [(h name hname).1] at hr
    cases hr
  agree {name r} hname hr hown := absurd hr ((h r hown).2 name hname)

/-- What is put over keywords that are independent must be independent itself. -/
theorem Independent.or (h : D.Independent own below) (hmore : D.Independent more below) :
    D.Independent (fun name => (more name).or (own name)) below := by
  refine ⟨fun {name r} hname hr hbelow => ?_, fun {name r} hname hr hor => ?_⟩
  · rw [Option.isSome_or, Bool.or_eq_true] at hname ⊢
    rcases hname with hname | hname
    · exact .inl (hmore.alone hname hr hbelow)
    · exact .inr (h.alone hname hr hbelow)
  · cases hr' : more r with
    | some k =>
      rw [Option.some_or, ← hr']
      exact hmore.agree hname hr (by rw [hr']; rfl)
    | none =>
      rw [hr', Option.none_or] at hor
      rw [Option.none_or]
      exact h.agree hname hr hor

/-- It does not matter as what the keywords are read. -/
theorem Independent.map {β : Type} (h : D.Independent own below) (f : String → α → β) :
    D.Independent (fun name => (own name).map (f name))
      (fun name => (below name).map (f name)) := by
  refine ⟨fun hname hr hbelow => ?_, fun hname hr hown => ?_⟩
  · simp only [Option.isSome_map] at hname hbelow ⊢
    exact h.alone hname hr hbelow
  · simp only [Option.isSome_map] at hname hown
    rw [h.agree hname hr hown]

/-- **Independence.** Independent keywords that are put over others say what both say beside each
    other. -/
theorem Independent.finds {own below : Keywords} (h : D.Independent own below) {x : Json}
    {v : Verdict} :
    D.Finds (fun name => (own name).or (below name)) x v ↔
      D.Finds own x v ∨ D.Finds below x v := by
  -- a keyword reads the same on its own side and in the union
  have hown : ∀ {name}, (own name).isSome →
      D.judge name (fun name => (own name).or (below name)) = D.judge name own := by
    intro name hname
    refine D.judge_congr fun r hr => ?_
    cases hbelow : below r with
    | none => rw [Option.or_none]
    | some k =>
      obtain ⟨k', hk'⟩ := Option.isSome_iff_exists.mp (h.alone hname hr (by rw [hbelow]; rfl))
      rw [hk', Option.some_or]
  have hbelow : ∀ {name}, (below name).isSome →
      D.judge name (fun name => (own name).or (below name)) = D.judge name below := by
    intro name hname
    refine D.judge_congr fun r hr => ?_
    cases hr' : own r with
    | none => rw [Option.none_or]
    | some k =>
      rw [Option.some_or, ← hr']
      exact h.agree hname hr (by rw [hr']; rfl)
  constructor
  · rintro ⟨name, hname, rfl⟩
    rw [Option.isSome_or, Bool.or_eq_true] at hname
    rcases hname with hname | hname
    · exact .inl ⟨name, hname, (congrFun (hown hname) x).symm⟩
    · exact .inr ⟨name, hname, (congrFun (hbelow hname) x).symm⟩
  · rintro (⟨name, hname, rfl⟩ | ⟨name, hname, rfl⟩)
    · refine ⟨name, ?_, congrFun (hown hname) x⟩
      rw [Option.isSome_or, hname, Bool.true_or]
    · refine ⟨name, ?_, congrFun (hbelow hname) x⟩
      rw [Option.isSome_or, hname, Bool.or_true]

end Dialect

/-! ### Documents -/

namespace Json

/-- The keywords that apply together: those of a schema and those of the schema to which it
    refers, and so on.  No more than the given number of references is followed. -/
def segments (find : String → Option (List (String × Json))) :
    Nat → List (String × Json) → Option (List (List (String × Json)))
  | links, ms =>
    match reference? .draft2020 ms with
    | none => some [ms]
    | some (address, keyword) =>
      match links with
      | 0 => none
      | links + 1 =>
        match find address with
        | none => none
        | some body =>
          match segments find links body with
          | none => none
          | some rest => some (ms.filter (fun m => m.1 ≠ keyword) :: rest)

/-- What the keywords of one segment hold. -/
def keywordsOf (sub : List (String × Json) → Json → Verdict) (ms : List (String × Json)) :
    Keywords :=
  fun name => (lookup? name ms).map (held sub (Role.of name))

/-- What a schema says about a value, as deep as is looked: what all keywords say that apply
    together. -/
def verdict (D : Dialect) (find : String → Option (List (String × Json))) (links : Nat) :
    Nat → List (String × Json) → Json → Verdict
  | 0, _, _ => .unsettled
  | depth + 1, ms, x =>
    match segments find links ms with
    | none => .unsettled
    | some all => .all (all.flatMap fun segment =>
        D.findings (segment.map (·.1)) (keywordsOf (verdict D find links depth) segment) x)

variable {D : Dialect} {find : String → Option (List (String × Json))} {links : Nat}

/-- Segments that were found stay the same when more references may be followed. -/
theorem segments_mono {links more : Nat} (hle : links ≤ more) {ms : List (String × Json)}
    {all : List (List (String × Json))} (h : segments find links ms = some all) :
    segments find more ms = some all := by
  -- Induction on the links: each reference costs one on both sides.
  induction links generalizing more ms all with
  | zero =>
    unfold segments at h ⊢
    cases hreference : reference? .draft2020 ms with
    | none =>
      rw [hreference] at h
      exact h
    | some reference =>
      rw [hreference] at h
      cases h
  | succ links ih =>
    obtain ⟨more, rfl⟩ : ∃ k, more = k + 1 := ⟨more - 1, by omega⟩
    unfold segments at h ⊢
    cases hreference : reference? .draft2020 ms with
    | none =>
      rw [hreference] at h
      exact h
    | some reference =>
      obtain ⟨address, keyword⟩ := reference
      simp only [hreference] at h ⊢
      cases hfind : find address with
      | none => simp only [hfind] at h; cases h
      | some body =>
        simp only [hfind] at h ⊢
        cases hrest : segments find links body with
        | none => simp only [hrest] at h; cases h
        | some rest =>
          simp only [hrest] at h
          rw [ih (by omega) hrest]
          exact h

/-- A schema that refers to nothing is one segment. -/
theorem segments_of_reference?_none {ms : List (String × Json)}
    (h : reference? .draft2020 ms = none) : segments find links ms = some [ms] := by
  unfold segments
  rw [h]

/-- A name names a member if one is found under it. -/
theorem mem_names_iff {ms : List (String × Json)} {name : String} :
    name ∈ ms.map (·.1) ↔ (lookup? name ms).isSome := by
  induction ms with
  | nil => simp [lookup?]
  | cons m rest ih =>
    obtain ⟨key, j⟩ := m
    by_cases hkey : key = name
    · simp [lookup?, hkey]
    · simp [lookup?, hkey, Ne.symm hkey, ← ih]

/-- What a dialect finds among the members of a schema is what it finds with its keywords. -/
theorem mem_findings_keywordsOf {sub : List (String × Json) → Json → Verdict}
    {ms : List (String × Json)} {x : Json} {v : Verdict} :
    v ∈ D.findings (ms.map (·.1)) (keywordsOf sub ms) x ↔ D.Finds (keywordsOf sub ms) x v := by
  refine D.mem_findings fun name => ?_
  rw [mem_names_iff, keywordsOf, Option.isSome_map]

/-- What a schema without references says does not depend on where references would lead. -/
theorem verdict_of_refFree {depth : Nat} {ms : List (String × Json)}
    (h : refFree .schemas (.obj ms) = true) :
    verdict D find links depth ms = verdict D (fun _ => none) 0 depth ms := by
  funext x
  induction depth generalizing ms x with
  | zero => rfl
  | succ depth ih =>
    obtain ⟨-, hkeywords⟩ := Bool.and_eq_true_iff.mp h
    have hnone : reference? .draft2020 ms = none := reference?_of_refFree h
    -- No schema below a keyword refers anywhere either, so that the table is not looked at.
    have hsame : keywordsOf (verdict D find links depth) ms
        = keywordsOf (verdict D (fun _ => none) 0 depth) ms := by
      funext name
      unfold keywordsOf
      cases hname : lookup? name ms with
      | none => rfl
      | some j =>
        have hj := refFreeKeywords_iff.mp hkeywords _ (mem_of_lookup? hname)
        rw [Option.map_some, Option.map_some,
          held_congr (fun ms hms => funext fun x => ih hms x) hj]
    simp only [verdict, segments_of_reference?_none hnone, List.flatMap_cons, List.flatMap_nil,
      List.append_nil, hsame]

end Json

end SchemaGraph
