import SchemaGraph.Proofs.Document.Breaking
import SchemaGraph.Proofs.Document.Failing

namespace SchemaGraph

open SchemaGraph.Action Conversion Emission

/-!
# Documents that do not contain themselves

When an emission has put together a document, all marked nodes are definitions, and from every
visited node pointers lead to an end.  So the document unwinds, and so does the table of definitions
that documents have in common, whatever has happened in the session before: roots may have been
visited with or without success, and documents emitted or refused.

* `Store.Solid`              — a sober store whose lists point at what is left behind
* `Conversion.Orderly.unwinds` — what points at visited nodes unwinds
* `Converter.Tried`          — the conversions of sessions in which any step may fail
* `Converter.Tried.emit_unwinds` — documents and tables unwind, and settling ends
-/

namespace Conversion

variable {c : Conversion} {target : Target} {n m : NodeId} {v : Visit} {p : Place}

/-- What is found at a node of the present survey is its fragment. -/
theorem view_fragment (c : Conversion) (n : NodeId) :
    c.view.fragment c.survey.number n = c.survey.fragment n := if_pos rfl

/-- The places that may point at something: fragments of visited nodes, and lists of annotations. -/
def sites (c : Conversion) : List Place :=
  c.survey.order.map (.fragment c.survey.number) ++ (List.range c.store.lists.length).map .list

/-- There are no more sites than places in a view. -/
theorem length_sites_le (c : Conversion) : c.sites.length ≤ c.view.size := by
  have hlength : c.survey.order.length = c.survey.size := List.length_map _
  have hsize : c.view.size = c.survey.size + c.store.lists.length
    + c.store.archive.foldl (fun n fragments => n + fragments.length) 0 := rfl
  rw [hsize, sites, List.length_append, List.length_map, List.length_map, List.length_range, hlength]
  exact Nat.le_add_right _ _

/-- What is spent points at nothing. -/
theorem Orderly.founded_spent (h : c.Orderly target []) (hp : c.Spent p) (among : List Place) :
    c.view.Founded among p := by
  cases hp with
  | @defined m v hv hdefined =>
    have hplaces := h.entryPlaces_of_defined hv hdefined
    refine View.founded_fragment (view_fragment c m) ?_ (fun hne => absurd hplaces hne) fun q hq => ?_
    · exact Value.entriesFinite_iff.mpr fun q hq => (h.fragment m q hq).finite
    · rw [hplaces] at hq
      cases hq
  | @past survey m hpast hlength htrees =>
    have hplaces : Value.entryPlaces survey (c.store.archived survey m) = [] :=
      Value.entryPlaces_of_plain _
        (Value.entriesPlain_iff.mpr fun q hq => (Value.isTree_iff.mp (htrees q hq)).1)
    refine View.founded_fragment (if_neg hpast) ?_ (fun hne => absurd hplaces hne) fun q hq => ?_
    · exact Value.entriesFinite_iff.mpr fun q hq => (Value.isTree_iff.mp (htrees q hq)).2
    · rw [hplaces] at hq
      cases hq

/-- From lists of annotations pointers lead to an end. -/
theorem Orderly.founded_list (h : c.Orderly target []) (k : Nat) :
    c.view.Founded c.sites (.list k) := by
  cases hk : c.store.lists[k]? with
  | none =>
    have hlist : c.view.list k = [] := congrArg (·.getD []) hk
    exact View.founded_list hlist rfl (absurd rfl) nofun
  | some xs =>
    have hlist : c.view.list k = xs := congrArg (·.getD []) hk
    have helement := h.lists xs (List.mem_of_getElem? hk)
    refine View.founded_list hlist (Value.allFinite_iff.mpr fun x hx => (helement x hx).1)
      (fun _ => ?_) fun q hq => ?_
    · refine List.mem_append_right _ (List.mem_map_of_mem (List.mem_range.mpr ?_))
      exact (List.getElem?_eq_some_iff.mp hk).1
    · obtain ⟨x, hx, hq⟩ := Value.mem_listPlaces.mp hq
      exact h.founded_spent ((helement x hx).2 _ q hq) _

section Founded

variable (h : c.Orderly target []) (hbroken : c.Broken)
include h hbroken

/-- From marked nodes no pointers lead anywhere, when they are definitions. -/
theorem Orderly.founded_marked (hn : c.Marked n) :
    c.view.Founded c.sites (.fragment c.survey.number n) := by
  obtain ⟨v, hv, hcycle⟩ := hn
  exact h.founded_spent (.defined hv (hbroken n v hv hcycle)) _

/-- From grounded nodes pointers lead to an end. -/
theorem Orderly.founded_grounded (hn : c.Grounded [] n) :
    c.view.Founded c.sites (.fragment c.survey.number n) := by
  induction hn with
  | @intro n v hv _ _ ih =>
    have hconfined := Value.confined_dict.mpr (h.fragment n)
    refine View.founded_fragment (view_fragment c n) hconfined.finite (fun _ => ?_) fun q hq => ?_
    · refine List.mem_append_left _ (List.mem_map_of_mem ?_)
      exact (Survey.has_iff _ _).mp (Survey.has_of_visit? hv)
    · rcases hconfined.places q hq with ⟨k, rfl⟩ | ⟨m, rfl, -⟩
      · exact h.founded_list k
      · by_cases hmark : c.Marked m
        · exact h.founded_marked hbroken hmark
        · rw [Survey.fragment, hv] at hq
          exact ih m (.inr hq) hmark

/-- **Unwinding.** When all marked nodes are definitions, what points at visited nodes unwinds. -/
theorem Orderly.unwinds {v : Value}
    (hv : v.Confined c.survey.number fun m => c.survey.has m = true) : c.view.Unwinds v := by
  refine View.unwinds_of_founded hv.finite (fun p hp => ?_) c.length_sites_le
  rcases hv.places p hp with ⟨k, rfl⟩ | ⟨m, rfl, hm⟩
  · exact h.founded_list k
  · exact h.founded_grounded hbroken (h.grounded m hm List.not_mem_nil)

end Founded

end Conversion

/-- What unwinds is finished without meeting itself. -/
theorem Conversion.finalize_ne_circular {c : Conversion} {v : Value} (h : c.view.Unwinds v) :
    (finalize v c).1 ≠ .error (.notData .circular) := by
  have hne := h.document_ne_circular
  unfold finalize
  rw [run_bind, run_get]
  dsimp only
  cases hdocument : (c.view.settle v).document with
  | ok json => nofun
  | error f =>
    obtain ⟨d, hrun, -⟩ := run_fail Json f c
    rw [hdocument] at hne
    dsimp only
    rw [hrun]
    exact fun heq => hne (congrArg Except.error (Except.error.inj heq))

/-- No emission is refused for something that is no data. -/
theorem Emission.refusal?_ne_notData (e : Emission) (c : Conversion) (reason : NotData) :
    e.refusal? c ≠ some (.notData reason) := by
  unfold refusal?
  dsimp only
  split
  · nofun
  · split
    · nofun
    · split
      · nofun
      · split
        · intro h
          obtain ⟨path, -, hpath⟩ := Option.map_eq_some_iff.mp h
          cases hpath
        · nofun

/-- If what is put together unwinds, an emission does not fail for something that contains itself. -/
theorem Emission.document_ne_circular {e : Emission} {c : Conversion} (hoverride : e.override = none)
    (h : ∀ entries d, Returns e.compose c entries d → d.view.Unwinds (.dict entries)) :
    (e.document c).1 ≠ .error (.notData .circular) := by
  intro hcircular
  unfold document at hcircular
  rw [run_bind, run_get] at hcircular
  dsimp only at hcircular
  cases hrefusal : e.refusal? c with
  | some f =>
    rw [hrefusal] at hcircular
    have hfailed : f = .notData .circular :=
      (raises_fail (P := fun g => f = g) rfl).of_error hcircular
    exact e.refusal?_ne_notData c _ (hfailed ▸ hrefusal)
  | none =>
    rw [hrefusal] at hcircular
    obtain hcompose | ⟨entries, d, hcompose, hrest⟩ := error_of_bind hcircular
    · -- putting together fails for other reasons only
      cases compose_raises.of_error hcompose with
      | override ho _ =>
        rw [hoverride] at ho
        cases ho
    · obtain hfinal | ⟨json, d', -, hrest⟩ := error_of_bind hrest
      · exact finalize_ne_circular (h entries d hcompose) hfinal
      · have hcompleted : Raises (fun _ => False) (do e.completed; pure json) :=
          .bind (.bind raises_get fun c => raises_log _ _) fun _ => raises_pure _
        exact hcompleted.of_error hrest

/-! ### Stores between conversions -/

namespace Store

/-- A sober store in which lists of annotations point at trees only that surveys have left behind. -/
structure Solid (s : Store) : Prop where
  sober : s.Sober
  lists : ∀ xs ∈ s.lists, ∀ x ∈ xs, x.isFinite = true ∧ ∀ survey, ∀ p ∈ x.places survey,
    ∃ k m, p = .fragment k m ∧ k < s.archive.length ∧
      (s.archived k m).Each fun v => v.isTree = true

/-- A store with lists of trees is solid. -/
theorem Sober.solid {s : Store} (h : s.Sober)
    (htrees : ∀ xs ∈ s.lists, ∀ x ∈ xs, x.isTree = true) : s.Solid where
  sober := h
  lists xs hxs x hx := by
    obtain ⟨hplain, hfinite⟩ := Value.isTree_iff.mp (htrees xs hxs x hx)
    refine ⟨hfinite, fun survey p hp => ?_⟩
    rw [Value.places_of_plain x hplain] at hp
    cases hp

variable {s t : Store} {c : Conversion} {target : Target}

/-- A solid store stays solid while it only grows in harmless ways. -/
theorem Solid.enlarges (hs : s.Solid) (h : s.Enlarges t) : t.Solid where
  sober := h.sober
  lists xs hxs x hx := by
    obtain ⟨more, hlists, htrees⟩ := h.lists
    rw [hlists] at hxs
    rcases List.mem_append.mp hxs with hxs | hxs
    · obtain ⟨hfinite, hplaces⟩ := hs.lists xs hxs x hx
      refine ⟨hfinite, fun survey p hp => ?_⟩
      unfold archived
      rw [h.archive]
      exact hplaces survey p hp
    · obtain ⟨hplain, hfinite⟩ := Value.isTree_iff.mp (htrees xs hxs x hx)
      refine ⟨hfinite, fun survey p hp => ?_⟩
      rw [Value.places_of_plain x hplain] at hp
      cases hp

/-- A harmless action keeps a store solid. -/
theorem Harmless.solid {α : Type} {P : α → Prop} {a : Action Store α} (ha : Harmless P a)
    (hs : s.Solid) : (a s).2.Solid :=
  hs.enlarges ((ha s hs.sober).mono (fun _ _ h => h.2) fun _ h => h).state

/-- **Graphs.** Whatever comes of building from trees, the store stays solid. -/
theorem Solid.define (hs : s.Solid) (name : String) {b : Blueprint} (hb : b.Sober) :
    (Store.define name b s).2.Solid := by
  have hdefine : Harmless (fun _ => True) (Store.define name b) :=
    (harmless_build b hb).bind fun n _ => (harmless_bind name n).bind fun _ _ =>
      harmless_pure trivial
  exact hdefine.solid hs

/-- **Annotations.** Whatever comes of annotating with trees, the store stays solid. -/
theorem Solid.annotate (hs : s.Solid) (catalog : String) (n : NodeId) {notes : Entries}
    (h : notes.Sober) : (Store.annotate catalog n notes s).2.Solid :=
  (harmless_annotate h).solid hs

/-- A conversion of a solid store starts orderly. -/
theorem Solid.start (h : s.Solid) (target : Target) :
    (Conversion.start s).Orderly target [] := by
  refine ⟨⟨h.sober.nodes, h.sober.getters, h.sober.notes⟩, ?_, fun xs hxs x hx => ?_, nofun, nofun,
    nofun⟩
  · show s.archive.length < (s.archive ++ [[]]).length
    rw [List.length_append]
    exact Nat.lt_succ_self _
  · obtain ⟨hfinite, hplaces⟩ := h.lists xs hxs x hx
    refine ⟨hfinite, fun survey p hp => ?_⟩
    obtain ⟨k, m, rfl, hk, htrees⟩ := hplaces survey p hp
    have hsame : (Conversion.start s).store.archived k m = s.archived k m := by
      show ((((s.archive ++ [[]])[k]?.getD []).find? _).map _).getD [] = _
      rw [List.getElem?_append_left hk]
      rfl
    refine .past (Nat.ne_of_lt hk) ?_ (hsame ▸ htrees)
    show k < (s.archive ++ [[]]).length
    rw [List.length_append]
    exact Nat.lt_succ_of_lt hk

/-- When a survey is left, its fragments are left behind as they are. -/
theorem archived_leave (c : Conversion) (hnumber : c.survey.number < c.store.archive.length)
    (n : NodeId) : c.leave.archived c.survey.number n = c.survey.fragment n := by
  have hfind : ∀ visits : List (NodeId × Visit),
      (((visits.map fun p => (p.1, p.2.fragment)).find? fun e => e.1 = n).map (·.2)).getD []
        = ((Survey.find? n visits).map (·.fragment)).getD [] := by
    intro visits
    induction visits with
    | nil => rfl
    | cons p rest ih =>
      obtain ⟨m, v⟩ := p
      by_cases hm : m = n
      · simp [Survey.find?, hm]
      · simpa [Survey.find?, hm] using ih
  show (((((c.store.archive.set c.survey.number _)[c.survey.number]?).getD []).find? _).map _).getD []
    = _
  rw [List.getElem?_set_self hnumber]
  exact hfind c.survey.visits

/-- **Conversions.** An orderly conversion leaves a solid store. -/
theorem solid_leave (h : c.Orderly target []) : c.leave.Solid := by
  have hlength : c.leave.archive.length = c.store.archive.length := List.length_set
  refine ⟨⟨h.store.nodes, h.store.getters, h.store.notes⟩, fun xs hxs x hx => ?_⟩
  obtain ⟨hfinite, hspent⟩ := h.lists xs hxs x hx
  refine ⟨hfinite, fun survey p hp => ?_⟩
  -- A reference points at a definition, or into a survey that was left behind before.
  cases hspent survey p hp with
  | @defined m v hv hdefined =>
    refine ⟨_, m, rfl, hlength ▸ h.number, ?_⟩
    obtain ⟨body, hbody⟩ := Option.isSome_iff_exists.mp hdefined
    obtain ⟨ref, hbare⟩ := ((h.visits m v hv).definition body hbody).2
    rw [archived_leave c h.number, Survey.fragment, hv]
    show v.fragment.Each _
    rw [hbare]
    exact List.forall_mem_singleton.mpr rfl
  | @past k m hpast hk htrees =>
    refine ⟨k, m, rfl, hlength ▸ hk, ?_⟩
    have hsame : c.leave.archived k m = c.store.archived k m := by
      show ((((c.store.archive.set c.survey.number _)[k]?.getD []).find? _).map _).getD [] = _
      rw [List.getElem?_set_ne (Ne.symm hpast)]
      rfl
    exact hsame ▸ htrees

end Store

namespace Converter

/-- The conversions that come about when roots are visited and documents emitted in any order,
    whatever comes of each step.  An emission may have any policy, and addresses of its own or none;
    behind one conversion there may be another one, of the store that it leaves. -/
inductive Tried (conv : Converter) (store : Store) : Conversion → Prop
  | start : Tried conv store (start store)
  | visit {c : Conversion} (root : NodeId) (path : Path) (h : Tried conv store c) :
      Tried conv store (Conversion.visit conv.guide root [] path c).2
  | process {c : Conversion} (root : NodeId) (h : Tried conv store c) :
      Tried conv store (conv.process root c).2
  | emit {c : Conversion} (linkage : Option Linkage) (policy : EmissionSettings) (root : NodeId)
      (h : Tried conv store c) : Tried conv store (conv.emit policy root { c with linkage }).2
  | renew {c : Conversion} (h : Tried conv store c) : Tried conv store (Conversion.start c.leave)

namespace Tried

variable {conv : Converter} {store : Store} {c : Conversion}

/-- **Sessions are orderly.** All the time all visited nodes are grounded. -/
theorem orderly (hoverride : conv.override = none) (hstore : store.Solid)
    (h : Tried conv store c) : c.Orderly conv.guide.settings.target [] := by
  induction h with
  | start => exact hstore.start _
  | visit root path _ ih => exact ih.visit conv.guide root path
  | process root _ ih => exact ih.process conv root
  | emit linkage policy root _ ih =>
    exact document_orderly (e := conv.emission policy root) hoverride (ih.relink linkage)
  | renew _ ih => exact (Store.solid_leave ih).start _

/-- **Documents unwind.** At any moment of a session in which any step may have failed, no emission
    fails for something that contains itself.  When a document was put together, nothing that is
    reached from it contains itself, nor from the table of definitions that documents have in common,
    and with everything in place that is pointed at they are trees.  Settling ends; its bound makes
    no difference. -/
theorem emit_unwinds (hoverride : conv.override = none) (hstore : store.Solid)
    (h : Tried conv store c) (linkage : Option Linkage) (policy : EmissionSettings) (root : NodeId) :
    (conv.emit policy root { c with linkage }).1 ≠ .error (.notData .circular) ∧
    (∀ entries d, Returns (conv.emission policy root).compose { c with linkage } entries d →
      ∀ v ∈ [Value.dict entries, .dict (commonTable d)],
        d.view.Unwinds v ∧ (finalize v d).1 ≠ .error (.notData .circular)) ∧
    ∀ (d : Conversion) (links : Nat), d.survey.size < links →
      (conv.emission policy root).settleAll links d.survey.order.reverse d
        = (conv.emission policy root).settleVisits d := by
  have horderly := (h.orderly hoverride hstore).relink linkage
  have hcompose : ∀ entries d,
      Returns (conv.emission policy root).compose { c with linkage } entries d →
      ∀ v ∈ [Value.dict entries, .dict (commonTable d)], d.view.Unwinds v := by
    intro entries d hrun
    obtain ⟨hd, hbroken, hentries⟩ :=
      (compose_orderly (e := conv.emission policy root) hoverride horderly).of_returns hrun
    refine List.forall_mem_cons.mpr ⟨?_, List.forall_mem_singleton.mpr ?_⟩
    · exact hd.unwinds hbroken (Value.confined_dict.mpr hentries)
    · exact hd.unwinds hbroken (Value.confined_dict.mpr (confined_tableEntries hd _))
  refine ⟨document_ne_circular (e := conv.emission policy root) hoverride fun entries d hrun => ?_,
    fun entries d hrun v hv => ?_, fun d links hlinks => settleVisits_links hlinks⟩
  · exact hcompose entries d hrun _ (List.mem_cons_self ..)
  · have hunwinds := hcompose entries d hrun v hv
    exact ⟨hunwinds, finalize_ne_circular hunwinds⟩

end Tried

/-- A record of what comes next and of its size, which no document can express, and lists of what
    comes next. -/
def sizedRecord : Store where
  nodes := [{ kind := .object, shape := some [("next", .node 1), ("size", .node 2)] },
    { kind := .optional, inner := .node 0 }, { kind := .bigint },
    { kind := .array, element := .node 1 }]

/-- The store of the sized record is solid: no list of annotations points anywhere. -/
theorem sizedRecord_solid : sizedRecord.Solid := by
  have hnodes : ∀ node ∈ sizedRecord.nodes,
      (∀ v ∈ node.carried, v.isTree = true) ∧ node.lowering = .null := by decide
  refine Store.Sober.solid ⟨fun node hn => ⟨(hnodes node hn).1, ?_⟩, nofun, nofun⟩ nofun
  rw [(hnodes node hn).2]
  nofun

/-- The visit of the record, which fails at its size, and behind it the visit of the lists. -/
def sizedRecordVisits : (Except Failure Unit × Conversion) × (Except Failure Unit × Conversion) :=
  let first := ({} : Converter).process (.node 0) (Conversion.start sizedRecord)
  (first, ({} : Converter).process (.node 3) first.2)

/-- After a visit that failed within a cycle the document of the lists is emitted, and unwinds. -/
theorem Tried.emit_unwinds_sizedRecord :
    sizedRecordVisits.1.1.isOk = false ∧
    (({} : Converter).emit {} (.node 3) sizedRecordVisits.2.2).1.isOk ∧
    ∃ entries d, Returns (({} : Converter).emission {} (.node 3)).compose sizedRecordVisits.2.2
      entries d ∧ d.view.Unwinds (.dict entries) := by
  have htried : Tried {} sizedRecord sizedRecordVisits.2.2 :=
    .process (.node 3) (.process (.node 0) .start)
  obtain ⟨entries, hrun⟩ : ∃ entries, Returns (({} : Converter).emission {} (.node 3)).compose
      sizedRecordVisits.2.2 entries
      ((({} : Converter).emission {} (.node 3)).compose sizedRecordVisits.2.2).2 :=
    exists_returns (by decide +kernel)
  obtain ⟨-, hunwinds, -⟩ :=
    htried.emit_unwinds rfl sizedRecord_solid sizedRecordVisits.2.2.linkage {} (.node 3)
  refine ⟨by decide +kernel, by decide +kernel, entries, _, hrun, ?_⟩
  exact (hunwinds entries _ hrun _ (List.mem_cons_self ..)).1

/-- A literal whose one value is a list that contains itself. -/
def endlessLiteral : Store where
  nodes := [{ kind := .literal, values := [.loop false] }]

/-- The values of literals count: without annotations, defaults and functions that lower nodes, the
    emission of a literal is not refused, and fails for a value that contains itself. -/
theorem Tried.emit_endless :
    let c := (({} : Converter).process (.node 0) (Conversion.start endlessLiteral)).2
    Tried {} endlessLiteral c ∧
    (endlessLiteral.catalogs = [] ∧
      ∀ node ∈ endlessLiteral.nodes, node.defaultValue = .null ∧ node.lowering = .null) ∧
    (({} : Converter).emission {} (.node 0)).refusal? c = none ∧
    (({} : Converter).emit {} (.node 0) c).1 = .error (.notData .circular) :=
  ⟨.process (.node 0) .start, by decide, by decide +kernel, by decide +kernel⟩

end Converter

end SchemaGraph
