import SchemaGraph.Converter
import SchemaGraph.Proofs.Document.Numbering
import SchemaGraph.Proofs.Document.Upkeep
import SchemaGraph.Proofs.Survey.Cycles

namespace SchemaGraph

open SchemaGraph.Action Conversion

/-!
# Documents emitted in sequence

The first document that is emitted from a survey hoists and settles everything that any of them
needs.  The others find all of it done: they change nothing but events, the marks of the roots
and the common table, so that all documents show the survey at the same moment.

* `Conversion.Stays`         — the survey is the same, as far as documents show it
* `Emission.document_emits`  — what a document with addresses across documents runs through
* `Converter.emitAll_shares` — the documents of all roots show the survey that the first has left
* `Converter.Spans`          — what the conversion of a catalog runs through
* `Converter.documents_spans` — every conversion of a catalog that returns runs through that
-/

namespace Conversion

/-- Nothing has changed but events, the marks of the roots and the common table. -/
structure Stays (c d : Conversion) : Prop where
  store : d.store = { c.store with events := d.store.events } := by rfl
  visits : d.survey.visits = c.survey.visits := by rfl
  number : d.survey.number = c.survey.number := by rfl
  linkage : ∀ {l}, c.linkage = some l → ∃ table, d.linkage = some { l with table }

/-- Nothing has changed at first. -/
theorem Stays.refl (c : Conversion) : Stays c c where
  linkage {l} h := ⟨l.table, h⟩

/-- Two stretches that change nothing documents show change nothing together. -/
theorem Stays.trans {c d f : Conversion} (h₁ : Stays c d) (h₂ : Stays d f) : Stays c f where
  store := by rw [h₂.store, h₁.store]
  visits := h₂.visits.trans h₁.visits
  number := h₂.number.trans h₁.number
  linkage h := by
    obtain ⟨_, hd⟩ := h₁.linkage h
    obtain ⟨table, hf⟩ := h₂.linkage hd
    exact ⟨table, hf⟩

/-- What only marks a root or leaves an event lets the survey stay. -/
theorem Rewrites.stays {c d : Conversion} (h : Rewrites c d)
    (hvisits : d.survey.visits = c.survey.visits) : Stays c d where
  store := h.store
  visits := hvisits
  number := h.number
  linkage {l} hl := ⟨l.table, h.linkage.trans hl⟩

section Stays

variable {c d : Conversion} (h : Stays c d)
include h

/-- The visits are the same, marks of roots apart. -/
theorem Stays.visit? (n : NodeId) : d.survey.visit? n = c.survey.visit? n := by
  rw [Survey.visit?, Survey.visit?, h.visits]

/-- The fragments are the same. -/
theorem Stays.fragment (n : NodeId) : d.survey.fragment n = c.survey.fragment n := by
  rw [Survey.fragment, Survey.fragment, h.visit?]

/-- The definitions are the same. -/
theorem Stays.definition (n : NodeId) : d.survey.definition n = c.survey.definition n := by
  rw [Survey.definition, Survey.definition, h.visit?]

/-- What fragments hold and how pointers are followed has not changed. -/
theorem Stays.view : d.view = c.view := by
  have hfragment : d.fragmentOf = c.fragmentOf := by
    funext survey n
    rw [fragmentOf, fragmentOf, h.number, h.fragment, h.store]
    rfl
  have hsize : d.survey.size = c.survey.size := by
    rw [Survey.size, Survey.size, h.visits]
  unfold Conversion.view
  rw [hfragment, hsize, h.number, h.store]
  rfl

/-- The nodes were visited in the same order. -/
theorem Stays.order : d.survey.order = c.survey.order := by
  rw [Survey.order, Survey.order, h.visits]

/-- A table of definitions assembles to the same bodies. -/
theorem Stays.assemble (e : Emission) (table : List (Value × NodeId)) :
    e.assemble d.survey table = e.assemble c.survey table := by
  have hentries : Emission.tableEntries d.survey table = Emission.tableEntries c.survey table :=
    List.map_congr_left fun p _ => by
      dsimp only
      rw [h.definition]
  unfold Emission.assemble
  rw [h.definition, hentries]

end Stays

end Conversion

namespace Emission

variable {e : Emission} {c d p : Conversion} {l : Linkage}

/-! ### Nothing left to do -/

/-- Hoisting leaves everything as it is, if the nodes to be hoisted are references already. -/
theorem hoistAll_idle {ns : List NodeId} (hns : ∀ n ∈ ns, c.survey.has n = true)
    (hall : ∀ {n v}, c.survey.visit? n = some v → e.isHoisted c.store c.linkage n v →
      v.isReference = true)
    (h : Returns (e.hoistAll ns) c () d) : d = c := by
  induction ns with
  | nil => exact (returns_pure.mp h).2
  | cons n rest ih =>
    obtain ⟨hn, hrest⟩ := List.forall_mem_cons.mp hns
    obtain ⟨v, hv⟩ := Survey.visit?_of_has hn
    obtain ⟨-, ⟨hhoisted, c', hextract, h₁⟩ | ⟨-, h₁⟩⟩ := hoistAll_returns hv h
    · -- a reference is left as it is
      cases (extract_idle hv (hall hv hhoisted)).symm.trans hextract
      exact ih hrest h₁
    · exact ih hrest h₁

/-- Settling leaves everything as it is, if all nodes are finished already. -/
theorem settleAll_idle (hoverride : e.override = none) (links : Nat) {ns : List NodeId}
    (hns : ∀ n ∈ ns, ∃ v, c.survey.visit? n = some v ∧ v.merged = true) :
    e.settleAll (links + 1) ns c = (.ok (), c) := by
  induction ns with
  | nil => rfl
  | cons n rest ih =>
    obtain ⟨⟨v, hv, hmerged⟩, hrest⟩ := List.forall_mem_cons.mp hns
    unfold settleAll
    rw [run_bind, run_settle hoverride links hv, if_pos hmerged]
    exact ih hrest

/-- A survey in which nothing is left to do for the document of a root. -/
structure Done (e : Emission) (c : Conversion) : Prop where
  hoisted : ∀ {n v}, c.survey.visit? n = some v → e.isHoisted c.store c.linkage n v →
    v.isReference = true
  merged : ∀ {n v}, c.survey.visit? n = some v → v.merged = true

/-- Where nothing is left to do, hoisting and settling do nothing. -/
theorem Done.idle (h : Done e c) (hoverride : e.override = none)
    (hrun : Returns (do e.hoist; e.settleVisits) c () d) : d = c := by
  obtain ⟨_, c', hhoist, hsettle⟩ := returns_bind.mp hrun
  have hall : Returns (e.hoistAll c.survey.order) c () c' := hhoist
  have hsame := hoistAll_idle (fun n hn => (Survey.has_iff _ _).mpr hn) h.hoisted hall
  rw [hsame] at hsettle
  have hfinished : ∀ n ∈ c.survey.order.reverse,
      ∃ v, c.survey.visit? n = some v ∧ v.merged = true := by
    intro n hn
    obtain ⟨v, hv⟩ := Survey.visit?_of_has ((Survey.has_iff _ _).mpr (List.mem_reverse.mp hn))
    exact ⟨v, hv, h.merged hv⟩
  have hidle : e.settleVisits c = (.ok (), c) := settleAll_idle hoverride _ hfinished
  exact (Returns.unique hsettle hidle).2

/-- What is done stays done. -/
theorem Done.of_stays (h : Done e c) (hs : Stays c d) (hl : c.linkage = some l) : Done e d where
  hoisted {n v} hv hhoisted := by
    refine h.hoisted ((hs.visit? n).symm.trans hv) ?_
    obtain ⟨table, hd⟩ := hs.linkage hl
    rw [hs.store, hd] at hhoisted
    rw [hl]
    exact hhoisted
  merged {n v} hv := h.merged ((hs.visit? n).symm.trans hv)

/-! ### One document -/

/-- What a document with addresses across documents runs through: what was hoisted and settled
    stays while the definitions are listed in the common table, and the document shows it. -/
theorem document_emits {doc : Json} (h : Returns e.document p doc d) :
    ∃ p' c, Stays p p' ∧ Rewrites p p' ∧ Returns (do e.hoist; e.settleVisits) p' () c ∧
      (c.linkage = some l → Stays c d ∧ (listed c.survey.visits l.table).2 = none ∧
        d.linkage = some { l with table := (listed c.survey.visits l.table).1 } ∧
        c.view.Shows (.dict (e.assemble c.survey [])) doc) := by
  obtain ⟨entries, f, -, hcompose, hdoc, hcompleted, hsurvey⟩ := document_returns h
  obtain ⟨p', c, hmark, hdone, hlist⟩ := compose_returns hcompose
  obtain ⟨hclaim, hvisits⟩ := claim_returns hmark
  obtain ⟨hstop, rfl, rfl⟩ := listDefinitions_returns hlist
  refine ⟨p', c, hclaim.stays hvisits, hclaim, hdone, fun hc => ?_⟩
  rw [hc] at hstop hdoc
  refine ⟨?_, hstop, ?_, hdoc⟩
  · refine ⟨hcompleted.store, congrArg (·.visits) hsurvey, hcompleted.number, fun {k} hk => ?_⟩
    obtain rfl := Option.some.inj (hc.symm.trans hk)
    exact ⟨_, by rw [hcompleted.linkage, hc]; rfl⟩
  · rw [hcompleted.linkage, hc]
    rfl

/-- A visit that persists is hoisted for the same reasons. -/
theorem isHoisted_of_persists (h : Persists c d) {v w : Visit} (hvw : v.Persists w)
    (n : NodeId) : e.isHoisted d.store d.linkage n w = e.isHoisted c.store c.linkage n v := by
  have hannotated : ∀ catalog, annotatedId d.store catalog n = annotatedId c.store catalog n := by
    intro catalog
    unfold annotatedId
    rw [h.catalog]
  unfold isHoisted hasOwnAddress
  rw [h.documentId, hannotated, hvw.cycle, hvw.count]

/-- Behind hoisting and settling nothing is left to do, for every root whose document hoists the
    same nodes. -/
theorem hoist_settle_done {e' : Emission} (hoverride : e.override = none)
    (hsame : ∀ n v, e'.isHoisted p.store p.linkage n v = e.isHoisted p.store p.linkage n v)
    (h : Returns (do e.hoist; e.settleVisits) p () c) : Done e' c := by
  obtain ⟨_, d, hhoist, hsettle⟩ := returns_bind.mp h
  obtain ⟨hhoists, hreferences⟩ := (hoist_hoists p).of_returns hhoist
  have hpersists := settleVisits_persists.of_returns hsettle
  refine ⟨fun {n w} hw hhoisted => ?_, settleVisits_merges hsettle⟩
  obtain ⟨v, hv, hvw⟩ := hpersists.back hw
  obtain ⟨u, hu⟩ := Survey.visit?_of_has
    ((hhoists.rewrites.has n).symm.trans (Survey.has_of_visit? hv))
  -- Hoisting keeps the marks and the count, on which alone hoisting depends.
  have hmarks : v.cycle = u.cycle ∧ v.count = u.count := by
    rcases hhoists.visits hu with hkept | ⟨-, ref, id, -, hdefined⟩
    · rw [Option.some.inj (hv.symm.trans hkept)]
      exact ⟨rfl, rfl⟩
    · rw [Option.some.inj (hv.symm.trans hdefined)]
      exact ⟨rfl, rfl⟩
  have hfirst : e.isHoisted p.store p.linkage n u = true := by
    rw [isHoisted_of_persists hpersists hvw, isHoisted_eq hhoists.rewrites, isHoisted, hmarks.1,
      hmarks.2] at hhoisted
    rw [← hsame]
    exact hhoisted
  -- Every node to be hoisted is a reference afterwards, and settling keeps it so.
  have href : Referring (· = n) d := by
    rintro m x hx rfl
    exact hreferences m u x hu hx hfirst
  exact (referring_preserved _ _).settleVisits hoverride hsettle href n w hw rfl

/-! ### Surveys with the same visits -/

/-- What stands in a table of definitions depends on the visits alone. -/
theorem tableEntries_of_visits {s s' : Survey} (h : s'.visits = s.visits)
    (table : List (Value × NodeId)) : tableEntries s' table = tableEntries s table := by
  unfold tableEntries Survey.definition Survey.visit?
  rw [h]

/-- Whether a table lists the hoisted nodes depends on the visits alone. -/
theorem Tabled.of_visits {s s' : Survey} {table : List (Value × NodeId)} (ht : Tabled s table)
    (h : s'.visits = s.visits) : Tabled s' table := by
  have hentries := tableEntries_of_visits h table
  refine ⟨hentries ▸ ht.texts, hentries ▸ ht.distinct, fun {n v id} hv hdefined hid htruthy => ?_,
    h ▸ ht.origin⟩
  rw [hentries, Survey.definition, Survey.visit?, h]
  rw [Survey.visit?, h] at hv
  exact ht.entry hv hdefined hid htruthy

/-- A table lists definitions with an id only. -/
def Traced (survey : Survey) (table : List (Value × NodeId)) : Prop :=
  ∀ q ∈ table, ∃ v, (q.2, v) ∈ survey.visits ∧ v.definition.isSome ∧ v.definitionId.isTruthy

/-- Listing the visits adds only definitions with an id. -/
theorem Traced.listed {survey : Survey} {table : List (Value × NodeId)}
    (h : Traced survey table) : Traced survey (listed survey.visits table).1 := by
  intro q hq
  rcases mem_listed hq with hold | hnew
  · exact h q hold
  · exact hnew

/-- Whether ids are told apart depends on the visits alone. -/
theorem told_of_visits {s s' : Survey} (ht : s.Told) (h : s'.visits = s.visits) : s'.Told := by
  obtain ⟨htext, hdistinct⟩ := ht
  exact ⟨h ▸ htext, h ▸ hdistinct⟩

end Emission

namespace Converter

open Emission

variable {conv : Converter} {policy : EmissionSettings} {c d p : Conversion} {l : Linkage}
  {roots : List (Value × NodeId)} {docs : List (Value × Json)}

/-- Every document shows what the survey holds of its root. -/
def Emits (conv : Converter) (policy : EmissionSettings) (c : Conversion)
    (roots : List (Value × NodeId)) (docs : List (Value × Json)) : Prop :=
  List.Forall₂ (fun root doc => doc.1 = root.1 ∧
    c.view.Shows (.dict ((conv.emission policy root.2).assemble c.survey [])) doc.2) roots docs

/-- Documents show the same before and after a stretch that changes nothing they show. -/
theorem emits_iff_of_stays (hs : Stays c d) :
    Emits conv policy d roots docs ↔ Emits conv policy c roots docs := by
  unfold Emits
  simp only [hs.view, hs.assemble]

/-- Roots with documents of their own hoist the same nodes. -/
theorem isHoisted_emission {s : Store} {linkage : Option Linkage} {root other : NodeId}
    (hroot : (documentId s linkage root).isTruthy = true)
    (hother : (documentId s linkage other).isTruthy = true) (n : NodeId) (v : Visit) :
    (conv.emission policy root).isHoisted s linkage n v
      = (conv.emission policy other).isHoisted s linkage n v := by
  have hown : (conv.emission policy root).hasOwnAddress s linkage n
      = (conv.emission policy other).hasOwnAddress s linkage n := by
    simp only [hasOwnAddress, emission]
    by_cases hn : (documentId s linkage n).isTruthy = true
    · simp [hn]
    · have hne : n ≠ root := by
        rintro rfl
        exact hn hroot
      have hne' : n ≠ other := by
        rintro rfl
        exact hn hother
      simp [hne, hne']
  unfold isHoisted
  rw [hown]
  rfl

/-- **Further documents.** Where nothing is left to do, all documents show the same survey, and
    the common table goes on listing definitions only, and all of them, if their ids can be told
    apart. -/
theorem emitAll_repeats (hoverride : conv.override = none) (hl : c.linkage = some l)
    (hdone : ∀ root ∈ roots, Done (conv.emission policy root.2) c)
    (h : Returns (conv.emitAll policy roots) c docs d) :
    Stays c d ∧ Emits conv policy c roots docs ∧
      ∃ table, d.linkage = some { l with table } ∧
        (Traced c.survey l.table → Traced c.survey table) ∧
        (c.survey.Told → Tabled c.survey l.table → Tabled c.survey table) := by
  induction roots generalizing c l docs with
  | nil =>
    obtain ⟨rfl, rfl⟩ := returns_pure.mp h
    exact ⟨.refl _, .nil, l.table, hl, id, fun _ htabled => htabled⟩
  | cons root rest ih =>
    obtain ⟨id, n⟩ := root
    obtain ⟨hfirst, hrest⟩ := List.forall_mem_cons.mp hdone
    obtain ⟨doc, f, hemit, h₁⟩ := returns_bind.mp h
    obtain ⟨docs', d', hall, h₂⟩ := returns_bind.mp h₁
    obtain ⟨rfl, rfl⟩ := returns_pure.mp h₂
    obtain ⟨c', c₁, hclaim, hrewrites, hrun, hemits⟩ := document_emits hemit
    -- Everything is done, so that hoisting and settling change nothing.
    obtain rfl := (hfirst.of_stays hclaim hl).idle hoverride hrun
    obtain ⟨hstays, hstop, hf, hdoc⟩ := hemits (hrewrites.linkage.trans hl)
    have hcf := hclaim.trans hstays
    rw [hclaim.visits] at hstop hf
    obtain ⟨hd, hdocs, table, hlinkage, htraced, htable⟩ := ih hf
      (fun root hroot => (hrest root hroot).of_stays hcf hl) hall
    rw [hclaim.view, hclaim.assemble] at hdoc
    refine ⟨hcf.trans hd, .cons ⟨rfl, hdoc⟩ ((emits_iff_of_stays hcf).mp hdocs), table, hlinkage,
      fun h => ?_, fun htold htabled => ?_⟩
    · unfold Traced at htraced ⊢
      rw [hcf.visits] at htraced
      exact htraced h.listed
    have hlisted := tabled_listed htold hstop htabled.texts htabled.distinct htabled.origin
    exact (htable (told_of_visits htold hcf.visits) (hlisted.of_visits hcf.visits)).of_visits
      hcf.visits.symm

/-- **Documents in sequence.** The first document hoists and settles the survey, and all of them
    show what it has left; the common table lists definitions only, and all of them, if their ids can
    be told apart. -/
theorem emitAll_shares {root : Value × NodeId} (hoverride : conv.override = none)
    (hl : p.linkage = some l) (htable : l.table = [])
    (hrooted : ∀ r ∈ root :: roots, (documentId p.store p.linkage r.2).isTruthy = true)
    (h : Returns (conv.emitAll policy (root :: roots)) p docs d) :
    ∃ p' c, Rewrites p p' ∧ p'.survey.visits = p.survey.visits ∧
      Returns (do (conv.emission policy root.2).hoist; (conv.emission policy root.2).settleVisits)
        p' () c ∧ Stays c d ∧ Emits conv policy c (root :: roots) docs ∧
      ∃ table, d.linkage = some { l with table } ∧ Traced c.survey table ∧
        (c.survey.Told → Tabled c.survey table) := by
  obtain ⟨id, n⟩ := root
  obtain ⟨hn, hrest⟩ := List.forall_mem_cons.mp hrooted
  obtain ⟨doc, f, hemit, h₁⟩ := returns_bind.mp h
  obtain ⟨docs', d', hall, h₂⟩ := returns_bind.mp h₁
  obtain ⟨rfl, rfl⟩ := returns_pure.mp h₂
  obtain ⟨p', c, hclaim, hr, hrun, hemits⟩ := document_emits hemit
  have hp' : p'.linkage = some l := hr.linkage.trans hl
  have hc : c.linkage = some l := (hoist_settle_adds.of_returns hrun).linkage.trans hp'
  obtain ⟨hstays, hstop, hf, hdoc⟩ := hemits hc
  -- The first document hoists and settles for all: which nodes are hoisted is the same for each
  -- root.
  have hdone : ∀ r ∈ roots, Done (conv.emission policy r.2) f := by
    intro r hr'
    refine (hoist_settle_done hoverride (fun m v => ?_) hrun).of_stays hstays hc
    rw [hr.linkage, hr.store]
    exact isHoisted_emission (hrest r hr') hn m v
  obtain ⟨hd, hdocs, table, hlinkage, htraced, htabled⟩ := emitAll_repeats hoverride hf hdone hall
  refine ⟨p', c, hr, hclaim.visits, hrun, hstays.trans hd, .cons ⟨rfl, hdoc⟩ ((emits_iff_of_stays hstays).mp hdocs),
    table, hlinkage, ?_, fun htold => ?_⟩
  · have hempty : Traced c.survey l.table := htable ▸ nofun
    unfold Traced at htraced ⊢
    rw [hstays.visits] at htraced
    exact htraced hempty.listed
  have hlisted := tabled_listed htold hstop (htable ▸ nofun) (htable ▸ .nil) (htable ▸ nofun)
  exact (htabled (told_of_visits htold hstays.visits) (hlisted.of_visits hstays.visits)).of_visits
    hstays.visits.symm

/-! ### Documents of a catalog -/

/-- What the documents of a catalog are made of: those of its ids, and behind them the common
    definitions, if there are any. -/
theorem documents_runs {catalog : String} {addressing : Addressing} {store : Store}
    (h : Returns (conv.documents policy catalog addressing) (start store) docs d) :
    ∃ p own, Returns (conv.processAll ((store.catalog catalog).ids.map (·.2))) (start store) () p ∧
      Returns (conv.emitAll policy (store.catalog catalog).ids)
        { p with linkage := some { catalog, addressing } } own d ∧
      (commonTable d = [] ∧ docs = own ∨ commonTable d ≠ [] ∧
        ∃ table, d.view.Shows (.dict (commonTable d)) table ∧ docs = putDocument
          (.str sharedDocument) (.obj [(conv.guide.settings.target.definitionsKeyword, table)])
            own) := by
  obtain ⟨c₀, _, hget, h₁⟩ := returns_bind.mp h
  obtain ⟨hc₀, rfl⟩ := returns_get.mp hget
  obtain ⟨_, p, hprocess, h₂⟩ := returns_bind.mp h₁
  obtain ⟨_, p', hlink, h₃⟩ := returns_bind.mp h₂
  obtain ⟨own, c, hemit, h₄⟩ := returns_bind.mp h₃
  obtain ⟨c', _, hget', h₅⟩ := returns_bind.mp h₄
  obtain ⟨hc', hc''⟩ := returns_get.mp hget'
  have hids : (c₀.store.catalog catalog).ids = (store.catalog catalog).ids := by
    rw [hc₀]
    rfl
  have hp' : p' = { p with linkage := some { catalog, addressing } } := returns_modify.mp hlink
  rw [hids] at hprocess hemit
  rw [hp'] at hemit
  subst hc' hc''
  refine ⟨p, own, hprocess, ?_⟩
  dsimp only at h₅
  -- The common document stands behind the others, unless nothing is in it.
  split at h₅
  · rename_i hempty
    obtain ⟨rfl, rfl⟩ := returns_pure.mp h₅
    exact ⟨hemit, .inl ⟨List.isEmpty_iff.mp hempty, rfl⟩⟩
  · rename_i hfull
    obtain ⟨table, f, hfinalize, h₆⟩ := returns_bind.mp h₅
    obtain ⟨rfl, rfl⟩ := returns_pure.mp h₆
    obtain ⟨rfl, hshows⟩ := finalize_returns hfinalize
    refine ⟨hemit, .inr ⟨fun h => hfull (List.isEmpty_iff.mpr h), table, hshows, rfl⟩⟩

/-- What the conversion of a catalog runs through whose nodes have documents of their own: the
    descents from them and the mark of the first one, up to `p`; hoisting and settling, up to `c`;
    and all their documents, up to `d`. -/
structure Spans (conv : Converter) (policy : EmissionSettings) (catalog : String)
    (addressing : Addressing) (store : Store) (roots : List (Value × NodeId))
    (p c d : Conversion) (table : List (Value × NodeId)) (own : List (Value × Json)) : Prop where
  descent : ∃ q, Explores conv.guide [] [] (start store) q ∧
    (∀ r ∈ roots, q.survey.has r.2 = true) ∧
    Rewrites { q with linkage := some { catalog, addressing } } p ∧
    p.survey.visits = q.survey.visits
  settled : ∃ root ∈ roots, Returns
    (do (conv.emission policy root.2).hoist; (conv.emission policy root.2).settleVisits) p () c
  stays : Stays c d
  emits : Emits conv policy c roots own
  common : d.linkage = some { catalog, addressing, table }
  traced : Traced c.survey table
  tabled : c.survey.Told → Tabled c.survey table

/-- The document of what the documents of a catalog have in common stands behind them, if there is
    any. -/
def Joins (target : Target) (d : Conversion) (table : List (Value × NodeId))
    (own docs : List (Value × Json)) : Prop :=
  tableEntries d.survey table = [] ∧ docs = own ∨
    ∃ common, d.view.Shows (.dict (tableEntries d.survey table)) common ∧
      docs = putDocument (.str sharedDocument) (.obj [(target.definitionsKeyword, common)]) own

namespace Spans

variable {catalog : String} {addressing : Addressing} {store : Store}
  {table : List (Value × NodeId)} {own : List (Value × Json)}

section Runs

variable (h : conv.Spans policy catalog addressing store roots p c d table own)
include h

/-- The addresses are those of the catalog. -/
theorem linkage : p.linkage = some { catalog, addressing } := by
  obtain ⟨q, -, -, hrewrites, -⟩ := h.descent
  exact hrewrites.linkage

/-- Between the descents and the last document no node is added or visited. -/
theorem adds : Adds p c := by
  obtain ⟨root, -, hrun⟩ := h.settled
  exact hoist_settle_adds.of_returns hrun

/-- The store only grows. -/
theorem grows : Store.Grows p.store d.store :=
  h.adds.store.trans (grows_of_events h.stays.store)

/-- The same nodes are visited in the end as after the descents. -/
theorem has (n : NodeId) : d.survey.has n = p.survey.has n := by
  rw [Bool.eq_iff_iff, Survey.has_iff, Survey.has_iff, h.stays.order, h.adds.order]

/-- Every root of the catalog was visited. -/
theorem visited {r : Value × NodeId} (hr : r ∈ roots) : p.survey.has r.2 = true := by
  obtain ⟨q, -, hroots, hrewrites, -⟩ := h.descent
  rw [hrewrites.has]
  exact hroots r hr

/-- No node is visited twice. -/
theorem nodup : p.survey.order.Nodup := by
  obtain ⟨q, hexplores, -, hrewrites, -⟩ := h.descent
  rw [hrewrites.order]
  exact hexplores.descends.nodup List.nodup_nil

/-- Ids by annotation stay the same from the descents on. -/
theorem annotatedId (name : String) (n : NodeId) :
    annotatedId d.store name n = Emission.annotatedId p.store name n := by
  unfold Emission.annotatedId
  rw [h.stays.store, ← h.adds.catalog]
  rfl

variable (hs : store.Closed)
include hs

/-- Hoisting begins with a survey that holds what the nodes contribute in the end. -/
theorem intact : p.survey.Intact conv.guide d.store := by
  obtain ⟨q, hexplores, -, hrewrites, hvisits⟩ := h.descent
  have hexplored := Explored.of_explores hexplores (not_has_start store)
  have hq := (hexplores.descends.store (start_closed hs)).2
  refine Survey.Intact.of_visits ⟨?_, fun hv => hexplores.descends.entered rfl hv⟩ hvisits
  exact hexplored.mono (hrewrites.grows.trans h.grows) hq

/-- Nodes that were there before keep their annotations. -/
theorem annotatedId_of_isSome (name : String) {n : NodeId} (hn : (store.node? n).isSome = true) :
    Emission.annotatedId p.store name n = Emission.annotatedId store name n := by
  obtain ⟨q, hexplores, -, hrewrites, -⟩ := h.descent
  have hnotes : (q.store.catalog name).get? n = (store.catalog name).get? n :=
    (hexplores.descends.store (start_closed hs)).1.notes name (by cases n <;> exact hn)
  unfold Emission.annotatedId
  rw [hrewrites.store, ← hnotes]
  rfl

end Runs

end Spans

/-- **Conversions of catalogs.** A conversion of a catalog that returns has nothing to convert, or
    runs through descents from its nodes and their documents. -/
theorem documents_spans {catalog : String} {addressing : Addressing} {store : Store}
    (hs : store.Closed) (hoverride : conv.override = none)
    (h : Returns (conv.documents policy catalog addressing) (start store) docs d)
    (hrooted : ∀ r ∈ (store.catalog catalog).ids,
      (store.node? r.2).isSome ∧ (annotatedId store catalog r.2).isTruthy = true) :
    ((store.catalog catalog).ids = [] ∧ docs = []) ∨
      ∃ p c table own,
        conv.Spans policy catalog addressing store (store.catalog catalog).ids p c d table own ∧
        Joins conv.guide.settings.target d table own docs := by
  obtain ⟨q, own, hprocess, hemit, hdocs⟩ := documents_runs h
  have hjoins : ∀ {table}, d.linkage = some { catalog, addressing, table } →
      Joins conv.guide.settings.target d table own docs := by
    intro table hd
    have hcommon : commonTable d = tableEntries d.survey table := by
      unfold commonTable
      rw [hd]
      rfl
    rw [hcommon] at hdocs
    exact hdocs.imp_right fun ⟨_, hshown⟩ => hshown
  cases hroots : (store.catalog catalog).ids with
  | nil =>
    rw [hroots] at hemit
    obtain ⟨rfl, rfl⟩ := returns_pure.mp hemit
    refine .inl ⟨rfl, ?_⟩
    rcases hdocs with ⟨-, hdocs⟩ | ⟨hfull, -⟩
    · exact hdocs
    · exact absurd rfl hfull
  -- The document of the first root does all the work; those behind it find it done.
  | cons root rest =>
    rw [hroots] at hprocess hemit hrooted
    obtain ⟨hexplores, hvisited⟩ := processAll_explores (start_closed hs) hprocess
    have hgrows := (hexplores.descends.store (start_closed hs)).1
    -- The descents annotate no node that was there before.
    have hrooted' : ∀ r ∈ root :: rest, (documentId q.store (some { catalog, addressing })
        r.2).isTruthy = true := by
      intro r hr
      obtain ⟨hn, htruthy⟩ := hrooted r hr
      have hnotes : (q.store.catalog catalog).get? r.2 = (store.catalog catalog).get? r.2 :=
        hgrows.notes catalog (by cases hm : r.2 <;> rw [hm] at hn <;> exact hn)
      show (((q.store.catalog catalog).get? r.2).map Catalog.idOf |>.getD .null).isTruthy = true
      rw [hnotes]
      exact htruthy
    obtain ⟨p, c, hr, hvisits, hrun, hstays, hemits, table, hlinkage, htraced, htabled⟩ :=
      emitAll_shares hoverride rfl rfl hrooted' hemit
    exact .inr ⟨p, c, table, own,
      { descent := ⟨q, hexplores, fun r hr' => hvisited _ (List.mem_map_of_mem hr'), hr, hvisits⟩
        settled := ⟨root, List.mem_cons_self .., hrun⟩
        stays := hstays
        emits := hemits
        common := hlinkage
        traced := htraced
        tabled := htabled }, hjoins hlinkage⟩

end Converter

end SchemaGraph
