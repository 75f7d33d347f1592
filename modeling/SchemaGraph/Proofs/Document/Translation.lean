import SchemaGraph.Proofs.Document.Bilingual
import SchemaGraph.Proofs.Document.Sequence
import SchemaGraph.Proofs.Document.Session
import SchemaGraph.Proofs.Document.Untouched
import SchemaGraph.Proofs.Survey.Retracing

namespace SchemaGraph

open SchemaGraph.Action Conversion

/-!
# Documents translated

The document of a root says the same in both dialects.  What is emitted from surveys that say the
same is refused for the same reasons, makes the same definitions, and comes to documents that
correspond position by position; or it fails in the same way.  Several documents of a catalog do so
one after the other, as long as their roots have addresses of their own.

* `Emission.document_abreastAt`  — one document in two dialects
* `Converter.emitAll_abreastAt`  — several documents of one survey
* `Converter.document_translated`, `Converter.documents_translated` — whole conversions
-/

/-! ### One document -/

namespace Survey

variable {scope : Option Addressing} {s t : Survey}

/-- Surveys that say the same mark the same cycles. -/
theorem Bilingual.marks (h : s.Bilingual scope t) : t.marks = s.marks := by
  have hvisits := h.visits
  unfold Survey.marks
  generalize s.visits = vs at hvisits
  generalize t.visits = ws at hvisits
  generalize t.LeavesReference = refers at hvisits
  induction hvisits with
  | nil => rfl
  | cons hpq _ ih => rw [List.map_cons, List.map_cons, hpq.1, hpq.2.cycle, ih]

/-- Surveys that say the same list the same definitions. -/
theorem Bilingual.listed (h : s.Bilingual scope t) (table : List (Value × NodeId)) :
    Emission.listed t.visits table = Emission.listed s.visits table := by
  have hvisits := h.visits
  generalize s.visits = vs at hvisits
  generalize t.visits = ws at hvisits
  generalize t.LeavesReference = refers at hvisits
  induction hvisits generalizing table with
  | nil => rfl
  | @cons p q vs ws hpq _ ih =>
    obtain ⟨n, v⟩ := p
    obtain ⟨m, w⟩ := q
    obtain ⟨rfl, hvw⟩ := hpq
    unfold Emission.listed
    rw [hvw.hoisted, hvw.id]
    simp only [ih]

end Survey

namespace Emission

variable {e : Emission} {scope : Option Addressing} {c d : Conversion}

/-- An emission is refused in both dialects, for the same reason. -/
theorem refusal?_bilingual (h : c.Bilingual scope d) (target : Target) :
    (e.inDialect target).refusal? d = e.refusal? c := by
  have hdialect : (e.inDialect target).refusal? d = e.refusal? d := by
    have hcycle : (e.inDialect target).rejectedCycle? d.store d.linkage d.survey.visits =
        e.rejectedCycle? d.store d.linkage d.survey.visits := by
      refine rejectedCycle?_congr (fun n => ?_) rfl
      rfl
    unfold refusal?
    rw [hcycle]
    rfl
  rw [hdialect]
  refine refusal?_congr ?_ h.survey.marks (by rw [h.survey.emitted]) h.survey.standalone
    (by rw [h.linkage]) (fun _ => h.survey.emitted) fun n => ?_
  · obtain ⟨events, hevents⟩ := h.store.exists_eq
    rw [hevents]
    cases e.root <;> rfl
  · exact hasOwnAddress_alongside (e := e) h e.target n

/-- Both dialects claim the root alike. -/
theorem claim_abreast : Abreast (Conversion.Bilingual scope) (fun _ _ => True) e.claim
    (e.inDialect .draft7).claim := by
  refine abreast_read fun c d h => ?_
  dsimp only
  rw [h.linkage]
  refine abreast_onSurvey fun s t hst => ?_
  exact { hst with
    emitted := congrArg (· ++ [e.root]) hst.emitted
    standalone := congrArg (· || _) hst.standalone }

/-- The same definitions are listed in both dialects. -/
theorem listDefinitions_abreast : Abreast (Conversion.Bilingual scope) (fun _ _ => True)
    e.listDefinitions (e.inDialect .draft7).listDefinitions := by
  refine abreast_read fun c d h => ?_
  dsimp only
  rw [h.linkage, h.survey.listed]
  refine (abreast_modify fun c d h => ?_).bind fun _ _ _ => ?_
  · refine ⟨h.store, h.survey, by rw [h.linkage], ?_⟩
    rw [Option.map_map]
    exact h.scope
  · generalize (listed c.survey.visits _).2 = stop
    cases stop with
    | some f => exact abreast_fail f
    | none => exact abreast_pure trivial

/-- Values that agree are finished in the same way. -/
theorem finalize_abreastAt {S : Survey → Survey → Prop} {Q : Json → Json → Prop} {v w : Value}
    (h : Alongside S scope c d)
    (hvw : Corresponds Q (c.view.settle v).toJson (d.view.settle w).toJson) :
    AbreastAt (Alongside S scope) Q (finalize v) (finalize w) c d := by
  unfold AbreastAt finalize
  rw [run_bind, run_get, run_bind, run_get]
  dsimp only
  unfold Value.document
  generalize (c.view.settle v).toJson = x at hvw
  generalize (d.view.settle w).toJson = y at hvw
  cases hvw with
  | error f => exact abreast_fail _ c d h
  | ok hab => exact ⟨.ok hab, h⟩

/-- Both dialects complete a document alike. -/
theorem completed_abreast : Abreast (Conversion.Bilingual scope) (fun _ _ => True) e.completed
    (e.inDialect .draft7).completed :=
  abreast_read fun _ _ _ => abreast_log _ _

/-- The same is put together in both dialects. -/
theorem compose_abreastAt (htarget : e.target = .draft2020) (hoverride : e.override = none)
    (h : c.Bilingual scope d) (hready : e.Ready c) :
    AbreastAt (Conversion.Bilingual scope) (fun _ _ => True) e.compose
      (e.inDialect .draft7).compose c d := by
  refine (claim_abreast c d h).bind fun _ _ c' d' hc' _ _ h' => ?_
  obtain ⟨hrewrites, hvisits⟩ := claim_returns hc'
  have hready' : e.Ready c' :=
    hready.hoists (.of_rewrites hrewrites fun n => by rw [Survey.visit?, Survey.visit?, hvisits])
  refine (hoist_abreastAt htarget h' hready').bind fun _ _ c₁ d₁ _ _ _ h₁ => ?_
  refine (settleVisits_abreast htarget hoverride c₁ d₁ h₁).bind fun _ _ c₂ d₂ _ _ _ h₂ => ?_
  exact listDefinitions_abreast c₂ d₂ h₂

/-- **One document.** From surveys that say the same, the documents of a root correspond in both
    dialects, or their emissions fail in the same way. -/
theorem document_abreastAt (htarget : e.target = .draft2020) (hoverride : e.override = none)
    (h : c.Bilingual scope d) (hready : e.Ready c) :
    AbreastAt (Conversion.Bilingual scope) (Json.RewordedDocument scope) e.document
      (e.inDialect .draft7).document c d := by
  unfold AbreastAt document
  rw [run_bind, run_get, run_bind, run_get]
  dsimp only
  rw [refusal?_bilingual h]
  cases e.refusal? c with
  | some f => exact abreast_fail f c d h
  | none =>
    refine (compose_abreastAt htarget hoverride h hready).bind
      fun entries entries' c' d' hc' hd' _ h' => ?_
    obtain ⟨_, c₁, -, -, hlist⟩ := compose_returns hc'
    obtain ⟨-, hleft, rfl⟩ := listDefinitions_returns hlist
    obtain ⟨_, d₁, -, -, hlist'⟩ := compose_returns hd'
    obtain ⟨-, hright, rfl⟩ := listDefinitions_returns hlist'
    -- Listing concerns the table alone, so that the surveys in front of it say the same.
    have hsurvey : c₁.survey.Bilingual scope d₁.survey := by
      have hsame := h'.survey
      rwa [hleft, hright] at hsame
    have hsome : d₁.linkage.isSome = c₁.linkage.isSome := by
      have hsame := congrArg Option.isSome h'.linkage
      simpa [hleft, hright] using hsame
    -- And both tables list the same nodes, as ids are the same.
    have htable : (if d₁.linkage.isSome then []
          else (listed d₁.survey.visits ((d₁.linkage.map (·.table)).getD [])).1) =
        (if c₁.linkage.isSome then []
          else (listed c₁.survey.visits ((c₁.linkage.map (·.table)).getD [])).1) := by
      rw [hsome, hsurvey.listed]
      cases hc₁ : c₁.linkage with
      | some l => rfl
      | none =>
        rw [hc₁] at hsome
        rw [Option.isNone_iff_eq_none.mp (Option.isSome_eq_false_iff.mp hsome)]
    rw [htable]
    have hview := h'.view.agree_document (if c₁.linkage.isSome then []
      else (listed c₁.survey.visits ((c₁.linkage.map (·.table)).getD [])).1) htarget
      fun n => h'.survey.definition n
    rw [show c'.survey = c₁.survey by rw [hleft],
      show d'.survey = d₁.survey by rw [hright]] at hview
    refine (finalize_abreastAt h' hview).bind fun doc doc' c₂ d₂ _ _ hdoc h₂ => ?_
    exact (completed_abreast c₂ d₂ h₂).bind fun _ _ _ _ _ _ _ h₃ => ⟨.ok hdoc, h₃⟩

end Emission

/-! ### Descents -/

namespace Survey

variable {scope : Option Addressing} {s t : Survey} {guide : Guide} {store store' : Store}

/-- Entries that are outlined alike, one by one, with what is known of those of either survey. -/
theorem Outlined.forall₂_visits (h : s.Outlined t) :
    List.Forall₂ (fun p q => p ∈ s.visits ∧ q ∈ t.visits ∧ q.1 = p.1 ∧ q.2.outline = p.2.outline)
      s.visits t.visits := by
  have hmapped : List.Forall₂ Eq (outlines t.visits) (outlines s.visits) := by
    rw [h.visits]
    exact List.forall₂_refl _
  have houtlines := (List.forall₂_map_left_iff.mp (List.forall₂_map_right_iff.mp hmapped))
  have hright : List.Forall₂ (fun q p => q ∈ t.visits ∧ (q.1, q.2.outline) = (p.1, p.2.outline))
      t.visits s.visits :=
    (List.forall₂_and_left _ _).mpr ⟨fun _ hq => hq, houtlines⟩
  refine List.Forall₂.imp ?_
    ((List.forall₂_and_left (p := (· ∈ s.visits)) _ _).mpr ⟨fun _ hp => hp, hright.flip⟩)
  rintro p q ⟨hp, hq, hsame⟩
  exact ⟨hp, hq, (Prod.mk.inj hsame).1, (Prod.mk.inj hsame).2⟩

/-- What a node contributes is the same in two dialects, as long as nothing was emitted. -/
theorem Intact.bilingual {refers : NodeId → String → Prop} {n : NodeId} {v w : Visit}
    (hintact : s.Intact guide store) (hintact' : t.Intact (guide.inDialect .draft7) store')
    (hs : store.Closed) (hechoes : store.Echoes store')
    (htarget : guide.settings.target = .draft2020) (hneutral : store.Neutral guide.catalog n)
    (hv : s.visit? n = some v) (hw : t.visit? n = some w) (houtline : w.outline = v.outline) :
    v.Bilingual scope refers w := by
  obtain ⟨links, x, hx, hxv, -⟩ := hintact.contents hv
  obtain ⟨more, y, hy, hyw, -⟩ := hintact'.contents hw
  obtain ⟨events, rfl⟩ := hechoes.exists_eq
  -- The two stores differ in events and in what former surveys have left, which contents do not ask
  -- for.
  have hy' : store.contents? (guide.inDialect .draft7) more n = some y :=
    (Store.contents?_archive store.archive events more n).symm.trans hy
  have hx := Store.contents?_mono (.refl store) hs (le_max_left links more) hx
  have hy := Store.contents?_mono (.refl store) hs (le_max_right links more) hy'
  obtain ⟨node, hnode, hcontents⟩ := Store.contents?_reworded hneutral htarget hx hy
  -- Before emission what a node holds is what it contributes, and that is reworded.
  have hbody : v.fragment.Reworded none refersNowhere node.spelling w.fragment := by
    rw [← hxv, ← hyw]
    exact hcontents.fragment
  have hnone := hintact.definition hv
  have hnone' := hintact'.definition hw
  have hraw : v.body = v.fragment := Visit.body_of_definition_none (by rw [hnone]; rfl)
  have hraw' : w.body = w.fragment := Visit.body_of_definition_none (by rw [hnone']; rfl)
  exact
    { count := congrArg (·.count) houtline
      cycle := congrArg (·.cycle) houtline
      target := congrArg (·.target) houtline
      merged := congrArg (·.merged) houtline
      id := congrArg (·.definitionId) houtline
      hoisted := congrArg (·.definition.isSome) houtline
      body := by
        rw [hraw, hraw']
        refine ⟨node.spelling, hbody.of_nowhere fun _ _ => id, fun hform => ?_⟩
        rw [← hxv]
        exact Store.has_prefixItems htarget hnode hform hx
      distinct := by
        rw [hraw, ← hxv]
        exact hcontents.distinct
      reference := by
        rw [hnone]
        exact nofun
      own := fun _ => by
        rw [hraw, hraw']
        refine ⟨node.spelling, hbody, fun hsome => ?_⟩
        obtain ⟨m, hm⟩ := Option.isSome_iff_exists.mp hsome
        obtain ⟨other, lead, hother, hlead, -⟩ := hintact.passes hv hm
        obtain rfl := Option.some.inj (hnode.symm.trans hother)
        exact Store.spelling_of_passes hlead }

/-- **Descents.** Surveys of the same nodes in two dialects say the same, as long as nothing was
    emitted from them. -/
theorem Outlined.bilingual (h : s.Outlined t) (hs : store.Closed) (hechoes : store.Echoes store')
    (hintact : s.Intact guide store) (hintact' : t.Intact (guide.inDialect .draft7) store')
    (hnodup : s.order.Nodup) (htarget : guide.settings.target = .draft2020)
    (hneutral : ∀ n, s.has n = true → store.Neutral guide.catalog n) : s.Bilingual scope t where
  number := by rw [h.rest]
  counter := by rw [h.rest]
  emitted := by rw [h.rest]
  standalone := by rw [h.rest]
  visits := by
    have horder : t.order = s.order := by
      have hsame := congrArg (List.map (·.1)) h.visits
      unfold outlines at hsame
      rwa [List.map_map, List.map_map] at hsame
    refine List.Forall₂.imp ?_ h.forall₂_visits
    rintro ⟨m, v⟩ ⟨n, w⟩ ⟨hp, hq, rfl, houtline⟩
    have hv := visit?_of_mem hnodup hp
    have hw := visit?_of_mem (horder ▸ hnodup) hq
    exact ⟨rfl, hintact.bilingual hintact' hs hechoes htarget (hneutral n (has_of_visit? hv)) hv hw
      houtline⟩

end Survey

/-! ### Whole conversions -/

namespace Conversion

variable {c d : Conversion}

/-- What is supplied for a node does not change while a graph is outlined. -/
theorem Outlines.neutral {catalog : String} {n : NodeId} (h : Outlines c d)
    (hd : d.store.Neutral catalog n) : c.store.Neutral catalog n := by
  have hsupplied : ∀ es, c.store.Supplied catalog n es → d.store.Supplied catalog n es := by
    intro es hes
    unfold Store.Supplied
    rw [h.node?, h.store]
    exact hes
  exact
    { plain := fun node hn => hd.plain node ((h.node? n).trans hn)
      supplied := fun es hes => hd.supplied es (hsupplied es hes)
      spared := fun es hes => hd.spared es (hsupplied es hes) }

/-- Finishing a document keeps the outlines. -/
theorem finalize_outlines (v : Value) : Within Outlines (finalize v) := by
  refine .bind within_get fun c => ?_
  split
  · exact within_pure _
  · exact Emission.bears_outlines.fail _ _

end Conversion

namespace Emission

variable {e e' : Emission} {scope : Option Addressing} {c d : Conversion} {l : Linkage}

/-- As long as nothing is finished, all emissions may hoist what they will. -/
theorem ready_of_unmerged (h : ∀ n v, c.survey.visit? n = some v → v.merged = false) :
    e.Ready c := by
  intro n v hv hmerged
  rw [h n v hv] at hmerged
  cases hmerged

/-- Where nothing is left to do in the second dialect, nothing is in the first one. -/
theorem Done.ready (h : Done (e.inDialect .draft7) d) (hcd : c.Bilingual scope d) : e.Ready c := by
  intro n v hv _ hhoisted
  obtain ⟨w, hw, hvw⟩ := hcd.survey.exists_visit? hv
  rw [← isHoisted_alongside hcd .draft7 hvw] at hhoisted
  exact hvw.isReference_iff.mp (h.hoisted hw hhoisted)

/-- Behind a document with addresses across documents, nothing is left to do for those that hoist
    the same nodes; and the addresses are the same. -/
theorem document_done {doc : Json} (hoverride : e.override = none) (hl : c.linkage = some l)
    (hsame : ∀ n v, e'.isHoisted c.store c.linkage n v = e.isHoisted c.store c.linkage n v)
    (h : Returns e.document c doc d) :
    Done e' d ∧ ∃ table, d.linkage = some { l with table } ∧
      ∀ name, d.store.catalog name = c.store.catalog name := by
  obtain ⟨p, c₁, -, hrewrites, hrun, hemits⟩ := document_emits (l := l) h
  have hadds := hoist_settle_adds.of_returns hrun
  have hlinked : c₁.linkage = some l := hadds.linkage.trans (hrewrites.linkage.trans hl)
  obtain ⟨hstays, -, hd, -⟩ := hemits hlinked
  have hdone : Done e' c₁ := by
    refine hoist_settle_done hoverride (fun n v => ?_) hrun
    rw [isHoisted_eq hrewrites, isHoisted_eq hrewrites]
    exact hsame n v
  refine ⟨hdone.of_stays hstays hlinked, _, hd, fun name => ?_⟩
  rw [hstays.store]
  show c₁.store.catalog name = _
  rw [hadds.catalog, hrewrites.store]
  rfl

end Emission

/-- A document with its id in two dialects. -/
def Json.RewordedEntry (scope : Option Addressing) (p q : Value × Json) : Prop :=
  q.1 = p.1 ∧ Json.RewordedDocument scope p.2 q.2

namespace Converter

open Emission

variable {conv : Converter} {policy : EmissionSettings} {scope : Option Addressing}
  {store : Store} {root : NodeId}

/-- Several descents in another dialect come to the same, but in keywords. -/
theorem processAll_abreast (conv : Converter) (target : Target) (roots : List NodeId) :
    Descend scope (conv.processAll roots) ((conv.inDialect target).processAll roots) := by
  induction roots with
  | nil => exact abreast_pure trivial
  | cons root rest ih => exact (conv.process_abreast target scope root).bind fun _ _ _ => ih

/-- **Several documents.** From surveys that say the same, the documents of roots with addresses of
    their own correspond in both dialects, one after the other. -/
theorem emitAll_abreastAt (htarget : conv.guide.settings.target = .draft2020)
    (hoverride : conv.override = none) (roots : List (Value × NodeId)) :
    ∀ c d l, c.Bilingual scope d → d.linkage = some l →
    (∀ r ∈ roots, (annotatedId d.store l.catalog r.2).isTruthy = true) →
    (∀ r ∈ roots, (conv.emission policy r.2).Ready c) →
    AbreastAt (Conversion.Bilingual scope) (List.Forall₂ (Json.RewordedEntry scope))
      (conv.emitAll policy roots) ((conv.inDialect .draft7).emitAll policy roots) c d := by
  induction roots with
  | nil => exact fun c d l h _ _ _ => ⟨.ok .nil, h⟩
  | cons r rest ih =>
    intro c d l h hl hrooted hready
    obtain ⟨id, n⟩ := r
    obtain ⟨hn, hrest⟩ := List.forall_mem_cons.mp hrooted
    refine (document_abreastAt htarget hoverride h (hready _ List.mem_cons_self)).bind
      fun doc doc' c' d' _ hd' hdoc h' => ?_
    -- in the second dialect all roots hoist the same nodes, and the first document hoists them
    have hdone : ∀ r ∈ rest, Done ((conv.emission policy r.2).inDialect .draft7) d' ∧
        ∃ table, d'.linkage = some { l with table } ∧
          ∀ name, d'.store.catalog name = d.store.catalog name := by
      intro r hr
      refine document_done hoverride hl (fun m v => ?_) hd'
      show ((conv.inDialect .draft7).emission policy r.2).isHoisted _ _ m v =
        ((conv.inDialect .draft7).emission policy n).isHoisted _ _ m v
      refine isHoisted_emission ?_ ?_ m v <;> rw [hl]
      · exact hrest r hr
      · exact hn
    have htail : AbreastAt (Conversion.Bilingual scope) (List.Forall₂ (Json.RewordedEntry scope))
        (conv.emitAll policy rest) ((conv.inDialect .draft7).emitAll policy rest) c' d' := by
      cases rest with
      | nil => exact ⟨.ok .nil, h'⟩
      | cons r rest =>
        obtain ⟨-, table, hl', hcatalog⟩ := hdone r List.mem_cons_self
        refine ih c' d' _ h' hl' (fun r hr => ?_) fun r hr => (hdone r hr).1.ready h'
        unfold annotatedId
        rw [hcatalog]
        exact hrest r hr
    exact htail.bind fun docs docs' c₁ d₁ _ _ hdocs h₁ => ⟨.ok (.cons ⟨rfl, hdoc⟩ hdocs), h₁⟩

/-- A further document is put at the same place in both dialects. -/
theorem putDocument_reworded {docs docs' : List (Value × Json)} {id : Value} {doc doc' : Json}
    (h : List.Forall₂ (Json.RewordedEntry scope) docs docs')
    (hdoc : Json.RewordedDocument scope doc doc') :
    List.Forall₂ (Json.RewordedEntry scope) (putDocument id doc docs)
      (putDocument id doc' docs') := by
  induction h with
  | nil => exact .cons ⟨rfl, hdoc⟩ .nil
  | @cons p q docs docs' hpq hrest ih =>
    obtain ⟨i, a⟩ := p
    obtain ⟨j, b⟩ := q
    obtain ⟨rfl, hab⟩ := hpq
    unfold putDocument
    dsimp only
    split
    · exact .cons ⟨rfl, hdoc⟩ hrest
    · exact .cons ⟨rfl, hab⟩ ih

/-- What is emitted for a catalog keeps the outlines: induction on the roots. -/
theorem publish_outlines (catalog : String) (addressing : Addressing)
    (roots : List (Value × NodeId)) :
    Within Outlines (conv.publish policy catalog addressing roots) := by
  have hemitAll : Within Outlines (conv.emitAll policy roots) := by
    induction roots with
    | nil => exact within_pure _
    | cons r rest ih => exact document_outlines.bind fun _ => ih.bind fun _ => within_pure _
  refine Within.bind (fun c => { }) fun _ => hemitAll.bind fun _ => within_get.bind fun c => ?_
  dsimp only
  split
  · exact within_pure _
  · exact (finalize_outlines _).bind fun _ => within_pure _

/-- **Common definitions.** From surveys that say the same, the documents of a catalog correspond in
    both dialects, and so does the one of their common definitions. -/
theorem publish_abreastAt (htarget : conv.guide.settings.target = .draft2020)
    (hoverride : conv.override = none) {catalog : String} {addressing : Addressing}
    {roots : List (Value × NodeId)} {c d : Conversion} (hstore : c.store.Echoes d.store)
    (hsurvey : c.survey.Bilingual (some addressing) d.survey)
    (hunmerged : ∀ n v, c.survey.visit? n = some v → v.merged = false)
    (hrooted : ∀ r ∈ roots, (annotatedId d.store catalog r.2).isTruthy = true) :
    AbreastAt (Conversion.Bilingual (some addressing))
      (List.Forall₂ (Json.RewordedEntry (some addressing)))
      (conv.publish policy catalog addressing roots)
      ((conv.inDialect .draft7).publish policy catalog addressing roots) c d := by
  have hbilingual : Conversion.Bilingual (some addressing)
      { c with linkage := some { catalog, addressing } }
      { d with linkage := some { catalog, addressing } } := ⟨hstore, hsurvey, rfl, rfl⟩
  have hready : ∀ r ∈ roots, (conv.emission policy r.2).Ready
      { c with linkage := some { catalog, addressing } } := fun r _ => ready_of_unmerged hunmerged
  refine (emitAll_abreastAt htarget hoverride roots _ _ _ hbilingual rfl hrooted hready).bind
    fun docs docs' c₂ d₂ _ _ hdocs h₂ => ?_
  unfold AbreastAt
  rw [run_bind, run_get, run_bind, run_get]
  dsimp only
  unfold commonTable
  rw [h₂.linkage]
  generalize (c₂.linkage.map (·.table)).getD [] = table
  -- Whether there is a common document depends on how many entries its table has.
  have hempty : (tableEntries d₂.survey table).isEmpty =
      (tableEntries c₂.survey table).isEmpty := by
    unfold tableEntries
    rw [List.isEmpty_map, List.isEmpty_map]
  rw [hempty]
  split
  · exact ⟨.ok hdocs, h₂⟩
  · have hcommon := h₂.view.agree_common table fun n => h₂.survey.definition n
    refine (finalize_abreastAt h₂ hcommon).bind fun common common' c₃ d₃ _ _ hshown h₃ => ?_
    obtain ⟨ps, qs, rfl, rfl, hall⟩ := hshown
    refine ⟨.ok (putDocument_reworded hdocs ?_), h₃⟩
    have hmembers : List.Forall₂ (Json.DocumentMember (some addressing) .neutral)
        [("$defs", .obj ps)] [("definitions", .obj qs)] := .cons (.table hall) .nil
    rw [htarget]
    exact .intro hmembers nofun

section Translated

variable (hs : store.Closed) (htarget : conv.guide.settings.target = .draft2020)
include hs htarget

/-- **Descents first.** What comes behind descents from the same roots starts from surveys that say
    the same, in which nothing is finished. -/
theorem translated_of_tail {α β : Type} {R : Conversion → Conversion → Prop} {Q : α → β → Prop}
    (scope : Option Addressing) (roots : List NodeId) {tail : Action Conversion α}
    {tail' : Action Conversion β} (houtlines : Within Outlines tail)
    (hneutral : let c := ((conv.processAll roots >>= fun _ => tail) (start store)).2
      ∀ n, c.survey.has n = true → c.store.Neutral conv.guide.catalog n)
    (htail : ∀ c d, Descending none c d → c.survey.Bilingual scope d.survey →
      (∀ n v, c.survey.visit? n = some v → v.merged = false) →
      Store.Grows (start store).store d.store → AbreastAt R Q tail tail' c d) :
    Coincide R Q (conv.processAll roots >>= fun _ => tail)
      ((conv.inDialect .draft7).processAll roots >>= fun _ => tail') (start store)
      (start store) := by
  have hstart : Descending none (start store) (start store) := ⟨.refl _, .refl _, rfl, rfl⟩
  refine (processAll_abreast conv .draft7 roots _ _ hstart).continue
    fun _ _ c d hc hd _ h => AbreastAt.coincide ?_
  rw [run_bind, hc] at hneutral
  have hintact := processAll_intact hs hc
  have hdescends := (processAll_within conv roots).of_returns hc
  have hgrows := ((processAll_within _ roots).of_returns hd).store (start_closed hs)
  -- The roots are processed alike; what is asked of the final state holds of the survey here.
  refine htail c d h ?_ (fun n v hv => hintact.merged hv) hgrows.1
  exact h.survey.bilingual (hdescends.store (start_closed hs)).2 h.store hintact
    (processAll_intact hs hd) (hdescends.nodup List.nodup_nil) htarget
    fun n hn => (houtlines c).neutral (hneutral n (((houtlines c).has n).trans hn))

variable (hoverride : conv.override = none)
include hoverride

/-- **Documents.** The documents of a node correspond in both dialects, or their conversions fail in
    the same way. -/
theorem document_translated (root : NodeId)
    (hneutral : let c := (conv.document policy root (start store)).2
      ∀ n, c.survey.has n = true → c.store.Neutral conv.guide.catalog n) :
    Coincide (Conversion.Bilingual none) (Json.RewordedDocument none) (conv.document policy root)
      ((conv.inDialect .draft7).document policy root) (start store) (start store) := by
  rw [document_eq] at hneutral
  rw [document_eq, document_eq]
  refine translated_of_tail hs htarget none [root] document_outlines hneutral
    fun c d h hsurvey hunmerged _ => ?_
  have hbilingual : c.Bilingual none d := ⟨h.store, hsurvey, h.linkage, h.scope⟩
  exact document_abreastAt htarget hoverride hbilingual (ready_of_unmerged hunmerged)

/-- **Documents of a catalog.** The documents of a catalog have the same ids in both dialects, in
    the same order, and correspond one by one, if the nodes of the catalog have addresses of their
    own; or their conversions fail in the same way. -/
theorem documents_translated (catalog : String) (addressing : Addressing)
    (hrooted : ∀ r ∈ (store.catalog catalog).ids, (store.node? r.2).isSome = true ∧
      (annotatedId store catalog r.2).isTruthy = true)
    (hneutral : let c := (conv.documents policy catalog addressing (start store)).2
      ∀ n, c.survey.has n = true → c.store.Neutral conv.guide.catalog n) :
    Coincide (Conversion.Bilingual (some addressing))
      (List.Forall₂ (Json.RewordedEntry (some addressing)))
      (conv.documents policy catalog addressing)
      ((conv.inDialect .draft7).documents policy catalog addressing) (start store)
      (start store) := by
  unfold Coincide Returns
  rw [documents_eq] at hneutral
  rw [documents_eq, documents_eq]
  refine translated_of_tail hs htarget (some addressing) _ (publish_outlines _ _ _) hneutral
    fun c d h hsurvey hunmerged hgrows => ?_
  refine publish_abreastAt htarget hoverride h.store hsurvey hunmerged fun r hr => ?_
  obtain ⟨id, n⟩ := r
  obtain ⟨hn, htruthy⟩ := hrooted _ hr
  have hnotes : (d.store.catalog catalog).get? n = (store.catalog catalog).get? n :=
    hgrows.notes catalog (by cases n <;> exact hn)
  unfold annotatedId at htruthy ⊢
  rw [hnotes]
  exact htruthy

end Translated

end Converter

end SchemaGraph
