import SchemaGraph.Proofs.Document.Meaning
import SchemaGraph.Proofs.Document.Persistence

namespace SchemaGraph

open SchemaGraph.Action Conversion

/-!
# What composing makes of a survey

The first document that is composed from a survey changes it once and for all: every node that
has to be becomes a definition, under the reference that names it, and all nodes are finished.
What the survey holds then is compiled from what the descent has found.

* `Survey.Intact`, `Survey.Fresh` — a survey from which no document was composed yet
* `Emission.Composed`    — what the first document has made of it
* `Emission.hoist_settle_composes` — hoisting and settling make that of it
-/

/-- A complete survey from which no document was composed yet. -/
structure Survey.Intact (guide : Guide) (s : Store) (p : Survey) : Prop where
  explored : Explored guide s p
  stage : ∀ {n v}, p.visit? n = some v → v.stage = Visit.stage {}

/-- An intact survey of nodes that are as documents need them. -/
structure Survey.Fresh (guide : Guide) (s : Store) (p : Survey) : Prop extends
    Survey.Intact guide s p where
  suited : ∀ n, p.has n = true → s.Suited guide.catalog n
  undemanding : guide.settings.target = .draft7 → ∀ n, p.has n = true →
    s.Undemanding guide.catalog n
  acyclic : ∀ n, ¬ Relation.TransGen (s.Passes guide.settings.side) n n

namespace Survey

variable {guide : Guide} {s : Store} {p p' : Survey} {n : NodeId} {v : Visit}

/-- A visit is found in the table of visits. -/
theorem visit?_of_visits (h : p'.visits = p.visits) (n : NodeId) : p'.visit? n = p.visit? n := by
  rw [visit?, visit?, h]

/-- Whether a node was visited depends on the table of visits. -/
theorem has_of_visits (h : p'.visits = p.visits) (n : NodeId) : p'.has n = p.has n := by
  rw [has, has, visit?_of_visits h]

namespace Intact

/-- No node of an intact survey is a definition. -/
theorem definition (h : Intact guide s p) (hv : p.visit? n = some v) : v.definition = none :=
  congrArg (·.1) (h.stage hv)

/-- No node of an intact survey has the id of a definition. -/
theorem definitionId (h : Intact guide s p) (hv : p.visit? n = some v) :
    v.definitionId = .null :=
  congrArg (·.2.1) (h.stage hv)

/-- No node of an intact survey is finished. -/
theorem merged (h : Intact guide s p) (hv : p.visit? n = some v) : v.merged = false :=
  congrArg (·.2.2) (h.stage hv)

/-- A visit of an intact survey holds what its node contributes, from sufficiently many links
    on. -/
theorem contents (h : Intact guide s p) (hv : p.visit? n = some v) :
    ∃ links w, s.contents? guide links n = some w ∧ w.fragment = v.fragment ∧
      w.target = v.target := by
  obtain ⟨links, w, hw, hsame⟩ := h.explored.contents hv
  exact ⟨links, w, hw, congrArg (·.1) hsame, congrArg (·.2.1) hsame⟩

/-- The targets of an intact survey are those of the graph. -/
theorem passes (h : Intact guide s p) (hv : p.visit? n = some v) {m : NodeId}
    (hm : v.target = some m) : s.Passes guide.settings.side n m := by
  obtain ⟨links, w, hw, -, htarget⟩ := h.contents hv
  exact Store.passes_of_contents? hw (htarget.trans hm)

/-- Only the visits of a survey count. -/
theorem of_visits (h : Intact guide s p) (hvisits : p'.visits = p.visits) :
    Intact guide s p' where
  explored :=
    { contents := fun hv => h.explored.contents ((visit?_of_visits hvisits _).symm.trans hv)
      leads := fun hn lead hlead => by
        obtain ⟨m, hm, hhas⟩ := h.explored.leads ((has_of_visits hvisits _).symm.trans hn) lead hlead
        exact ⟨m, hm, (has_of_visits hvisits m).trans hhas⟩ }
  stage hv := h.stage ((visit?_of_visits hvisits _).symm.trans hv)

end Intact

namespace Fresh

/-- A visit of a fresh survey has the shape of contents. -/
theorem shaped (h : Fresh guide s p) (hv : p.visit? n = some v) :
    v.fragment.Shaped (s.Edge guide.settings.side n) := by
  obtain ⟨links, w, hw, hfragment, -⟩ := h.contents hv
  rw [← hfragment]
  exact Store.contents?_shaped (h.suited n (has_of_visit? hv)) hw

/-- In the dialect that ignores keywords beside a reference, visits that pass content on leave
    `allOf` to it. -/
theorem allOf (h : Fresh guide s p) (ht : guide.settings.target = .draft7)
    (hv : p.visit? n = some v) (hsome : v.target.isSome) : v.fragment.get? "allOf" = none := by
  obtain ⟨links, w, hw, hfragment, htarget⟩ := h.contents hv
  have hn := has_of_visit? hv
  rw [← hfragment]
  exact Store.contents?_allOf (h.suited n hn) (h.undemanding ht n hn) hw (htarget ▸ hsome)

/-- No node refers to another place before hoisting. -/
theorem isReference (h : Fresh guide s p) (hv : p.visit? n = some v) :
    v.isReference = false := by
  have hshaped := h.shaped hv
  unfold Visit.isReference Entries.has Visit.refKey
  cases hget : v.fragment.get? "$ref" with
  | none => rfl
  | some x => exact absurd (hshaped.fits hget).1 (by decide)

/-- Whether a survey is fresh depends on its visits alone. -/
theorem of_visits (h : Fresh guide s p) (hvisits : p'.visits = p.visits) :
    Fresh guide s p' where
  toIntact := h.toIntact.of_visits hvisits
  suited n hn := h.suited n ((has_of_visits hvisits n).symm.trans hn)
  undemanding ht n hn := h.undemanding ht n ((has_of_visits hvisits n).symm.trans hn)
  acyclic := h.acyclic

end Fresh

end Survey

namespace Emission

variable {e : Emission} {guide : Guide} {s : Store} {p c d : Conversion}

/-- What the first document has made of a survey. -/
structure Composed (e : Emission) (p c : Conversion) : Prop where
  rewrites : Rewrites p c
  compiled : p.survey.Compiled e.target c.survey
  merged : ∀ {n w}, c.survey.visit? n = some w → w.merged = true
  named : ∀ {n w}, c.survey.visit? n = some w →
    w.definition = none ∧ w.definitionId = .null ∨
      w.definition.isSome ∧ ∃ ref, w.fragment = [(Visit.refKey, .str ref)] ∧
        e.Names p.store p.linkage n w.definitionId ref
  marks : ∀ {n v w}, p.survey.visit? n = some v → c.survey.visit? n = some w →
    w.cycle = v.cycle ∧ w.count = v.count
  hoisted : ∀ {n v w}, p.survey.visit? n = some v → c.survey.visit? n = some w →
    e.isHoisted p.store p.linkage n v → w.definition.isSome

/-- A visit behind the hoisting of a fresh survey: it is as it was, or a definition. -/
theorem Hoists.cases (h : Hoists e p c) {n : NodeId} {w : Visit}
    (hw : c.survey.visit? n = some w) :
    ∃ v, p.survey.visit? n = some v ∧
      (w = v ∨ ∃ ref id, e.Names p.store p.linkage n id ref ∧ w = v.defined ref id) := by
  have hn : p.survey.has n = true := by
    rw [← h.rewrites.has]
    exact Survey.has_of_visit? hw
  obtain ⟨v, hv⟩ := Survey.visit?_of_has hn
  refine ⟨v, hv, ?_⟩
  rcases h.visits hv with hsame | ⟨-, ref, id, hnames, hdefined⟩
  · exact .inl (Option.some.inj (hw.symm.trans hsame))
  · exact .inr ⟨ref, id, hnames, Option.some.inj (hw.symm.trans hdefined)⟩

/-- Hoisting leaves a fresh survey ready to be settled. -/
theorem Hoists.ready (hfresh : p.survey.Fresh guide s) (htarget : e.target = guide.settings.target)
    (h : Hoists e p c) : Ready e.target c := by
  -- Hoisting changes no body: what it moved into a definition was the fragment before.
  have hbefore : ∀ {n w}, c.survey.visit? n = some w → ∃ v, p.survey.visit? n = some v ∧
      w.target = v.target ∧ w.merged = v.merged ∧ w.body = v.fragment := by
    intro n w hw
    obtain ⟨v, hv, rfl | ⟨ref, id, -, rfl⟩⟩ := h.cases hw
    · refine ⟨w, hv, rfl, rfl, ?_⟩
      rw [Visit.body, hfresh.definition hv]
      rfl
    · exact ⟨v, hv, rfl, rfl, rfl⟩
  have hpasses : ∀ {n m}, c.Next n m → s.Passes guide.settings.side n m := by
    rintro n m ⟨w, hw, hm⟩
    obtain ⟨v, hv, htarget, -⟩ := hbefore hw
    exact hfresh.passes hv (htarget ▸ hm)
  refine ⟨fun hw => ?_, fun {n m} hnext => ?_, fun n hloop => ?_, fun h7 {n w} hw hsome => ?_⟩
  · obtain ⟨v, hv, -, hmerged, -⟩ := hbefore hw
    rw [hmerged]
    exact hfresh.merged hv
  · obtain ⟨w, hw, -⟩ := id hnext
    have hn : p.survey.has n = true := by
      rw [← h.rewrites.has]
      exact Survey.has_of_visit? hw
    rw [h.rewrites.has]
    exact hfresh.explored.edge hn (hpasses hnext).edge
  · exact hfresh.acyclic n (Relation.TransGen.mono (fun _ _ => hpasses) n n hloop)
  · obtain ⟨v, hv, hpassed, -, hbody⟩ := hbefore hw
    rw [hbody]
    exact hfresh.allOf (htarget ▸ h7) hv (hpassed ▸ hsome)

/-- What is settled behind hoisting is composed. -/
theorem Hoists.composed (hfresh : p.survey.Fresh guide s) (h : Hoists e p d)
    (hhoisted : ∀ n v v', p.survey.visit? n = some v → d.survey.visit? n = some v' →
      e.isHoisted p.store p.linkage n v → v'.isReference = true)
    (hrewrites : Rewrites d c)
    (hfinal : ∀ n v, d.survey.visit? n = some v →
      ∃ w, c.survey.visit? n = some w ∧ Final e.target c v w) : Composed e p c := by
  -- Settling forgets no visit: each final one has a predecessor behind hoisting.
  have hback : ∀ {n w}, c.survey.visit? n = some w →
      ∃ v, d.survey.visit? n = some v ∧ Final e.target c v w := by
    intro n w hw
    have hn : d.survey.has n = true := by
      rw [← hrewrites.has]
      exact Survey.has_of_visit? hw
    obtain ⟨v, hv⟩ := Survey.visit?_of_has hn
    obtain ⟨w', hw', hv'⟩ := hfinal n v hv
    obtain rfl : w' = w := Option.some.inj (hw'.symm.trans hw)
    exact ⟨v, hv, hv'⟩
  refine ⟨h.rewrites.trans hrewrites, fun {n v} hv => ?_, fun hw => ?_, fun {n w} hw => ?_,
    fun {n v w} hv hw => ?_, fun {n v w} hv hw hhoist => ?_⟩
  -- Every visit is finished, as it was or as a definition.
  · rcases h.visits hv with hsame | ⟨-, ref, id, -, hdefined⟩
    · obtain ⟨w, hw, hv'⟩ := hfinal n v hsame
      have hnone := hfresh.definition hv
      refine ⟨w, hw, ?_, .inl ?_⟩
      · have hown : v.body = v.fragment := by
          rw [Visit.body, hnone]
          rfl
        rw [← hown]
        exact hv'.body
      · have hsome := hv'.hoisted
        rw [hnone] at hsome
        exact Option.isNone_iff_eq_none.mp (Option.isSome_eq_false_iff.mp hsome)
    · obtain ⟨w, hw, hv'⟩ := hfinal n _ hdefined
      refine ⟨w, hw, hv'.body, .inr ⟨hv'.hoisted, ref, ?_⟩⟩
      exact hv'.fragment rfl
  -- Nothing waits any more.
  · obtain ⟨v, -, hv'⟩ := hback hw
    exact hv'.merged
  -- Definitions are those that hoisting has made.
  · obtain ⟨u, hu, hu'⟩ := hback hw
    obtain ⟨v, hv, rfl | ⟨ref, id, hnames, rfl⟩⟩ := h.cases hu
    · have hsome := hu'.hoisted
      rw [hfresh.definition hv] at hsome
      refine .inl ⟨Option.isNone_iff_eq_none.mp (Option.isSome_eq_false_iff.mp hsome), ?_⟩
      rw [hu'.id, hfresh.definitionId hv]
    · refine .inr ⟨hu'.hoisted, ref, hu'.fragment rfl, ?_⟩
      rw [hu'.id]
      exact hnames
  -- Marks and counts are left alone by both.
  · obtain ⟨u, hu, hu'⟩ := hback hw
    rw [hu'.cycle, hu'.count]
    rcases h.visits hv with hsame | ⟨-, ref, id, -, hdefined⟩
    · rw [Option.some.inj (hu.symm.trans hsame)]
      exact ⟨rfl, rfl⟩
    · rw [Option.some.inj (hu.symm.trans hdefined)]
      exact ⟨rfl, rfl⟩
  -- What has to be a definition is a reference behind hoisting, and no fresh fragment is one.
  · obtain ⟨u, hu, hu'⟩ := hback hw
    have href := hhoisted n v u hv hu hhoist
    obtain ⟨v', hv', rfl | ⟨ref, id, -, rfl⟩⟩ := h.cases hu
    · rw [hfresh.isReference hv'] at href
      cases href
    · exact hu'.hoisted

/-- **Composing.** Hoisting and settling compose a document from a fresh survey, if they come to
    an end. -/
theorem hoist_settle_composes (hoverride : e.override = none) (hfresh : p.survey.Fresh guide s)
    (htarget : e.target = guide.settings.target) :
    Meets (do e.hoist; e.settleVisits) p (fun _ c => Composed e p c) (Hoists e p) := by
  refine .bind (hoist_hoists p) fun _ d ⟨hd, hhoisted⟩ => ?_
  refine (settleVisits_settles hoverride (hd.ready hfresh htarget)).mono ?_ fun _ h => h.elim
  exact fun _ c ⟨hrewrites, hfinal⟩ => hd.composed hfresh hhoisted hrewrites hfinal

/-! ### What was composed -/

/-- What was composed is grounded in what the nodes contribute. -/
theorem Composed.grounded (hfresh : p.survey.Fresh guide s) (hc : Composed e p c)
    (htarget : e.target = guide.settings.target) {links : Nat}
    (hcontents : ∀ n v, p.survey.visit? n = some v →
      ∃ w, s.contents? guide links n = some w ∧ w.content = v.content) :
    Grounded guide s links p.survey c.survey where
  contents hv := hcontents _ _ hv
  suited := hfresh.suited
  undemanding := hfresh.undemanding
  edge _ _ hn he := hfresh.explored.edge hn he
  compiled := htarget ▸ hc.compiled

/-- In a survey that was composed the body of a definition stands in the definition. -/
theorem definition_eq_body {survey : Survey} {n : NodeId} {w : Visit}
    (hw : survey.visit? n = some w) (hsome : w.definition.isSome) :
    survey.definition n = survey.body n := by
  obtain ⟨body, hbody⟩ := Option.isSome_iff_exists.mp hsome
  simp [Survey.definition, Survey.body, Visit.body, hw, hbody]

/-- The definitions of a composed survey are bodies, with texts as keys, each once. -/
theorem Composed.definition_formed (hc : Composed e p c) {links bound : Nat}
    (hgrounded : Grounded guide s links p.survey c.survey)
    (hkeywords : ∀ n, p.survey.has n = true → ∃ es, s.keywords? guide links bound n = some es)
    {n : NodeId} {w : Visit} (hw : c.survey.visit? n = some w) (hsome : w.definition.isSome) :
    c.survey.definition n = c.survey.body n ∧ (c.survey.definition n).Texts ∧
      (c.survey.definition n).Distinct := by
  have hn : p.survey.has n = true := by
    rw [← hc.rewrites.has]
    exact Survey.has_of_visit? hw
  obtain ⟨es, hes⟩ := hkeywords n hn
  obtain ⟨htexts, hdistinct, -⟩ := hgrounded.means_body hn hes
  have hbody := definition_eq_body hw hsome
  rw [hbody]
  exact ⟨rfl, htexts, hdistinct⟩

/-- A reference to a definition is the one that names it. -/
theorem Composed.refers (hc : Composed e p c) {n : NodeId} {ref : String}
    (h : c.survey.Refers n ref) :
    ∃ w, c.survey.visit? n = some w ∧ w.definition.isSome ∧
      e.Names p.store p.linkage n w.definitionId ref := by
  obtain ⟨w, hw, hdefined, href⟩ := h
  rcases hc.named hw with ⟨hnone, -⟩ | ⟨-, ref', href', hnames⟩
  · rw [hnone] at hdefined
    cases hdefined
  · have hbare := href.symm.trans href'
    simp only [List.cons.injEq, Prod.mk.injEq, Value.str.injEq, true_and, and_true] at hbare
    rw [hbare]
    exact ⟨w, hw, hdefined, hnames⟩

/-! ### Growth -/

/-- The store has grown, and the same nodes are visited, with the same addresses. -/
structure Adds (c c' : Conversion) : Prop where
  store : Store.Grows c.store c'.store
  catalog : ∀ name, c'.store.catalog name = c.store.catalog name
  order : c'.survey.order = c.survey.order
  linkage : c'.linkage = c.linkage

/-- A conversion that adds twice adds. -/
theorem Adds.trans {c d f : Conversion} (h₁ : Adds c d) (h₂ : Adds d f) : Adds c f where
  store := h₁.store.trans h₂.store
  catalog name := (h₂.catalog name).trans (h₁.catalog name)
  order := h₂.order.trans h₁.order
  linkage := h₂.linkage.trans h₁.linkage

instance : Std.Refl Adds := ⟨fun c => ⟨.refl c.store, fun _ => rfl, rfl, rfl⟩⟩

instance : Trans Adds Adds Adds := ⟨Adds.trans⟩

/-- A change of visits alone adds nothing else. -/
theorem adds_of_rewrites {c c' : Conversion} (h : Rewrites c c') : Adds c c' where
  store := h.grows
  catalog name := by rw [h.store]; rfl
  order := h.order
  linkage := h.linkage

/-- Hoisting and settling visit nothing, and forget nothing. -/
theorem hoist_settle_adds : Within Adds (do e.hoist; e.settleVisits) := by
  refine .bind (fun c => ?_) fun _ c => ?_
  · have hhoists := (hoist_hoists (e := e) c).state_of_and
    exact adds_of_rewrites hhoists.rewrites
  · have hpersists := settleVisits_persists (e := e) c
    exact ⟨hpersists.store, hpersists.catalog, hpersists.order, hpersists.linkage⟩

/-! ### Runs -/

/-- What listing the definitions returns, and what becomes of the common table. -/
theorem listDefinitions_returns {entries : Entries}
    (h : Returns e.listDefinitions c entries d) :
    let listing := listed c.survey.visits ((c.linkage.map (·.table)).getD [])
    listing.2 = none ∧
      d = { c with linkage := c.linkage.map fun l => { l with table := listing.1 } } ∧
      entries = e.assemble c.survey (if c.linkage.isSome then [] else listing.1) := by
  intro listing
  unfold Returns listDefinitions at h
  simp only [run_bind, run_get, run_modify] at h
  cases hstop : listing.2 with
  | some f =>
    rw [show (listed _ _).2 = some f from hstop] at h
    exact absurd h not_returns_fail
  | none =>
    rw [show (listed _ _).2 = none from hstop] at h
    obtain ⟨hentries, hd⟩ := Prod.mk.inj h
    exact ⟨rfl, hd.symm, (Except.ok.inj hentries).symm⟩

/-- The mark of a root leaves all visits alone. -/
theorem claim_returns {p' : Conversion} (h : Returns e.claim p () p') :
    Rewrites p p' ∧ p'.survey.visits = p.survey.visits := by
  obtain ⟨_, _, hget, hclaim⟩ := returns_bind.mp h
  obtain ⟨rfl, rfl⟩ := returns_get.mp hget
  obtain rfl := returns_modify.mp hclaim
  exact ⟨{ order := rfl }, rfl⟩

/-- What composing a document runs through. -/
theorem compose_returns {entries : Entries} (h : Returns e.compose p entries d) :
    ∃ p' c, Returns e.claim p () p' ∧ Returns (do e.hoist; e.settleVisits) p' () c ∧
      Returns e.listDefinitions c entries d := by
  obtain ⟨_, p', hclaim, h⟩ := returns_bind.mp h
  obtain ⟨_, d, hhoist, h⟩ := returns_bind.mp h
  obtain ⟨_, c, hsettle, hlist⟩ := returns_bind.mp h
  exact ⟨p', c, hclaim, returns_bind.mpr ⟨_, d, hhoist, hsettle⟩, hlist⟩

/-- A finished document shows the keywords that it was made of. -/
theorem finalize_returns {v : Value} {doc : Json} (h : Returns (Conversion.finalize v) c doc d) :
    d = c ∧ c.view.Shows v doc := by
  obtain ⟨_, _, hget, h₁⟩ := returns_bind.mp h
  obtain ⟨rfl, rfl⟩ := returns_get.mp hget
  split at h₁
  · rename_i json hjson
    obtain ⟨rfl, rfl⟩ := returns_pure.mp h₁
    exact ⟨rfl, View.shows_settle hjson⟩
  · exact absurd h₁ not_returns_fail

/-- A document that was emitted was composed, and finished. -/
theorem document_returns {doc : Json} (h : Returns e.document p doc d) :
    ∃ entries c, e.refusal? p = none ∧ Returns e.compose p entries c ∧
      c.view.Shows (.dict entries) doc ∧ Rewrites c d ∧ d.survey = c.survey := by
  obtain ⟨_, p', hget, h₁⟩ := returns_bind.mp h
  obtain ⟨rfl, hp⟩ := returns_get.mp hget
  subst hp
  cases hrefusal : e.refusal? p' with
  | some f =>
    rw [hrefusal] at h₁
    exact absurd h₁ not_returns_fail
  | none =>
    rw [hrefusal] at h₁
    -- The stages, read off from what was returned.
    obtain ⟨entries, c, hcompose, h₂⟩ := returns_bind.mp h₁
    obtain ⟨json, c', hfinalize, h₃⟩ := returns_bind.mp h₂
    obtain ⟨rfl, hshows⟩ := finalize_returns hfinalize
    obtain ⟨_, c'', hcompleted, h₄⟩ := returns_bind.mp h₃
    obtain ⟨rfl, rfl⟩ := returns_pure.mp h₄
    obtain ⟨_, _, hget', hlog⟩ := returns_bind.mp hcompleted
    obtain ⟨rfl, rfl⟩ := returns_get.mp hget'
    exact ⟨entries, _, rfl, hcompose, hshows, (log_rewrites _).of_returns hlog,
      congrArg (·.survey) (congrArg (·.2) hlog).symm⟩

end Emission

end SchemaGraph
