import SchemaGraph.Proofs.Document.Cutting
import SchemaGraph.Proofs.Document.Linking

namespace SchemaGraph

open SchemaGraph.Action Conversion Emission

/-!
# Documents kept apart

Each node of a catalog has a document of its own, under its id, which holds the content of the node.
Wherever another document leads to the node, it holds the address of that document: neither is the
content of the node written out there, nor does the node stand among the definitions that documents
have in common.

* `Store.Gathered`          — a body made of what nodes contribute, with references for definitions
* `Emission.gathers_preserved` — settling leaves all bodies made so
* `Emission.Draws`          — a body holds what its node contributes, and what it passes on
* `Converter.Separates`     — documents of a catalog that are kept apart
* `Export.convertAll_separates` — the documents of every catalog are, if their ids are neither empty
  nor that of the common document
-/

/-! ### What bodies are made of -/

/-- A body that was gathered from what nodes contribute: the own keywords of a node; these over the
    reference to the definition of the node that it passes on; or over what was gathered for that
    one, if it is no definition. -/
inductive Store.Gathered (s : Store) (guide : Guide) (ref? : NodeId → Option String) :
    NodeId → Entries → Prop
  | own {links : Nat} {n : NodeId} {v : Visit} (hv : s.contents? guide links n = some v) :
    Gathered s guide ref? n v.fragment
  | reference {links : Nat} {n t : NodeId} {v : Visit} {ref : String} {body : Entries}
      (hv : s.contents? guide links n = some v) (ht : v.target = some t)
      (href : ref? t = some ref)
      (htakes : Takes guide.settings.target v.fragment t [(Visit.refKey, .str ref)] body) :
    Gathered s guide ref? n body
  | content {links : Nat} {n t : NodeId} {v : Visit} {below body : Entries}
      (hv : s.contents? guide links n = some v) (ht : v.target = some t) (href : ref? t = none)
      (hbelow : Gathered s guide ref? t below)
      (htakes : Takes guide.settings.target v.fragment t below body) :
    Gathered s guide ref? n body

namespace Emission

variable {e : Emission} {guide : Guide} {s : Store} {ref? : NodeId → Option String}
  {p c d : Conversion}

/-- A visit whose body was gathered: as a definition it is a bare reference, and before it is
    settled its body is its own. -/
structure Gathering (guide : Guide) (s : Store) (ref? : NodeId → Option String) (n : NodeId)
    (v : Visit) : Prop where
  bare : ∀ ref, ref? n = some ref →
    v.definition.isSome = true ∧ v.fragment = [(Visit.refKey, .str ref)]
  inline : ref? n = none → v.definition = none
  fresh : v.merged = false → ∃ links u, s.contents? guide links n = some u ∧
    v.body = u.fragment ∧ v.target = u.target
  gathered : s.Gathered guide ref? n v.body

/-- All bodies were gathered, and the nodes that are passed on were visited. -/
def Gathers (guide : Guide) (s : Store) (ref? : NodeId → Option String) (c : Conversion) : Prop :=
  (∀ n m, s.Passes guide.settings.side n m → c.survey.has n = true → c.survey.has m = true) ∧
    ∀ n v, c.survey.visit? n = some v → Gathering guide s ref? n v

/-- Behind what was gathered before, a body that takes over content was gathered as well. -/
theorem Gathers.takes (h : Gathers guide s ref? d) {links : Nat} {n t : NodeId} {v : Visit}
    {body : Entries} (hn : d.survey.has n = true) (hv : s.contents? guide links n = some v)
    (ht : v.target = some t)
    (htakes : Takes guide.settings.target v.fragment t (d.survey.fragment t) body) :
    s.Gathered guide ref? n body := by
  have hvisited := h.1 n t (Store.passes_of_contents? hv ht) hn
  obtain ⟨u, hu⟩ := Survey.visit?_of_has hvisited
  have hfragment : d.survey.fragment t = u.fragment := by simp [Survey.fragment, hu]
  rw [hfragment] at htakes
  have hgathering := h.2 t u hu
  cases href : ref? t with
  | some ref =>
    rw [(hgathering.bare ref href).2] at htakes
    exact .reference hv ht href htakes
  | none =>
    have hbody := hgathering.gathered
    rw [Visit.body, hgathering.inline href] at hbody
    exact .content hv ht href hbody htakes

/-- **Gathering.** Settling gathers all bodies. -/
theorem gathers_preserved : Preserved guide.settings.target (Gathers guide s ref?) where
  events _ hsame hc := by
    unfold Gathers at hc ⊢
    rw [hsame]
    exact hc
  append _ _ _ _ hc := hc
  mark {c} n hc := by
    refine ⟨fun a b hpass ha => ?_, forall_visit?_modify hc.2 fun v hv => ?_⟩
    · exact (has_modify _ n b _).trans (hc.1 a b hpass ((has_modify _ n a _).symm.trans ha))
    · have hgathering := hc.2 n v hv
      exact ⟨hgathering.bare, hgathering.inline, nofun, hgathering.gathered⟩
  -- The visit was gathering before its target was settled, so that it takes over what its target
  -- shows now.
  body {c d n v t body} hc hv hwaits ht hd hself htakes := by
    refine ⟨fun a b hpass ha => ?_, forall_visit?_modify hd.2 fun u hu => ?_⟩
    · exact (has_modify _ n b _).trans (hd.1 a b hpass ((has_modify _ n a _).symm.trans ha))
    · obtain ⟨links, w, hw, hbody, htarget⟩ := (hc.2 n v hv).fresh hwaits
      rw [hbody] at htakes
      have hgathered := hd.takes (Survey.has_of_visit? hu) hw (htarget.symm.trans ht) htakes
      have hmerged : u.merged = true := by
        rw [Option.some.inj (hu.symm.trans hself)]
      have hgathering := hd.2 n u hu
      refine ⟨fun ref href => ?_, fun href => ?_, fun hfalse => ?_, ?_⟩
      · obtain ⟨hsome, hbare⟩ := hgathering.bare ref href
        exact ⟨(u.isSome_definition_withBody body).trans hsome,
          (Visit.fragment_withBody hsome).trans hbare⟩
      · rw [← Option.isNone_iff_eq_none, ← Option.not_isSome, u.isSome_definition_withBody,
          hgathering.inline href]
        rfl
      · rw [u.merged_withBody, hmerged] at hfalse
        cases hfalse
      · rw [Visit.body_withBody]
        exact hgathered

/-- Definitions keep their references. -/
theorem reference?_of_persists (h : Persists c d) (n : NodeId) :
    d.survey.reference? n = c.survey.reference? n := by
  unfold Survey.reference?
  cases hv : c.survey.visit? n with
  | none =>
    cases hw : d.survey.visit? n with
    | none => rfl
    | some w =>
      obtain ⟨v, hv', -⟩ := h.back hw
      rw [hv] at hv'
      cases hv'
  | some v =>
    obtain ⟨w, hw, hvw⟩ := h.visits hv
    rw [hw, Option.bind_some, Option.bind_some]
    cases hdefinition : v.definition with
    | none =>
      have hnone : w.definition = none := by
        rw [← Option.isNone_iff_eq_none, ← Option.not_isSome, hvw.hoisted, hdefinition]
        rfl
      rw [hnone]
    | some body =>
      have hsome : v.definition.isSome = true := by rw [hdefinition]; rfl
      -- Both have a definition; the fragments agree there, and only they tell the reference.
      obtain ⟨body', hbody'⟩ := Option.isSome_iff_exists.mp (hvw.hoisted.trans hsome)
      rw [hbody', hvw.fragment hsome]
      rcases v.fragment.get? Visit.refKey with _ | _ | _ <;> rfl

section Settled

variable (hp : p.survey.Intact guide s)
include hp

/-- Behind hoisting, all bodies are the own ones of their nodes. -/
theorem gathers_of_hoists (h : Hoists e p d) : Gathers guide s d.survey.reference? d := by
  refine ⟨fun a b hpass ha => ?_, fun n w hw => ?_⟩
  · rw [h.rewrites.has] at ha ⊢
    exact hp.explored.edge ha hpass.edge
  · obtain ⟨v, hv, hcase⟩ := h.cases hw
    obtain ⟨links, u, hu, hfragment, htarget⟩ := hp.contents hv
    have hown : s.Gathered guide d.survey.reference? n v.fragment := hfragment ▸ .own hu
    -- Either the node was left in place, or its fragment has become the definition.
    rcases hcase with rfl | ⟨ref, id, -, rfl⟩
    · -- what was not hoisted is no definition
      have hnone := hp.definition hv
      have hbody : w.body = w.fragment := by
        rw [Visit.body, hnone]
        rfl
      have href : d.survey.reference? n = none := reference?_eq_none fun x hx => by
        rw [Option.some.inj (hx.symm.trans hw)]
        exact hnone
      refine ⟨fun ref hsome => ?_, fun _ => hnone, fun _ => ⟨links, u, hu, ?_, htarget.symm⟩, ?_⟩
      · rw [href] at hsome
        cases hsome
      · rw [hbody, hfragment]
      · rw [hbody]
        exact hown
    · have href : d.survey.reference? n = some ref := reference?_of_bare hw rfl rfl
      refine ⟨fun ref' hsome => ?_, fun hnone => ?_, fun _ => ⟨links, u, hu, ?_, htarget.symm⟩, hown⟩
      · obtain rfl := Option.some.inj (href.symm.trans hsome)
        exact ⟨rfl, rfl⟩
      · rw [href] at hnone
        cases hnone
      · exact hfragment.symm

/-- Behind hoisting and settling, all bodies were gathered from what nodes contribute. -/
theorem gathers_of_hoist_settle (hoverride : e.override = none)
    (htarget : e.target = guide.settings.target)
    (h : Returns (do e.hoist; e.settleVisits) p () c) :
    Gathers guide s c.survey.reference? c := by
  obtain ⟨_, d, hhoist, hsettle⟩ := returns_bind.mp h
  have hsame : c.survey.reference? = d.survey.reference? :=
    funext (reference?_of_persists (settleVisits_persists.of_returns hsettle))
  rw [hsame]
  have hpreserved : Preserved e.target (Gathers guide s d.survey.reference?) :=
    htarget ▸ gathers_preserved
  exact hpreserved.settleVisits hoverride hsettle
    (gathers_of_hoists hp ((hoist_hoists p).of_returns hhoist).1)

end Settled

/-- A body that holds what its node contributes: the own keywords of the node, over a fragment of
    the node that it passes on; this is the final one, if it is a definition or content is not passed
    on in a circle. -/
def Draws (guide : Guide) (s : Store) (survey : Survey) (n : NodeId) : Prop :=
  ∃ links v, s.contents? guide links n = some v ∧
    match v.target with
    | none => survey.body n = v.fragment
    | some t => ∃ below, Takes guide.settings.target v.fragment t below (survey.body n) ∧
        (survey.defines t = true ∨ ¬ Relation.TransGen (s.Passes guide.settings.side) n n →
          below = survey.fragment t)

/-- Behind hoisting and settling, every body holds what its node contributes. -/
theorem draws_of_hoist_settle (hp : p.survey.Intact guide s) (hoverride : e.override = none)
    (htarget : e.target = guide.settings.target)
    (h : Returns (do e.hoist; e.settleVisits) p () c) {n : NodeId} (hn : p.survey.has n = true) :
    Draws guide s c.survey n := by
  obtain ⟨v, hv⟩ := Survey.visit?_of_has hn
  obtain ⟨links, w, hw, hfragment, hpassed⟩ := hp.contents hv
  refine ⟨links, w, hw, ?_⟩
  rw [hpassed, hfragment, ← htarget]
  exact body_takes hp hoverride h hv

end Emission

namespace Converter

variable {conv : Converter} {policy : EmissionSettings} {catalog : String} {t : UriTemplate}
  {store : Store} {roots : List (Value × NodeId)} {p c d : Conversion}
  {table : List (Value × NodeId)} {own docs : List (Value × Json)}

/-! ### Documents of a catalog -/

/-- Documents of a catalog that are kept apart: every root has one, which shows the body of the root,
    and what has an id stands as its address in all bodies, and nowhere among the definitions that
    the documents have in common. -/
structure Separates (guide : Guide) (catalog : String) (t : UriTemplate)
    (roots : List (Value × NodeId)) (c : Conversion) (docs : List (Value × Json)) : Prop where
  unique : docs.Pairwise fun a b => a.1 ≠ b.1
  document : ∀ r ∈ roots, ∃ doc, (r.1, doc) ∈ docs ∧ c.view.Shows
    (.dict ((c.survey.body r.2).set "$schema" (.str guide.settings.target.schemaUri))) doc
  others : ∀ doc ∈ docs, (∃ r ∈ roots, doc.1 = r.1) ∨
    doc.1 = .str sharedDocument ∧ ∃ table common,
      doc.2 = .obj [(guide.settings.target.definitionsKeyword, common)] ∧
      c.view.Shows (.dict (tableEntries c.survey table)) common ∧
      ∀ q ∈ table, c.survey.has q.2 = true ∧ c.survey.definition q.2 = c.survey.body q.2 ∧
        (annotatedId c.store catalog q.2).isTruthy = false
  addressed : ∀ n, c.survey.has n = true → (annotatedId c.store catalog n).isTruthy = true →
    ∃ id, annotatedId c.store catalog n = .str id ∧ c.survey.reference? n = some (t.render id)
  fragment : ∀ n, c.survey.has n = true →
    c.survey.fragment n = match c.survey.reference? n with
      | some ref => [(Visit.refKey, .str ref)]
      | none => c.survey.body n
  body : ∀ n, c.survey.has n = true →
    Draws guide c.store c.survey n ∧
      c.store.Gathered guide c.survey.reference? n (c.survey.body n)

namespace Spans

variable (h : conv.Spans policy catalog (.template t) store roots p c d table own)
include h

/-- The id of the document of a node is the one that its annotation carries. -/
theorem documentId_eq (n : NodeId) :
    documentId c.store c.linkage n = Emission.annotatedId d.store catalog n := by
  rw [h.adds.linkage.trans h.linkage, documentId, Emission.annotatedId, h.stays.store]
  rfl

/-- The same nodes are visited after settling as before. -/
theorem has_eq (n : NodeId) : c.survey.has n = p.survey.has n := by
  rw [Bool.eq_iff_iff, Survey.has_iff, Survey.has_iff, h.adds.order]

/-- The references are the same in the end. -/
theorem reference?_eq (n : NodeId) : d.survey.reference? n = c.survey.reference? n := by
  rw [Survey.reference?, h.stays.visit?, Survey.reference?]

/-- The bodies are the same in the end. -/
theorem body_eq (n : NodeId) : d.survey.body n = c.survey.body n := by
  rw [Survey.body, h.stays.visit?, Survey.body]

/-- The definitions are the same in the end. -/
theorem defines_eq (n : NodeId) : d.survey.defines n = c.survey.defines n := by
  rw [Survey.defines, h.stays.visit?, Survey.defines]

variable (hs : store.Closed)
include hs

/-- A definition that the documents have in common is a node without an id. -/
theorem common_unaddressed {q : Value × NodeId} (hq : q ∈ table) :
    d.survey.has q.2 = true ∧ d.survey.definition q.2 = d.survey.body q.2 ∧
      (Emission.annotatedId d.store catalog q.2).isTruthy = false := by
  obtain ⟨v, hmem, hsome, htruthy⟩ := h.traced q hq
  obtain ⟨root, -, hrun⟩ := h.settled
  have hnodup : c.survey.order.Nodup := by
    rw [h.adds.order]
    exact h.nodup
  have hv := visit?_of_mem hnodup hmem
  have hlisted := (hoist_settle_numbers (h.intact hs).definitionId hrun).listed hv htruthy
  unfold isListed at hlisted
  rw [h.documentId_eq, h.adds.linkage.trans h.linkage] at hlisted
  refine ⟨?_, ?_, by simpa using hlisted⟩
  · rw [h.has, ← h.has_eq]
    exact Survey.has_of_visit? hv
  · rw [h.body_eq, h.stays.definition]
    exact definition_eq_body hv hsome

/-- What has an id is a definition under the address of its document, if it does not refer to
    another place itself. -/
theorem addressed {n : NodeId} (hn : d.survey.has n = true)
    (htruthy : (Emission.annotatedId d.store catalog n).isTruthy = true)
    (hspare : (d.store.supplied conv.guide.catalog n).get? "$ref" = none) :
    ∃ id, Emission.annotatedId d.store catalog n = .str id ∧
      d.survey.defines n = true ∧ d.survey.reference? n = some (t.render id) := by
  have hp := h.intact hs
  obtain ⟨root, -, hrun⟩ := h.settled
  rw [h.has] at hn
  obtain ⟨v, hv⟩ := Survey.visit?_of_has hn
  -- No rule writes a reference, and none is supplied.
  have hplain : v.isReference = false := by
    obtain ⟨links, w, hw, hfragment, -⟩ := hp.contents hv
    have hnone := Store.get?_contents?_outside hw (by decide : "$ref" ∈ outsideKeywords)
    rw [hfragment, hspare] at hnone
    unfold Visit.isReference Entries.has Visit.refKey
    rw [hnone]
    rfl
  obtain ⟨w, hw, -, -, hdefined⟩ := definition_iff hrun hv (hp.definition hv) hplain
  have hdocument : documentId p.store p.linkage n = Emission.annotatedId d.store catalog n := by
    rw [h.linkage, h.annotatedId]
    rfl
  have hsome : w.definition.isSome = true := by
    rw [hdefined, isHoisted, hasOwnAddress, hdocument, htruthy]
    simp
  -- The definition is named by the id of the document, which is a text or could not be rendered.
  rcases named_of_hoist_settle hp hrun n w hw with ⟨hnone, -⟩ | ⟨-, ref, hbare, hnames⟩
  · rw [hnone] at hsome
    cases hsome
  · unfold Names at hnames
    rw [h.documentId_eq, h.adds.linkage.trans h.linkage] at hnames
    dsimp only at hnames
    rw [if_pos htruthy] at hnames
    cases hid : Emission.annotatedId d.store catalog n with
    | str id =>
      rw [hid] at hnames
      obtain rfl : t.render id = ref := Except.ok.inj hnames
      refine ⟨id, rfl, ?_, ?_⟩
      · rw [h.defines_eq, Survey.defines, hw]
        exact hsome
      · rw [h.reference?_eq]
        exact reference?_of_bare hw hsome hbare
    | _ =>
      rw [hid] at hnames
      cases hnames

section Bodies

variable (hoverride : conv.override = none)
include hoverride

/-- In the end every body draws on what its node contributes. -/
theorem draws {n : NodeId} (hn : d.survey.has n = true) :
    Draws conv.guide d.store d.survey n := by
  obtain ⟨root, -, hrun⟩ := h.settled
  obtain ⟨links, v, hv, hdraws⟩ :=
    draws_of_hoist_settle (h.intact hs) hoverride rfl hrun ((h.has n).symm.trans hn)
  refine ⟨links, v, hv, ?_⟩
  rw [h.body_eq]
  cases ht : v.target with
  | none =>
    rw [ht] at hdraws
    exact hdraws
  | some t =>
    rw [ht] at hdraws
    dsimp only at hdraws ⊢
    rw [h.defines_eq, h.stays.fragment]
    exact hdraws

/-- In the end every body is gathered from what nodes contribute. -/
theorem gathered {n : NodeId} (hn : d.survey.has n = true) :
    d.store.Gathered conv.guide d.survey.reference? n (d.survey.body n) := by
  obtain ⟨root, -, hrun⟩ := h.settled
  have hgathers := gathers_of_hoist_settle (h.intact hs) hoverride
    (rfl : (conv.emission policy root.2).target = conv.guide.settings.target) hrun
  rw [h.has, ← h.has_eq] at hn
  obtain ⟨v, hv⟩ := Survey.visit?_of_has hn
  rw [show d.survey.reference? = c.survey.reference? from funext h.reference?_eq, h.body_eq,
    Survey.body, hv]
  exact (hgathers.2 n v hv).gathered

end Bodies

/-- The fragment of a node is the reference to its definition, or its body. -/
theorem fragment_eq {n : NodeId} (hn : d.survey.has n = true) :
    d.survey.fragment n = match d.survey.reference? n with
      | some ref => [(Visit.refKey, .str ref)]
      | none => d.survey.body n := by
  obtain ⟨root, -, hrun⟩ := h.settled
  rw [h.has, ← h.has_eq] at hn
  rw [h.stays.fragment, h.reference?_eq, h.body_eq]
  rcases fragment_cases (named_of_hoist_settle (h.intact hs) hrun) hn
    with ⟨ref, href, -, hbare⟩ | ⟨hnone, -, hsame⟩
  · rw [href, hbare]
  · rw [hnone, hsame]

omit hs in
/-- Where no root has the id of the common document, that one stands behind those of the roots. -/
theorem joined (hjoins : Joins conv.guide.settings.target d table own docs)
    (hne : ∀ r ∈ roots, r.1 ≠ .str sharedDocument) :
    (∀ doc ∈ own, (∃ r ∈ roots, doc.1 = r.1) ∧ doc.1 ≠ .str sharedDocument) ∧
      (docs = own ∨ ∃ common, d.view.Shows (.dict (tableEntries d.survey table)) common ∧
        docs = own ++ [(.str sharedDocument,
          .obj [(conv.guide.settings.target.definitionsKeyword, common)])]) := by
  have hown : ∀ doc ∈ own, (∃ r ∈ roots, doc.1 = r.1) ∧ doc.1 ≠ .str sharedDocument := by
    intro doc hdoc
    obtain ⟨r, hr, hsame, -⟩ := h.emits.exists_of_document hdoc
    exact ⟨⟨r, hr, hsame⟩, hsame ▸ hne r hr⟩
  refine ⟨hown, hjoins.imp And.right fun ⟨common, hshows, hdocs⟩ => ⟨common, hshows, ?_⟩⟩
  rw [hdocs, putDocument_of_new fun doc hdoc => (hown doc hdoc).2]

/-- The documents of a catalog are kept apart, if none of their ids is that of the common
    document. -/
theorem separates (hoverride : conv.override = none) (hcatalog : conv.guide.catalog = catalog)
    (hjoins : Joins conv.guide.settings.target d table own docs)
    (hunique : Catalog.Unique roots)
    (hids : ∀ r ∈ roots, Emission.annotatedId d.store catalog r.2 = r.1 ∧ r.1.isTruthy = true ∧
      r.1 ≠ .str sharedDocument)
    (hspare : ∀ n, d.survey.has n = true →
      (Emission.annotatedId d.store catalog n).isTruthy = true →
      (d.store.supplied catalog n).get? "$ref" = none) :
    Separates conv.guide catalog t roots d docs := by
  obtain ⟨hown, hcases⟩ := h.joined hjoins fun r hr => (hids r hr).2.2
  have haddressed := fun {n} hn htruthy => h.addressed (n := n) hs hn htruthy
    (hcatalog ▸ hspare n hn htruthy)
  refine ⟨?_, fun r hr => ?_, fun doc hdoc => ?_, fun n hn htruthy => ?_, fun n => h.fragment_eq hs,
    fun n hn => ⟨h.draws hs hoverride hn, h.gathered hs hoverride hn⟩⟩
  -- The documents of the roots have the ids of the catalog, and the common one has a name of its
  -- own.
  · have hpairwise : own.Pairwise fun a b => a.1 ≠ b.1 := by
      refine List.pairwise_map.mp ?_
      rw [h.emits.ids]
      exact List.pairwise_map.mpr hunique
    rcases hcases with rfl | ⟨common, -, rfl⟩
    · exact hpairwise
    · refine List.pairwise_append.mpr ⟨hpairwise, List.pairwise_singleton _ _, ?_⟩
      intro doc hdoc last hlast
      rw [List.mem_singleton.mp hlast]
      exact (hown doc hdoc).2
  -- Each root has a document, which shows the definition that the root is.
  · obtain ⟨hid, htruthy, -⟩ := hids r hr
    obtain ⟨id, -, hdefines, -⟩ :=
      haddressed ((h.has r.2).trans (h.visited hr)) (hid ▸ htruthy)
    obtain ⟨v, hv, hsome⟩ := Survey.visit?_of_defines hdefines
    obtain ⟨doc, hdoc, hshows⟩ := h.emits.exists_of_root hr
    refine ⟨doc, ?_, ?_⟩
    · rcases hcases with rfl | ⟨common, -, rfl⟩
      · exact hdoc
      · exact List.mem_append_left _ hdoc
    · rw [← h.stays.view, ← h.stays.assemble] at hshows
      rw [← definition_eq_body hv hsome]
      exact hshows
  -- A document is that of a root, or the common one.
  · rcases hcases with rfl | ⟨common, hshows, rfl⟩
    · exact .inl (hown doc hdoc).1
    · rcases List.mem_append.mp hdoc with hdoc | hlast
      · exact .inl (hown doc hdoc).1
      · rw [List.mem_singleton.mp hlast]
        exact .inr ⟨rfl, table, common, rfl, hshows, fun q hq => h.common_unaddressed hs hq⟩
  · obtain ⟨id, hid, -, href⟩ := haddressed hn htruthy
    exact ⟨id, hid, href⟩

end Spans

end Converter

/-- **Documents are kept apart.** Whenever a catalog is converted without an override, with its own
    annotations and the template for addresses, the document of every id shows the body of its node,
    beside the dialect; no body holds anything but what nodes contribute, with the address of its
    document for every node that has an id; and the only further document holds definitions of nodes
    without ids.

    Ids must be texts, not empty and not that of the common document; and what is supplied for nodes
    with ids must not refer to other places. -/
theorem Export.convertAll_separates (x : Export) (hoverride : x.override = none)
    (hannotations : x.annotations = none) (haddressing : x.addressing = none)
    {settings : ExportSettings} (hsettings : x.settings = .ok settings) {store : Store}
    (hs : store.Closed) {catalog : String} (hsound : (store.catalog catalog).Sound)
    (hids : ∀ r ∈ (store.catalog catalog).ids, (store.node? r.2).isSome = true ∧
      ∃ id, r.1 = .str id ∧ id ≠ "" ∧ id ≠ sharedDocument)
    {docs : List (Value × Json)} {c : Conversion}
    (h : Returns (x.convertAll catalog) (start store) docs c)
    (hspare : ∀ n, c.survey.has n = true → (annotatedId c.store catalog n).isTruthy = true →
      (c.store.supplied catalog n).get? "$ref" = none) :
    ((store.catalog catalog).ids = [] ∧ docs = []) ∨
      Converter.Separates { settings := settings.lowering, catalog } catalog settings.uriTemplate
        (store.catalog catalog).ids c docs := by
  have h₁ := h
  rw [Export.convertAll_eq hsettings, hannotations, haddressing] at h₁
  -- An id that is a text other than the empty one is what the document is listed under.
  have hgiven : ∀ r ∈ (store.catalog catalog).ids, (store.node? r.2).isSome = true ∧
      annotatedId store catalog r.2 = r.1 ∧ r.1.isTruthy = true ∧ r.1 ≠ .str sharedDocument := by
    intro r hr
    obtain ⟨hn, id, hid, hne, hshared⟩ := hids r hr
    refine ⟨hn, Converter.annotatedId_of_mem hsound hr, ?_, ?_⟩
    · rw [hid]
      simpa [Value.isTruthy] using hne
    · rw [hid]
      exact fun hsame => hshared (Value.str.inj hsame)
  refine (Converter.documents_spans hs hoverride h₁ fun r hr => ?_).imp_right fun hruns => ?_
  · obtain ⟨hn, hid, htruthy, -⟩ := hgiven r hr
    exact ⟨hn, hid ▸ htruthy⟩
  · obtain ⟨p, c', table, own, hspans, hjoins⟩ := hruns
    refine hspans.separates hs hoverride rfl hjoins hsound.unique (fun r hr => ?_) hspare
    obtain ⟨hn, hid, htruthy, hshared⟩ := hgiven r hr
    refine ⟨?_, htruthy, hshared⟩
    rw [hspans.annotatedId, hspans.annotatedId_of_isSome hs catalog hn, hid]

/-- The documents of the catalog of the labelled record are kept apart. -/
theorem Export.convertAll_separates_labelledRecord :
    ∃ docs c, Returns (referring.convertAll "global") (start labelledRecord) docs c ∧
      Converter.Separates {} "global" ({} : ExportSettings).uriTemplate
        [(.str "text", .node 0), (.str "record", .node 2)] c docs := by
  have hclosed : labelledRecord.Closed := .of_forall (by decide) nofun nofun
  obtain ⟨docs, h⟩ : ∃ docs, Returns (referring.convertAll "global") (start labelledRecord) docs
      labelledConverted.2.2 := exists_returns (by decide +kernel)
  have hvisited : labelledConverted.2.2.survey.order = [.node 0, .node 2, .node 1] := by
    decide +kernel
  have hsupplied : ∀ n ∈ [NodeId.node 0, .node 2, .node 1],
      (labelledConverted.2.2.store.supplied "global" n).get? "$ref" = none := by decide +kernel
  generalize labelledConverted.2.2 = c at h hvisited hsupplied
  have hids : ∀ r ∈ (labelledRecord.catalog "global").ids,
      (labelledRecord.node? r.2).isSome = true ∧
        ∃ id, r.1 = .str id ∧ id ≠ "" ∧ id ≠ sharedDocument := by
    have hboth : ∀ r ∈ [(Value.str "text", NodeId.node 0), (.str "record", .node 2)],
        (labelledRecord.node? r.2).isSome = true ∧
          ∃ id, r.1 = .str id ∧ id ≠ "" ∧ id ≠ sharedDocument :=
      List.forall_mem_cons.mpr ⟨⟨rfl, "text", rfl, by decide, by decide⟩,
        List.forall_mem_singleton.mpr ⟨rfl, "record", rfl, by decide, by decide⟩⟩
    exact hboth
  refine ⟨docs, c, h, ?_⟩
  rcases Export.convertAll_separates referring rfl rfl rfl rfl hclosed labelledRecord_sound hids h
    (fun n hn _ => hsupplied n (hvisited ▸ (Survey.has_iff _ _).mp hn)) with ⟨hnone, -⟩ | hseparates
  · cases hnone
  · exact hseparates

/-- A list of texts, and the texts under an empty id. -/
def unnamedText : Store where
  nodes := [{ kind := .string }, { kind := .array, element := .node 0 }]
  catalogs := [("global",
    { entries := [(.node 1, [(.str "id", .str "list")]), (.node 0, [(.str "id", .str "")])]
      ids := [(.str "list", .node 1), (.str "", .node 0)] })]

/-- The labelled record, under the id of the common document. -/
def sharedRecord : Store :=
  { labelledRecord with
    catalogs := [("global",
      { entries := [(.node 0, [(.str "id", .str "text")]),
          (.node 2, [(.str "id", .str "__shared")])]
        ids := [(.str "text", .node 0), (.str "__shared", .node 2)] })] }

/-- A node with an empty id is written out where another document leads to it, and stands among
    the definitions that the documents have in common; and the document of what they have in common
    takes the place of that of a node with its id. -/
theorem Export.convertAll_mixes :
    let schema := ("$schema", Json.str "https://json-schema.org/draft/2020-12/schema")
    let text := Json.obj [("type", .str "string"), ("id", .str "")]
    (({} : Export).convertAll "global" (start unnamedText)).1.toOption = some
        [(.str "list",
            .obj [("type", .str "array"), ("items", text), ("id", .str "list"), schema]),
          (.str "", .obj [("type", .str "string"), ("id", .str ""), schema]),
          (.str "__shared", .obj [("$defs", .obj [("schema0", text)])])] ∧
      (referring.convertAll "global" (start sharedRecord)).1.toOption = some
        [(.str "text", .obj [("type", .str "string"), ("id", .str "text"), schema]),
          (.str "__shared", .obj [("$defs", .obj [("schema0", .obj [("type", .str "number")])])])] := by
  decide +kernel

end SchemaGraph
