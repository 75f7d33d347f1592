import SchemaGraph.Proofs.Document.Sequence
import SchemaGraph.Proofs.Document.Standing
import SchemaGraph.Proofs.Survey.Outside

namespace SchemaGraph

open SchemaGraph.Action Conversion Emission

/-!
# Definitions and their ids

If the ids that are supplied for nodes can be told apart, from each other and from the ids that
are made, then so can the ids of all definitions: every one stands in the table under an id of
its own, and what became of its fragment names that id.  If they cannot, one definition may take
the place of another.

* `Store.ownId`            — the id that is supplied for a node
* `Conversion.Identifies`  — every id stands for one definition
* `Export.ids_identify`    — ids identify, in single documents and across documents
* `Export.ids_collide`     — an id that looks made takes the place of one that was made
-/

/-- The id that is supplied for a node; `null` if there is none. -/
def Store.ownId (s : Store) (catalog : String) (n : NodeId) : Value :=
  ((s.supplied catalog n).get? "id").getD .null

/-- No id is supplied where no node has a custom lowering and none is annotated. -/
theorem Store.ownId_eq_null {s : Store} {catalog : String} {n : NodeId}
    (hnodes : ∀ node ∈ s.nodes, node.lowering = .null)
    (hnotes : (s.catalog catalog).entries = []) : s.ownId catalog n = .null := by
  have hnote : (s.catalog catalog).get? n = none := by
    rw [Catalog.get?, hnotes]
    rfl
  have hlowered : ((s.node? n).map Node.lowered).getD [] = [] := by
    cases hn : s.node? n with
    | none => rfl
    | some node =>
      have hnull : node.lowering = .null := by
        cases n with
        | gap => cases hn
        | node i => exact hnodes node (List.mem_of_getElem? hn)
      simp [Node.lowered, hnull, Value.call]
  rw [ownId, supplied, hlowered, hnote]
  rfl

namespace Conversion

/-- Every id stands for one definition: no two nodes have the same one, the table holds the body
    of the node under it, and the fragment of a definition is the reference that names it. -/
structure Identifies (e : Emission) (c : Conversion) (table : List (Value × NodeId)) : Prop where
  distinct : ∀ {n m v w}, c.survey.visit? n = some v → c.survey.visit? m = some w →
    v.definitionId.isTruthy = true → w.definitionId = v.definitionId → m = n
  entry : ∀ {n v}, c.survey.visit? n = some v → v.definitionId.isTruthy = true →
    ∃ id, v.definitionId = .str id ∧
      (tableEntries c.survey table).get? (.str id) = some (.dict (c.survey.definition n))
  names : ∀ {n v}, c.survey.visit? n = some v → v.definition.isSome →
    ∃ ref, v.fragment = [(Visit.refKey, .str ref)] ∧
      e.Names c.store c.linkage n v.definitionId ref

/-- Every visit is a definition, under the reference that names it, or has no id. -/
def Named (e : Emission) (c : Conversion) : Prop :=
  ∀ n v, c.survey.visit? n = some v →
    v.definition = none ∧ v.definitionId = .null ∨
      v.definition.isSome ∧ ∃ ref, v.fragment = [(Visit.refKey, .str ref)] ∧
        e.Names c.store c.linkage n v.definitionId ref

variable {e : Emission} {guide : Guide} {s : Store} {p c d : Conversion}
  {table : List (Value × NodeId)}

/-- A visit with an id that is not empty is a definition. -/
theorem Named.isSome (h : Named e c) {n : NodeId} {v : Visit} (hv : c.survey.visit? n = some v)
    (htruthy : v.definitionId.isTruthy = true) : v.definition.isSome = true := by
  rcases h n v hv with ⟨-, hnull⟩ | ⟨hsome, -⟩
  · rw [hnull] at htruthy
    cases htruthy
  · exact hsome

/-- Where names are given and ids can be told apart, a table of all definitions identifies
    them. -/
theorem Named.identifies (hnamed : Named e c) (htold : c.survey.Told)
    (htabled : Tabled c.survey table) : Identifies e c table where
  distinct hv hw htruthy hsame :=
    htold.distinct _ (Survey.mem_visits hv) _ (Survey.mem_visits hw) htruthy hsame
  entry {n v} hv htruthy := by
    obtain ⟨id, hid⟩ := htold.text _ (Survey.mem_visits hv) htruthy
    exact ⟨id, hid, htabled.entry hv (hnamed.isSome hv htruthy) hid (hid ▸ htruthy)⟩
  names {n v} hv hsome := by
    rcases hnamed n v hv with ⟨hnone, -⟩ | ⟨-, hname⟩
    · rw [hnone] at hsome
      cases hsome
    · exact hname

/-- Names do not depend on events, nor on what the common table lists. -/
theorem names_congr {c d : Conversion} (e : Emission) (hcatalog : ∀ name,
      d.store.catalog name = c.store.catalog name)
    (hlinkage : d.linkage.map (fun l => (l.catalog, l.addressing))
      = c.linkage.map (fun l => (l.catalog, l.addressing))) (n : NodeId) (id : Value)
    (ref : String) :
    e.Names d.store d.linkage n id ref ↔ e.Names c.store c.linkage n id ref := by
  unfold Names documentId annotatedId
  cases hc : c.linkage with
  | none =>
    rw [hc] at hlinkage
    rw [Option.map_eq_none_iff.mp hlinkage]
  | some l =>
    rw [hc] at hlinkage
    obtain ⟨k, hk, hsame⟩ := Option.map_eq_some_iff.mp hlinkage
    obtain ⟨hname, haddressing⟩ := Prod.mk.inj hsame
    rw [hk]
    simp only [hname, haddressing, hcatalog]

/-- Whether a table identifies definitions depends on visits, catalogs and addresses alone. -/
theorem Identifies.congr (h : Identifies e c table) (hvisits : d.survey.visits = c.survey.visits)
    (hcatalog : ∀ name, d.store.catalog name = c.store.catalog name)
    (hlinkage : d.linkage.map (fun l => (l.catalog, l.addressing))
      = c.linkage.map (fun l => (l.catalog, l.addressing))) : Identifies e d table := by
  have hvisit := Survey.visit?_of_visits hvisits
  refine ⟨fun hv hw => ?_, fun {n v} hv htruthy => ?_, fun {n v} hv hsome => ?_⟩
  · exact h.distinct ((hvisit _).symm.trans hv) ((hvisit _).symm.trans hw)
  · rw [tableEntries_of_visits hvisits, Survey.definition, hvisit]
    exact h.entry ((hvisit _).symm.trans hv) htruthy
  · obtain ⟨ref, hfragment, hnames⟩ := h.names ((hvisit _).symm.trans hv) hsome
    exact ⟨ref, hfragment, (names_congr e hcatalog hlinkage n _ ref).mpr hnames⟩

/-- Across documents it does not matter for whose document a definition is named. -/
theorem Identifies.of_target {e' : Emission} {l : Linkage} (h : Identifies e c table)
    (hl : c.linkage = some l) (htarget : e'.target = e.target) : Identifies e' c table := by
  refine ⟨h.distinct, h.entry, fun {n v} hv hsome => ?_⟩
  obtain ⟨ref, hfragment, hnames⟩ := h.names hv hsome
  refine ⟨ref, hfragment, ?_⟩
  unfold Names at hnames ⊢
  rw [hl] at hnames ⊢
  rw [htarget]
  exact hnames

/-- Hoisting and settling name every definition, whatever the override is like. -/
theorem named_of_hoist_settle (hp : p.survey.Intact guide s)
    (h : Returns (do e.hoist; e.settleVisits) p () c) : Named e c := by
  obtain ⟨_, d, hhoist, hsettle⟩ := returns_bind.mp h
  have hhoists := ((hoist_hoists p).of_returns hhoist).1
  have hpersists := settleVisits_persists.of_returns hsettle
  intro n w hw
  obtain ⟨u, hu, huw⟩ := hpersists.back hw
  obtain ⟨v, hv, rfl | ⟨ref, id, hnames, rfl⟩⟩ := hhoists.cases hu
  · left
    rw [← Option.isNone_iff_eq_none, ← Option.not_isSome, huw.hoisted, huw.id,
      hp.definition hv, hp.definitionId hv]
    exact ⟨rfl, rfl⟩
  · right
    refine ⟨huw.hoisted, ref, huw.fragment rfl, ?_⟩
    have hnames' := (names_eq hhoists.rewrites n id ref).mpr hnames
    rw [huw.id]
    refine (names_congr e hpersists.catalog ?_ n id ref).mpr hnames'
    rw [hpersists.linkage]

/-! ### Ids from outside -/

/-- What an intact survey holds as the id of a node was supplied. -/
theorem broughtId_eq (hp : p.survey.Intact guide s) {n : NodeId} (hn : p.survey.has n = true) :
    broughtId p n = s.ownId guide.catalog n := by
  obtain ⟨v, hv⟩ := Survey.visit?_of_has hn
  obtain ⟨links, w, hw, hfragment, -⟩ := hp.contents hv
  have hsupplied := Store.get?_contents?_outside hw (by decide : "id" ∈ outsideKeywords)
  rw [hfragment] at hsupplied
  unfold broughtId fragmentId Store.ownId
  rw [hv, ← hsupplied]
  rfl

/-- Behind hoisting and settling, the ids that definitions have brought along were supplied. -/
theorem broughtId_of_identified (hp : p.survey.Intact guide s)
    (h : Returns (do e.hoist; e.settleVisits) p () c) {n : NodeId} (hn : c.Identified n) :
    broughtId p n = s.ownId guide.catalog n := by
  obtain ⟨v, hv, -⟩ := hn
  refine broughtId_eq hp ((Survey.has_iff _ _).mpr ?_)
  rw [← (hoist_settle_adds.of_returns h).order]
  exact (Survey.has_iff _ _).mp (Survey.has_of_visit? hv)

/-- **Ids.** If the supplied ids can be told apart, those of all definitions can, whatever the
    override is like. -/
theorem told_of_hoist_settle (hp : p.survey.Intact guide s) (hnodup : p.survey.order.Nodup)
    (hapart : Apart (stem c.linkage) (s.ownId guide.catalog) c.Identified)
    (h : Returns (do e.hoist; e.settleVisits) p () c) : c.survey.Told := by
  have horder := (hoist_settle_adds.of_returns h).order
  have hown := fun {n} => broughtId_of_identified (n := n) hp h
  refine (hoist_settle_numbers hp.definitionId h).told (horder ▸ hnodup) ⟨fun n hn => ?_,
    fun n m hn hm => ?_⟩
  · rw [hown hn]
    exact hapart.text n hn
  · rw [hown hn, hown hm]
    exact hapart.one n m hn hm

/-- If the supplied ids can stand in pointers besides, those of all definitions can. -/
theorem addressable_of_hoist_settle (hp : p.survey.Intact guide s) (hnodup : p.survey.order.Nodup)
    (hapart : Apart (stem c.linkage) (s.ownId guide.catalog) c.Identified)
    (hplain : ∀ n id, c.Identified n → s.ownId guide.catalog n = .str id →
      '/' ∉ id.toList ∧ '~' ∉ id.toList)
    (h : Returns (do e.hoist; e.settleVisits) p () c) : c.survey.Addressable := by
  have horder := (hoist_settle_adds.of_returns h).order
  refine (hoist_settle_numbers hp.definitionId h).addressable (horder ▸ hnodup)
    (told_of_hoist_settle hp hnodup hapart h) fun n id hn hid => ?_
  exact hplain n id hn ((broughtId_of_identified hp h hn).symm.trans hid)

end Conversion

/-! ### Conversions -/

namespace Converter

variable {conv : Converter} {policy : EmissionSettings} {root : NodeId} {store : Store}
  {p d c : Conversion} {doc : Json} {docs : List (Value × Json)}

/-- What supplied ids are asked for in a document that stands alone. -/
theorem Stands.apart (hs : store.Closed) (h : conv.Stands policy root store p d c doc)
    {own : NodeId → Value} (hapart : Apart "__schema" own c.Identified) :
    Apart (stem d.linkage) own d.Identified := by
  have hstem : stem d.linkage = "__schema" := by
    rw [← h.behind.linkage, h.adds.linkage, h.alone hs]
    rfl
  have hidentified : d.Identified = c.Identified := by
    unfold Identified
    rw [h.survey]
  rwa [hstem, hidentified]

/-- A document that stands alone identifies its definitions. -/
theorem Stands.identifies (hs : store.Closed) (h : conv.Stands policy root store p d c doc)
    (hapart : Apart "__schema" (c.store.ownId conv.guide.catalog) c.Identified) :
    ∃ table, Identifies (conv.emission policy root) c table ∧
      c.view.Shows (.dict ((conv.emission policy root).assemble c.survey table)) doc := by
  have hintact := h.intact hs
  have htold := told_of_hoist_settle hintact (h.nodup hs) (h.apart hs hapart) h.settled
  have htabled := tabled_listed htold h.stop nofun .nil nofun
  have hidentifies := (named_of_hoist_settle hintact h.settled).identifies htold htabled
  refine ⟨_, hidentifies.congr (by rw [h.survey]) (fun name => ?_) (by rw [h.behind.linkage]), ?_⟩
  · rw [h.behind.store]
    rfl
  · rw [h.survey, ← h.view]
    exact h.shows

/-- Documents of a catalog identify what they have in common. -/
theorem documents_identifies {catalog : String} {addressing : Addressing}
    (hs : store.Closed) (hoverride : conv.override = none)
    (h : Returns (conv.documents policy catalog addressing) (start store) docs d)
    (hrooted : ∀ r ∈ (store.catalog catalog).ids,
      (store.node? r.2).isSome ∧ (annotatedId store catalog r.2).isTruthy = true)
    (hapart : Apart "schema" (d.store.ownId conv.guide.catalog) d.Identified) :
    ∃ table own, (∀ r ∈ (store.catalog catalog).ids,
        Identifies (conv.emission policy r.2) d table) ∧
      Emits conv policy d (store.catalog catalog).ids own ∧
      (tableEntries d.survey table = [] ∧ docs = own ∨
        ∃ common, d.view.Shows (.dict (tableEntries d.survey table)) common ∧
          docs = putDocument (.str sharedDocument)
            (.obj [(conv.guide.settings.target.definitionsKeyword, common)]) own) := by
  rcases documents_spans hs hoverride h hrooted with ⟨hnone, rfl⟩ | ⟨p, c, table, own, hspans, hjoins⟩
  · rw [hnone]
    exact ⟨[], [], nofun, .nil, .inl ⟨rfl, rfl⟩⟩
  · obtain ⟨root, -, hrun⟩ := hspans.settled
    have hintact := hspans.intact hs
    have hstays := hspans.stays
    have hc : c.linkage = some { catalog, addressing } := hspans.adds.linkage.trans hspans.linkage
    -- Settling has left the ids of definitions, so that the condition is that of the end.
    have htold : c.survey.Told := by
      refine told_of_hoist_settle hintact hspans.nodup ?_ hrun
      have hidentified : c.Identified = d.Identified := by
        unfold Identified
        simp only [hstays.visit?]
      rw [hc, hidentified]
      exact hapart
    have hidentifies := (named_of_hoist_settle hintact hrun).identifies htold (hspans.tabled htold)
    refine ⟨table, own, fun r _ => ?_, (emits_iff_of_stays hstays).mpr hspans.emits, hjoins⟩
    have htarget : (conv.emission policy r.2).target = (conv.emission policy root.2).target := rfl
    refine (hidentifies.of_target hc htarget).congr hstays.visits (fun name => ?_) ?_
    · rw [hstays.store]
      rfl
    · rw [hspans.common, hc]
      rfl

end Converter

/-- **Ids of definitions.** Ids identify definitions, in every document that stands alone and in
    all documents of a catalog, if the ids that are supplied for definitions are texts that can be
    told apart from each other and from the ids that are made.

    Nothing but the latter is taken for granted of the graph; documents of a catalog are those of
    its nodes, and no override changes them. -/
theorem Export.ids_identify (x : Export) {settings : ExportSettings}
    (hsettings : x.settings = .ok settings) {store : Store} (hs : store.Closed) :
    (∀ root doc c, Returns (x.convert root) (start store) doc c →
      Apart "__schema" (c.store.ownId (x.annotations.getD "global")) c.Identified →
      let e := (x.converter settings (x.annotations.getD "global")).emission settings.emission root
      ∃ table, Identifies e c table ∧ c.view.Shows (.dict (e.assemble c.survey table)) doc) ∧
    (x.override = none → ∀ catalog docs c, Returns (x.convertAll catalog) (start store) docs c →
      (∀ r ∈ (store.catalog catalog).ids,
        (store.node? r.2).isSome ∧ (annotatedId store catalog r.2).isTruthy = true) →
      Apart "schema" (c.store.ownId (x.annotations.getD catalog)) c.Identified →
      let conv := x.converter settings (x.annotations.getD catalog)
      ∃ table own, (∀ r ∈ (store.catalog catalog).ids,
          Identifies (conv.emission settings.emission r.2) c table) ∧
        Converter.Emits conv settings.emission c (store.catalog catalog).ids own ∧
        (tableEntries c.survey table = [] ∧ docs = own ∨
          ∃ common, c.view.Shows (.dict (tableEntries c.survey table)) common ∧
            docs = Converter.putDocument (.str sharedDocument)
              (.obj [(settings.lowering.target.definitionsKeyword, common)]) own)) := by
  refine ⟨fun root doc c h hapart => ?_, fun hoverride catalog docs c h hrooted hapart => ?_⟩
  · obtain ⟨p, d, hstands⟩ := x.convert_stands hsettings hs h
    exact hstands.identifies hs hapart
  · rw [Export.convertAll_eq hsettings] at h
    exact Converter.documents_identifies hs hoverride h hrooted hapart

/-- A record of numbers and a text; the text has an id, and so has the record. -/
def labelledRecord : Store where
  nodes := [{ kind := .string }, { kind := .number },
    { kind := .object, shape := some [("p", .node 1), ("q", .node 1), ("r", .node 0)] }]
  catalogs := [("global",
    { entries := [(.node 0, [(.str "id", .str "text")]), (.node 2, [(.str "id", .str "record")])]
      ids := [(.str "text", .node 0), (.str "record", .node 2)] })]

/-- An export that makes definitions of all nodes that are reached several times. -/
def referring : Export where
  base := some { emission := { reused := .refer } }

/-- The conversion of the labelled record, and of its catalog. -/
def labelledConverted : (Except Failure Json × Conversion) ×
    (Except Failure (List (Value × Json)) × Conversion) :=
  (referring.convert (.node 2) (start labelledRecord),
    referring.convertAll "global" (start labelledRecord))

/-- In a conversion of the labelled record, the text is the only definition with an id of its
    own. -/
theorem labelledRecord_single {c : Conversion}
    (hids : ∀ p ∈ c.survey.visits.map fun p => (p.1, p.2.definitionId.isTruthy),
      p.2 = true → p.1 = .node 0 ∨ p.1 = .node 1)
    (hnumber : c.store.ownId "global" (.node 1) = .null) :
    ∀ n, c.Identified n → (c.store.ownId "global" n).isTruthy = true → n = .node 0 := by
  rintro n ⟨v, hv, htruthy⟩ hown
  have hmem := List.mem_map_of_mem
    (f := fun p : NodeId × Visit => (p.1, p.2.definitionId.isTruthy)) (Survey.mem_visits hv)
  rcases hids _ hmem htruthy with rfl | rfl
  · rfl
  · rw [hnumber] at hown
    cases hown

/-- An id that begins with another letter was not made. -/
theorem text_ne_made {stem : String} (hstem : stem.toList.head? ≠ some 't')
    (hne : stem ≠ "") (k : Nat) : "text" ≠ stem ++ toString k := by
  intro h
  have hhead := congrArg (fun s => s.toList.head?) h
  rw [String.toList_append, List.head?_append_of_ne_nil _ (by simpa using hne)] at hhead
  exact hstem hhead.symm

/-- The ids in the documents of the labelled record identify. -/
theorem Export.ids_identify_labelledRecord :
    (∃ e doc c table, Returns (referring.convert (.node 2)) (start labelledRecord) doc c ∧
      Identifies e c table ∧ c.view.Shows (.dict (e.assemble c.survey table)) doc) ∧
    ∃ e docs c table, Returns (referring.convertAll "global") (start labelledRecord) docs c ∧
      Identifies e c table := by
  have hclosed : labelledRecord.Closed := .of_forall (by decide) nofun nofun
  obtain ⟨hsingle, hall⟩ := Export.ids_identify referring rfl hclosed
  constructor
  · obtain ⟨doc, h⟩ : ∃ doc, Returns (referring.convert (.node 2)) (start labelledRecord) doc
        labelledConverted.1.2 := exists_returns (by decide +kernel)
    obtain ⟨table, hidentifies, hshows⟩ := hsingle _ _ _ h
      (apart_of_single (labelledRecord_single (by decide +kernel) (by decide +kernel))
        (by decide +kernel) (text_ne_made (by decide) (by decide)))
    exact ⟨_, doc, _, table, h, hidentifies, hshows⟩
  · obtain ⟨docs, h⟩ : ∃ docs, Returns (referring.convertAll "global") (start labelledRecord) docs
        labelledConverted.2.2 := exists_returns (by decide +kernel)
    obtain ⟨table, -, hidentifies, -⟩ := hall rfl "global" docs _ h (by decide)
      (apart_of_single (labelledRecord_single (by decide +kernel) (by decide +kernel))
        (by decide +kernel) (text_ne_made (by decide) (by decide)))
    exact ⟨_, docs, _, table, h, hidentifies _ (List.mem_cons_self ..)⟩

/-- The labelled record, with an id that looks like one that was made. -/
def mislabelledRecord : Store :=
  { labelledRecord with
    catalogs := [("global",
      { entries := [(.node 0, [(.str "id", .str "__schema0")])]
        ids := [(.str "__schema0", .node 0)] })] }

/-- The conversion of the mislabelled record. -/
def mislabelledConverted : Except Failure Json × Conversion :=
  referring.convert (.node 2) (start mislabelledRecord)

/-- Nothing compares the ids that are made with those that are supplied: the numbers and the text
    of the mislabelled record get the same id, the references to both are the same, and the table
    holds the body of the text alone. -/
theorem Export.ids_collide :
    let survey := mislabelledConverted.2.survey
    mislabelledConverted.1.isOk = true ∧
    (survey.visit? (.node 0)).map (·.definitionId) = some (.str "__schema0") ∧
    (survey.visit? (.node 1)).map (·.definitionId) = some (.str "__schema0") ∧
    survey.fragment (.node 1) = [(.str "$ref", .str "#/$defs/__schema0")] ∧
    survey.definition (.node 1) = [(.str "type", .str "number")] ∧
    tableEntries survey (listed survey.visits []).1 = [(.str "__schema0",
      .dict [(.str "type", .str "string"), (.str "id", .str "__schema0")])] := by
  decide +kernel

end SchemaGraph
