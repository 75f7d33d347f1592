import SchemaGraph.Proofs.Document.Identity
import SchemaGraph.Proofs.Document.References
import SchemaGraph.Proofs.Store.Catalogs

namespace SchemaGraph

open SchemaGraph.Action Conversion Emission

/-!
# Documents that refer to each other

The documents of a catalog refer to each other by address, and to the definitions that they have
in common.  Every reference leads to a document or to such a definition, never to both, and with
references followed across all of them, the document of an id unfolds to the tree of its node.
This is so as long as all nodes with ids have them before the conversion begins: a lazy node may
register another one while it is visited, and then there is no document behind the reference.

* `Json.CitedAmong`          — an address stands in one of several documents
* `Converter.Interlinks`     — what the documents of a catalog are like
* `Interlinks.linked`        — their references lead to what they stand for
* `Export.convertAll_linked` — references are addresses, and documents are faithful
* `Export.convertAll_strays` — the reference to a node that was registered on the way leads nowhere
-/

namespace Json

/-- The definition with an id that several documents have in common. -/
def common? (target : Target) (id : String) (docs : List (Value × Json)) : Option Json :=
  ((named? sharedDocument docs).bind (·.member? target.definitionsKeyword)).bind (·.member? id)

/-- An address stands in one of several documents, or in a definition that they have in common,
    where a schema refers to it. -/
def CitedAmong (target : Target) (docs : List (Value × Json)) (address : String) : Prop :=
  (∃ d ∈ docs, d.2.Cites address .schemas) ∨
    ∃ id body, common? target id docs = some body ∧ body.Cites address .schemas

/-- Data refers to no address. -/
theorem not_cites_data {address : String} {j : Json} : ¬ Cites address .data j := nofun

/-- The dialect of a document holds no address. -/
theorem Cites.described {address uri : String} {ms : List (String × Json)}
    (h : Cites address .schemas (.obj ms)) (hdialect : lookup? "$schema" ms = some (.str uri)) :
    Cites address .schemas (.obj (described (.obj ms))) := by
  cases h with
  | here href => exact .here ((lookup?_described (by decide) ms).trans href)
  | @keyword _ name j hj hcites =>
    by_cases hname : name = "$schema"
    · subst hname
      rw [hdialect] at hj
      cases hj
      exact absurd hcites not_cites_str
    · exact .keyword ((lookup?_described hname ms).trans hj) hcites

/-- A document that holds nothing but a table of definitions refers to nothing itself. -/
theorem not_cites_table {address : String} {target : Target} {common : Json} :
    ¬ Cites address .schemas (.obj [(target.definitionsKeyword, common)]) := by
  have hrole : Role.of target.definitionsKeyword = .data := by cases target <;> decide
  intro h
  cases h with
  | here href =>
    have hne : target.definitionsKeyword ≠ "$ref" := by cases target <;> decide
    rw [lookup?, if_neg hne] at href
    cases href
  | @keyword _ name j hj hcites =>
    have hmem := mem_of_lookup? hj
    obtain ⟨rfl, -⟩ := Prod.mk.inj (List.mem_singleton.mp hmem)
    rw [hrole] at hcites
    exact not_cites_data hcites

end Json

/-- The ids that a catalog gives to visited nodes: texts, each once, that are given to the nodes
    that have documents, and can be told from addresses inside documents. -/
structure Emission.Addressed (store : Store) (catalog : String) (visited : NodeId → Prop)
    (roots : List (Value × NodeId)) : Prop where
  texts : ∀ r ∈ roots, ∃ id, r.1 = .str id ∧ id ≠ "" ∧ '#' ∉ id.toList ∧ id ≠ sharedDocument
  unique : Catalog.Unique roots
  given : ∀ r ∈ roots, annotatedId store catalog r.2 = r.1
  held : ∀ n, visited n → (annotatedId store catalog n).isTruthy = true →
    (annotatedId store catalog n, n) ∈ roots

namespace Converter

variable {conv : Converter} {policy : EmissionSettings} {catalog : String} {t : UriTemplate}
  {store : Store} {roots : List (Value × NodeId)} {p c d : Conversion}
  {table : List (Value × NodeId)} {own docs : List (Value × Json)}

/-! ### Lists of documents -/

/-- A document with a new id is put behind all others. -/
theorem putDocument_of_new {id : String} {doc : Json} (h : ∀ d ∈ docs, d.1 ≠ .str id) :
    putDocument (.str id) doc docs = docs ++ [(.str id, doc)] := by
  induction docs with
  | nil => rfl
  | cons d rest ih =>
    obtain ⟨i, other⟩ := d
    obtain ⟨hfirst, hrest⟩ := List.forall_mem_cons.mp h
    unfold putDocument
    rw [if_neg (mt Catalog.canonical_eq_text.mp hfirst), ih hrest]
    rfl

/-- The ids of emitted documents are those of the roots. -/
theorem Emits.ids (h : Emits conv policy c roots own) : own.map (·.1) = roots.map (·.1) := by
  induction h with
  | nil => rfl
  | cons hdoc _ ih => rw [List.map_cons, List.map_cons, hdoc.1, ih]

/-- Each root of a catalog has a document, which shows its body. -/
theorem Emits.exists_of_root (h : Emits conv policy c roots own) {r : Value × NodeId}
    (hr : r ∈ roots) : ∃ doc, (r.1, doc) ∈ own ∧
      c.view.Shows (.dict ((conv.emission policy r.2).assemble c.survey [])) doc := by
  induction h with
  | nil => cases hr
  | @cons root doc _ _ hdoc _ ih =>
    rcases List.mem_cons.mp hr with rfl | hr
    · refine ⟨doc.2, ?_, hdoc.2⟩
      rw [← hdoc.1]
      exact List.mem_cons_self ..
    · obtain ⟨found, hmem, hshows⟩ := ih hr
      exact ⟨found, List.mem_cons_of_mem _ hmem, hshows⟩

/-- Each document of a catalog is that of a root, and shows its body. -/
theorem Emits.exists_of_document (h : Emits conv policy c roots own) {doc : Value × Json}
    (hdoc : doc ∈ own) : ∃ r ∈ roots, doc.1 = r.1 ∧
      c.view.Shows (.dict ((conv.emission policy r.2).assemble c.survey [])) doc.2 := by
  induction h with
  | nil => cases hdoc
  | @cons root first _ _ hfirst _ ih =>
    rcases List.mem_cons.mp hdoc with rfl | hdoc
    · exact ⟨root, List.mem_cons_self .., hfirst⟩
    · obtain ⟨r, hr, hfound⟩ := ih hdoc
      exact ⟨r, List.mem_cons_of_mem _ hr, hfound⟩

/-- What the documents of a catalog are like: their conversion has composed a survey with the first
    of them, in which all nodes have keywords, definitions have ids that can stand in pointers, and
    visited nodes with ids have documents. -/
structure Interlinks (conv : Converter) (policy : EmissionSettings) (catalog : String)
    (t : UriTemplate) (store : Store) (roots : List (Value × NodeId)) (root : NodeId)
    (p c d : Conversion) (table : List (Value × NodeId)) (own docs : List (Value × Json))
    (links bound : Nat) : Prop extends
    Spans conv policy catalog (.template t) store roots p c d table own where
  joins : Joins conv.guide.settings.target d table own docs
  composed : Composed (conv.emission policy root) p c
  addressable : c.survey.Addressable
  addressed : Addressed d.store catalog (fun n => p.survey.has n = true) roots
  grounded : Grounded conv.guide d.store links p.survey c.survey
  keywords : ∀ n, p.survey.has n = true →
    ∃ es, d.store.keywords? conv.guide links bound n = some es

namespace Interlinks

variable {root : NodeId} {links bound : Nat}
  (h : conv.Interlinks policy catalog t store roots root p c d table own docs links bound)
include h

/-- The documents of a catalog stand under texts that are neither empty nor the name of the common
    document, and have no `#` in them. -/
theorem own_ids {doc : Value × Json} (hdoc : doc ∈ own) :
    ∃ id, doc.1 = .str id ∧ id ≠ "" ∧ '#' ∉ id.toList ∧ id ≠ sharedDocument := by
  obtain ⟨r, hr, hsame, -⟩ := h.emits.exists_of_document hdoc
  rw [hsame]
  exact h.addressed.texts r hr

/-- No root has its document under the name of the common one. -/
theorem own_ne_shared {doc : Value × Json} (hdoc : doc ∈ own) : doc.1 ≠ .str sharedDocument := by
  obtain ⟨id, hid, -, -, hne⟩ := h.own_ids hdoc
  rw [hid]
  exact fun hsame => hne (Value.str.inj hsame)

/-- The documents of a catalog are those of its ids and the one of what they have in common, which
    is there if there is anything in common. -/
theorem docs_cases :
    tableEntries c.survey table = [] ∧ docs = own ∨
      ∃ common, c.view.Shows (.dict (tableEntries c.survey table)) common ∧
        docs = own ++ [(.str sharedDocument,
          .obj [(conv.guide.settings.target.definitionsKeyword, common)])] := by
  have hentries := tableEntries_of_visits h.stays.visits table
  rw [← h.stays.view, ← hentries]
  refine h.joins.imp_right fun ⟨common, hshows, hdocs⟩ => ⟨common, hshows, ?_⟩
  rw [hdocs, putDocument_of_new fun _ hdoc => h.own_ne_shared hdoc]

/-- The documents of the roots are among all documents. -/
theorem own_subset {doc : Value × Json} (hdoc : doc ∈ own) : doc ∈ docs := by
  rcases h.docs_cases with ⟨-, rfl⟩ | ⟨common, -, rfl⟩
  · exact hdoc
  · exact List.mem_append_left _ hdoc

/-- No id of a document has the sign by which addresses inside documents are told. -/
theorem docs_ids {doc : Value × Json} (hdoc : doc ∈ docs) {id : String} (hid : doc.1 = .str id) :
    '#' ∉ id.toList := by
  have hown : doc ∈ own → '#' ∉ id.toList := by
    intro hdoc
    obtain ⟨other, hother, -, hsign, -⟩ := h.own_ids hdoc
    obtain rfl := Value.str.inj (hid.symm.trans hother)
    exact hsign
  rcases h.docs_cases with ⟨-, rfl⟩ | ⟨common, -, rfl⟩
  · exact hown hdoc
  · rcases List.mem_append.mp hdoc with hdoc | hdoc
    · exact hown hdoc
    · rw [List.mem_singleton.mp hdoc] at hid
      obtain rfl := Value.str.inj hid
      decide

/-- No two documents stand under the same id. -/
theorem docs_unique : docs.Pairwise fun a b => a.1 ≠ b.1 := by
  have hroots : (roots.map (·.1)).Pairwise (· ≠ ·) := List.pairwise_map.mpr h.addressed.unique
  rw [← h.emits.ids] at hroots
  have hown : own.Pairwise fun a b => a.1 ≠ b.1 := List.pairwise_map.mp hroots
  rcases h.docs_cases with ⟨-, rfl⟩ | ⟨common, -, rfl⟩
  · exact hown
  · refine List.pairwise_append.mpr ⟨hown, List.pairwise_singleton _ _, ?_⟩
    intro doc hdoc last hlast
    rw [List.mem_singleton.mp hlast]
    exact h.own_ne_shared hdoc

/-- The document of what documents have in common, if there is one. -/
theorem common_cases {shared : Json} (hshared : Json.named? sharedDocument docs = some shared) :
    ∃ common, c.view.Shows (.dict (tableEntries c.survey table)) common ∧
      shared = .obj [(conv.guide.settings.target.definitionsKeyword, common)] := by
  have hunique := h.docs_unique
  rcases h.docs_cases with ⟨-, hdocs⟩ | ⟨common, hshows, hdocs⟩
  · rw [hdocs, Json.named?_eq_none fun _ hdoc => h.own_ne_shared hdoc] at hshared
    cases hshared
  · have hmem : (Value.str sharedDocument,
        Json.obj [(conv.guide.settings.target.definitionsKeyword, common)]) ∈ docs := by
      rw [hdocs]
      exact List.mem_append_right _ (List.mem_singleton.mpr rfl)
    rw [Json.named?_of_mem hunique hmem] at hshared
    exact ⟨common, hshows, (Option.some.inj hshared).symm⟩

/-! ### References -/

/-- The id of a document is what the catalog says in the end. -/
theorem documentId_eq (n : NodeId) :
    documentId p.store p.linkage n = Emission.annotatedId d.store catalog n := by
  rw [h.annotatedId, h.linkage]
  rfl

/-- The reference to a definition is the address of the document of its node, or that of a
    definition in the document of what documents have in common. -/
theorem refers_cases {n : NodeId} {ref : String} (hn : p.survey.has n = true)
    (href : c.survey.Refers n ref) :
    (∃ id, (.str id, n) ∈ roots ∧ ref = t.render id) ∨
      ∃ v, c.survey.visit? n = some v ∧ v.definition.isSome ∧ v.definitionId.isTruthy = true ∧
        ref = definitionAddress conv.guide.settings.target (t.render sharedDocument)
          v.definitionId := by
  obtain ⟨v, hv, hdefined, hnames⟩ := h.composed.refers href
  have hdocument := h.documentId_eq n
  unfold Names at hnames
  rw [h.linkage] at hnames hdocument
  dsimp only at hnames
  rw [hdocument] at hnames
  split at hnames
  · rename_i htruthy
    have hroot := h.addressed.held n hn htruthy
    obtain ⟨id, hid, -⟩ := h.addressed.texts _ hroot
    dsimp only at hid
    rw [hid] at hroot hnames
    exact .inl ⟨id, hroot, (Except.ok.inj hnames).symm⟩
  · exact .inr ⟨v, hv, hdefined, hnames⟩

/-- A node that has a document is a definition. -/
theorem definition_of_root {r : Value × NodeId} (hr : r ∈ roots) :
    ∃ v, c.survey.visit? r.2 = some v ∧ v.definition.isSome := by
  have hn := h.visited hr
  obtain ⟨v, hv⟩ := Survey.visit?_of_has hn
  obtain ⟨w, hw⟩ := Survey.visit?_of_has ((h.composed.rewrites.has r.2).trans hn)
  refine ⟨w, hw, h.composed.hoisted hv hw ?_⟩
  obtain ⟨id, hid, hne, -⟩ := h.addressed.texts r hr
  have htruthy : (documentId p.store p.linkage r.2).isTruthy = true := by
    rw [h.documentId_eq, h.addressed.given r hr, hid]
    simpa [Value.isTruthy] using hne
  simp [isHoisted, hasOwnAddress, htruthy]

/-- What shows the definition of a root in a document of its own shows its body, behind the
    dialect. -/
theorem matches_root {r : Value × NodeId} (hr : r ∈ roots) {doc : Json}
    (hdoc : c.view.Shows (.dict ((conv.emission policy r.2).assemble c.survey [])) doc) :
    c.view.Matches (c.survey.body r.2) doc.described := by
  obtain ⟨v, hv, hsome⟩ := h.definition_of_root hr
  obtain ⟨hbody, htexts, hdistinct⟩ := h.composed.definition_formed h.grounded h.keywords hv hsome
  obtain ⟨es, hes⟩ := h.keywords r.2 (h.visited hr)
  rw [← hbody]
  refine matches_described htexts hdistinct ?_ hdoc
  show (c.survey.definition r.2).get? "$schema" = none
  rw [hbody]
  exact h.grounded.body_dialect (h.visited hr) hes

/-- The document of a root holds the addresses that its body holds. -/
theorem cites_root {r : Value × NodeId} (hr : r ∈ roots) {doc : Json}
    (hdoc : c.view.Shows (.dict ((conv.emission policy r.2).assemble c.survey [])) doc)
    {address : String} (hcites : doc.Cites address .schemas) :
    (Json.obj doc.described).Cites address .schemas := by
  obtain ⟨v, hv, hsome⟩ := h.definition_of_root hr
  obtain ⟨-, htexts, hdistinct⟩ := h.composed.definition_formed h.grounded h.keywords hv hsome
  obtain ⟨ds, rfl, hds⟩ := matches_assemble (e := conv.emission policy r.2) htexts hdistinct hdoc
  have hschema : ((conv.emission policy r.2).assemble c.survey []).get? (.str "$schema")
      = some (.str conv.guide.settings.target.schemaUri) := by
    rw [get?_assemble, if_pos rfl]
    rfl
  obtain ⟨j, hj, hshows⟩ := hds.lookup? hschema
  obtain rfl := View.shows_str hshows
  exact hcites.described hj

/-- Every root has a document, which shows its body. -/
theorem document_of_root {id : String} {n : NodeId} (hr : (.str id, n) ∈ roots) :
    ∃ doc, (.str id, doc) ∈ docs ∧ c.view.Matches (c.survey.body n) doc.described := by
  obtain ⟨doc, hdoc, hshows⟩ := h.emits.exists_of_root hr
  exact ⟨doc, h.own_subset hdoc, h.matches_root hr hshows⟩

/-- A definition without a document of its own stands in the document of what documents have in
    common, and its address leads to it. -/
theorem common_of_definition {n : NodeId} {v : Visit} (hv : c.survey.visit? n = some v)
    (hsome : v.definition.isSome) (htruthy : v.definitionId.isTruthy = true) :
    ∃ id ds body, v.definitionId = .str id ∧
      Json.common? conv.guide.settings.target id docs = some (.obj ds) ∧
      Json.across? t docs (definitionAddress conv.guide.settings.target
        (t.render sharedDocument) v.definitionId) = some body ∧
      c.view.Matches (c.survey.body n) body := by
  obtain ⟨id, hid, hslash, htilde⟩ := h.addressable.text _ (Survey.mem_visits hv) htruthy
  obtain ⟨hbody, htexts, hdistinct⟩ := h.composed.definition_formed h.grounded h.keywords hv hsome
  have htabled := h.tabled h.addressable.told
  have hget := htabled.entry hv hsome hid (hid ▸ htruthy)
  -- Something is listed, hence there is a document with what documents have in common.
  rcases h.docs_cases with ⟨hnone, -⟩ | ⟨common, hshows, hdocs⟩
  · rw [hnone] at hget
    cases hget
  -- It stands behind all documents of nodes, under a name that none of these has.
  · have hnamed : Json.named? sharedDocument docs
        = some (.obj [(conv.guide.settings.target.definitionsKeyword, common)]) := by
      refine Json.named?_of_mem h.docs_unique ?_
      rw [hdocs]
      exact List.mem_append_right _ (List.mem_singleton.mpr rfl)
    have hmember : Json.lookup? conv.guide.settings.target.definitionsKeyword
        [(conv.guide.settings.target.definitionsKeyword, common)] = some common := if_pos rfl
    obtain ⟨body, hobject, hmatches⟩ := htabled.object? hmember hshows hv hsome hid htruthy hslash
      htilde htexts hdistinct
    obtain ⟨ms, hms, rfl⟩ := View.shows_dict hshows
    obtain ⟨ds, hlookup, -⟩ := htabled.lookup? hms hget htexts hdistinct
    refine ⟨id, ds, body, hid, ?_, ?_, hbody ▸ hmatches⟩
    · unfold Json.common?
      rw [hnamed, Option.bind_some, Json.member?, hmember]
      exact hlookup
    · rw [Json.across?_definitionAddress _ _ (fun _ hdoc _ => h.docs_ids hdoc) hnamed]
      exact hobject

/-- **Links.** The references in the documents of a catalog lead to what they stand for. -/
theorem linked : Linked conv.guide d.store links bound p.survey c.survey c.view
    (Json.across? t docs) where
  grounded := h.grounded
  keywords := h.keywords
  fragments n := by simp [view, fragmentOf]
  leads n ref hn href := by
    rcases h.refers_cases hn href with ⟨id, hr, rfl⟩ | ⟨v, hv, hsome, htruthy, rfl⟩
    · obtain ⟨doc, hdoc, hmatches⟩ := h.document_of_root hr
      exact ⟨_, Json.across?_render h.docs_unique hdoc, hmatches⟩
    · obtain ⟨id, ds, body, -, -, hleads, hmatches⟩ := h.common_of_definition hv hsome htruthy
      exact ⟨body, hleads, hmatches⟩

/-- What the documents have in common are the bodies of nodes. -/
theorem body_of_common {id : String} {body : Json}
    (hbody : Json.common? conv.guide.settings.target id docs = some body) :
    ∃ n ms, p.survey.has n = true ∧ body = .obj ms ∧ c.view.Matches (c.survey.body n) ms := by
  obtain ⟨common, hcommon, hentry⟩ := Option.bind_eq_some_iff.mp hbody
  obtain ⟨shared, hshared, hmember⟩ := Option.bind_eq_some_iff.mp hcommon
  obtain ⟨common', hshows, rfl⟩ := h.common_cases hshared
  obtain rfl : common' = common := by
    rw [Json.member?, Json.lookup?, if_pos rfl] at hmember
    exact Option.some.inj hmember
  have htabled := h.tabled h.addressable.told
  obtain ⟨ms, hms, rfl⟩ := View.shows_dict hshows
  have hrel := hms.rel htabled.texts htabled.distinct id
  rw [show Json.lookup? id (Json.ofMembers ms) = some body from hentry] at hrel
  cases hget : (tableEntries c.survey table).get? (.str id) with
  | none => rw [hget] at hrel; cases hrel
  | some v =>
    rw [hget] at hrel
    -- an entry of the table is the definition of a node that was visited
    obtain ⟨⟨i, n⟩, hmem, hsame⟩ := List.mem_map.mp (Entries.mem_of_get?_str hget)
    obtain ⟨-, rfl⟩ := Prod.mk.inj hsame
    obtain ⟨w, hw, hsome⟩ := htabled.origin _ hmem
    have hnodup : c.survey.order.Nodup := by
      rw [h.adds.order]
      exact h.nodup
    have hvisit := visit?_of_mem hnodup hw
    obtain ⟨hsame, htexts, hdistinct⟩ :=
      h.composed.definition_formed h.grounded h.keywords hvisit hsome
    obtain ⟨bs, hbs, rfl⟩ := View.shows_dict (View.shows_of_rel hrel)
    refine ⟨n, _, ?_, rfl, fun name => hsame ▸ hbs.rel htexts hdistinct name⟩
    rw [← h.composed.rewrites.has]
    exact Survey.has_of_visit? hvisit

/-- Every address in the documents of a catalog is the reference to a definition. -/
theorem refers_of_cited {address : String}
    (hcited : Json.CitedAmong conv.guide.settings.target docs address) :
    ∃ n, p.survey.has n = true ∧ c.survey.Refers n address := by
  have hstands : ∀ {n ms}, p.survey.has n = true → c.view.Matches (c.survey.body n) ms →
      Json.Cites address .schemas (.obj ms) →
      ∃ n, p.survey.has n = true ∧ c.survey.Refers n address := fun hn hms hcites =>
    (h.linked.refers_of_cites hcites).1 _ _ hn rfl rfl (.inl hms)
  rcases hcited with ⟨doc, hdoc, hcites⟩ | ⟨id, body, hbody, hcites⟩
  · have hown : doc ∈ own → ∃ n, p.survey.has n = true ∧ c.survey.Refers n address := by
      intro hdoc
      obtain ⟨r, hr, -, hshows⟩ := h.emits.exists_of_document hdoc
      exact hstands (h.visited hr) (h.matches_root hr hshows) (h.cites_root hr hshows hcites)
    rcases h.docs_cases with ⟨-, rfl⟩ | ⟨common, -, rfl⟩
    · exact hown hdoc
    · rcases List.mem_append.mp hdoc with hdoc | hdoc
      · exact hown hdoc
      · rw [List.mem_singleton.mp hdoc] at hcites
        exact absurd hcites Json.not_cites_table
  · obtain ⟨n, ms, hn, rfl, hmatches⟩ := h.body_of_common hbody
    exact hstands hn hmatches hcites

/-- An address in the documents of a catalog is that of a document, or of a definition that they
    have in common. -/
theorem address_cases {address : String}
    (hcited : Json.CitedAmong conv.guide.settings.target docs address) :
    (∃ id n, (.str id, n) ∈ roots ∧ address = t.render id) ∨
      ∃ id body, Json.common? conv.guide.settings.target id docs = some body ∧
        address = definitionAddress conv.guide.settings.target (t.render sharedDocument)
          (.str id) := by
  obtain ⟨n, hn, href⟩ := h.refers_of_cited hcited
  rcases h.refers_cases hn href with ⟨id, hr, rfl⟩ | ⟨v, hv, hsome, htruthy, rfl⟩
  · exact .inl ⟨id, n, hr, rfl⟩
  · obtain ⟨id, ds, -, hid, hcommon, -, -⟩ := h.common_of_definition hv hsome htruthy
    exact .inr ⟨id, _, hcommon, by rw [hid]⟩

/-- Across all documents, that of an id unfolds to the tree of its node. -/
theorem unfold_root (hlinks : bound < links) {id : String} {n : NodeId} (hr : (.str id, n) ∈ roots)
    (depth : Nat) :
    ∃ doc, Json.named? id docs = some doc ∧
      Json.unfold (Json.across? t docs) conv.guide.settings.target links depth doc.described
        = d.store.lower conv.guide links depth n ∧
      (d.store.lower conv.guide links depth n).Whole := by
  obtain ⟨doc, hdoc, hmatches⟩ := h.document_of_root hr
  exact ⟨doc, Json.named?_of_mem h.docs_unique hdoc,
    h.linked.unfold_eq_lower hlinks (h.visited hr) (.inl hmatches)⟩

end Interlinks

/-! ### Catalogs -/

/-- The ids of a sound catalog are those that its annotations carry. -/
theorem annotatedId_of_mem (hsound : (store.catalog catalog).Sound) {r : Value × NodeId}
    (hr : r ∈ (store.catalog catalog).ids) : annotatedId store catalog r.2 = r.1 := by
  obtain ⟨-, notes, hnotes, hid⟩ := hsound.held.mp hr
  unfold annotatedId
  rw [hnotes]
  exact hid

/-- In a sound catalog an id that is not empty stands in the list with its node. -/
theorem mem_of_annotatedId (hsound : (store.catalog catalog).Sound) {n : NodeId}
    (htruthy : (annotatedId store catalog n).isTruthy = true) :
    (annotatedId store catalog n, n) ∈ (store.catalog catalog).ids := by
  unfold annotatedId at htruthy ⊢
  cases hnotes : (store.catalog catalog).get? n with
  | none =>
    rw [hnotes] at htruthy
    cases htruthy
  | some notes =>
    rw [hnotes] at htruthy
    refine hsound.held.mpr ⟨?_, notes, hnotes, rfl⟩
    intro hnull
    rw [hnull] at htruthy
    cases htruthy

/-- Nothing but the annotation of a node supplies an id, if its lowering does not. -/
theorem ownId_of_annotatedId {n : NodeId} (htame : store.Tame catalog n)
    (hlowered : ∀ node, store.node? n = some node → node.lowered.get? "id" = none)
    (hnone : (annotatedId store catalog n).isTruthy = false) :
    (store.ownId catalog n).isTruthy = false := by
  have hlower : (((store.node? n).map Node.lowered).getD []).get? "id" = none := by
    cases hn : store.node? n with
    | none => rfl
    | some node => exact hlowered node hn
  unfold Store.ownId Store.supplied
  unfold annotatedId at hnone
  cases hnotes : (store.catalog catalog).get? n with
  | none =>
    have hempty : (none : Option Entries).getD [] = [] := rfl
    rw [hempty, Entries.get?_update .nil, hlower]
    rfl
  | some notes =>
    rw [hnotes] at hnone
    have hdistinct := (htame.supplies notes (.inr hnotes)).distinct
    rw [Option.getD_some, Entries.get?_update hdistinct, hlower, Option.or_none]
    exact hnone

/-- **Documents of a catalog.** When a catalog whose ids can be told apart is converted, and no
    further node gets an id on the way, its documents interlink. -/
theorem documents_interlink (hs : store.Closed) (hoverride : conv.override = none)
    (hcatalog : conv.guide.catalog = catalog) (hsound : (store.catalog catalog).Sound)
    (hids : ∀ r ∈ (store.catalog catalog).ids, (store.node? r.2).isSome = true ∧
      ∃ id, r.1 = .str id ∧ id ≠ "" ∧ '#' ∉ id.toList ∧ id ≠ sharedDocument)
    (h : Returns (conv.documents policy catalog (.template t)) (start store) docs d)
    (htame : ∀ n, d.survey.has n = true → d.store.Tame catalog n)
    (hlowered : ∀ n node, d.survey.has n = true → d.store.node? n = some node →
      node.lowered.get? "id" = none)
    (hacyclic : ∀ n, ¬ Relation.TransGen (d.store.Passes conv.guide.settings.side) n n)
    (hlate : ∀ n, d.survey.has n = true → (annotatedId d.store catalog n).isTruthy = true →
      (store.node? n).isSome = true) :
    (store.catalog catalog).ids = [] ∧ docs = [] ∨
      ∃ root p c table own bound, ∀ links, bound ≤ links →
        conv.Interlinks policy catalog t store (store.catalog catalog).ids root p c d table own
          docs links bound := by
  have hrooted : ∀ r ∈ (store.catalog catalog).ids,
      (store.node? r.2).isSome ∧ (annotatedId store catalog r.2).isTruthy = true := by
    intro r hr
    obtain ⟨hn, id, hid, hne, -⟩ := hids r hr
    refine ⟨hn, ?_⟩
    rw [annotatedId_of_mem hsound hr, hid]
    simpa [Value.isTruthy] using hne
  refine (documents_spans hs hoverride h hrooted).imp_right fun hruns => ?_
  obtain ⟨p, c, table, own, hspans, hjoins⟩ := hruns
  have hhas := hspans.has
  have hfresh : p.survey.Fresh conv.guide d.store :=
    { hspans.intact hs with
      suited := fun n hn => hcatalog ▸ (htame n ((hhas n).trans hn)).suited
      undemanding := fun _ n hn => hcatalog ▸ (htame n ((hhas n).trans hn)).annotated
      acyclic := hacyclic }
  obtain ⟨root, -, hrun⟩ := hspans.settled
  have hcomposed := (hoist_settle_composes hoverride hfresh rfl).of_returns hrun
  have hkept : ∀ n, (store.node? n).isSome = true →
      annotatedId d.store catalog n = annotatedId store catalog n := fun n hn =>
    (hspans.annotatedId catalog n).trans (hspans.annotatedId_of_isSome hs catalog hn)
  -- common definitions have made ids only
  have hlinkage : c.linkage = some { catalog, addressing := .template t } :=
    hspans.adds.linkage.trans hspans.linkage
  have hnone : ∀ n, c.Identified n → (d.store.ownId conv.guide.catalog n).isTruthy = false := by
    intro n hn
    have hdocument := (hoist_settle_numbers (hspans.intact hs).definitionId
      hrun).documentId_of_identified hlinkage hn
    obtain ⟨v, hv, -⟩ := hn
    have hvisited : d.survey.has n = true := by
      rw [hhas, ← hcomposed.rewrites.has]
      exact Survey.has_of_visit? hv
    rw [hcatalog]
    refine ownId_of_annotatedId (htame n hvisited) (fun node => hlowered n node hvisited) ?_
    rw [hlinkage] at hdocument
    rw [hspans.stays.store]
    exact hdocument
  have haddressable : c.survey.Addressable := by
    refine addressable_of_hoist_settle (hspans.intact hs) hspans.nodup (apart_of_none hnone)
      (fun n id hn hid => ?_) hrun
    have hempty := hnone n hn
    rw [hid] at hempty
    obtain rfl : id = "" := by simpa [Value.isTruthy] using hempty
    decide
  have haddressed : Addressed d.store catalog (fun n => p.survey.has n = true)
      (store.catalog catalog).ids := by
    refine ⟨fun r hr => (hids r hr).2, hsound.unique, fun r hr => ?_, fun n hn htruthy => ?_⟩
    · rw [hkept r.2 (hids r hr).1, annotatedId_of_mem hsound hr]
    · have hold := hkept n (hlate n ((hhas n).trans hn) htruthy)
      rw [hold] at htruthy ⊢
      exact mem_of_annotatedId hsound htruthy
  have hclosed : d.store.Closed := by
    obtain ⟨q, hexplores, -, hrewrites, -⟩ := hspans.descent
    have hq := (hexplores.descends.store (start_closed hs)).2
    exact closed_of_events hspans.stays.store (hcomposed.rewrites.closed (hrewrites.closed hq))
  obtain ⟨bound, hbound⟩ := hfresh.explored.exists_keywords? hclosed hacyclic
  refine ⟨root.2, p, c, table, own, bound, fun links hlinks => ?_⟩
  obtain ⟨hcontents, hkeywords⟩ := hbound links hlinks
  exact
    { hspans with
      joins := hjoins
      composed := hcomposed
      addressable := haddressable
      addressed := haddressed
      grounded := hcomposed.grounded hfresh rfl hcontents
      keywords := hkeywords }

end Converter

/-- **Documents of a catalog are linked.** Whenever a catalog is converted without an override, with
    its own annotations and the template for addresses, every reference in its documents is the
    address of a document or that of a definition that they have in common, and no address is both;
    and the document of every id unfolds, across all documents and to every depth, to the tree of
    its node, which is whole; as soon as enough links may be followed on the way.

    Ids must be texts, not empty, without `#` and not that of the common document; annotations and
    custom lowerings must supply data without references, and the latter no ids; content must not be
    passed on in a circle; and no node may get an id on the way. -/
theorem Export.convertAll_linked (x : Export) (hoverride : x.override = none)
    (hannotations : x.annotations = none) (haddressing : x.addressing = none)
    {settings : ExportSettings} (hsettings : x.settings = .ok settings) {store : Store}
    (hs : store.Closed) {catalog : String} (hsound : (store.catalog catalog).Sound)
    (hids : ∀ r ∈ (store.catalog catalog).ids, (store.node? r.2).isSome = true ∧
      ∃ id, r.1 = .str id ∧ id ≠ "" ∧ '#' ∉ id.toList ∧ id ≠ sharedDocument)
    {docs : List (Value × Json)} {c : Conversion}
    (h : Returns (x.convertAll catalog) (start store) docs c)
    (htame : ∀ n, c.survey.has n = true → c.store.Tame catalog n)
    (hlowered : ∀ n node, c.survey.has n = true → c.store.node? n = some node →
      node.lowered.get? "id" = none)
    (hacyclic : ∀ n, ¬ Relation.TransGen (c.store.Passes settings.lowering.side) n n)
    (hlate : ∀ n, c.survey.has n = true → (annotatedId c.store catalog n).isTruthy = true →
      (store.node? n).isSome = true) :
    let target := settings.lowering.target
    let t := settings.uriTemplate
    (∀ address, Json.CitedAmong target docs address →
      (∃ id n, (.str id, n) ∈ (store.catalog catalog).ids ∧ address = t.render id) ∨
      ∃ id body, Json.common? target id docs = some body ∧
        address = definitionAddress target (t.render sharedDocument) (.str id)) ∧
    (∀ id n definition, (.str id, n) ∈ (store.catalog catalog).ids →
      t.render id ≠ definitionAddress target (t.render sharedDocument) definition) ∧
    ∃ bound, ∀ links, bound ≤ links → ∀ depth id n, (.str id, n) ∈ (store.catalog catalog).ids →
      ∃ doc, Json.named? id docs = some doc ∧
        Json.unfold (Json.across? t docs) target links depth doc.described
          = c.store.lower { settings := settings.lowering, catalog } links depth n ∧
        (c.store.lower { settings := settings.lowering, catalog } links depth n).Whole := by
  intro target t
  have h₁ := h
  rw [Export.convertAll_eq hsettings, hannotations, haddressing] at h₁
  -- Rendered ids hold no `#`, and addresses in the common document do.
  have happart : ∀ id n definition, (.str id, n) ∈ (store.catalog catalog).ids →
      t.render id ≠ definitionAddress target (t.render sharedDocument) definition := by
    intro id n definition hr
    obtain ⟨-, id', hid, -, hsign, -⟩ := hids _ hr
    obtain rfl := Value.str.inj hid
    exact render_ne_definitionAddress hsign target definition
  rcases Converter.documents_interlink hs hoverride rfl hsound hids h₁ htame hlowered hacyclic hlate
    with ⟨hnone, rfl⟩ | ⟨root, p, d, table, own, bound, hinterlinks⟩
  · -- without ids there are no documents
    have hempty : (store.catalog catalog).ids = [] := hnone
    refine ⟨fun address hcited => ?_, happart, 0, fun _ _ _ id n hr => ?_⟩
    · rcases hcited with ⟨d, hd, -⟩ | ⟨id, body, hbody, -⟩
      · cases hd
      · cases hbody
    · rw [hempty] at hr
      cases hr
  · refine ⟨fun address hcited => ?_, happart, bound + 1, fun links hlinks depth id n hr => ?_⟩
    · exact (hinterlinks bound le_rfl).address_cases hcited
    · exact (hinterlinks links (by omega)).unfold_root (by omega) hr depth

/-- An annotation with nothing but an id supplies data without references. -/
theorem supplies_id (id : String) : Entries.Supplies [(.str "id", .str id)] := by
  have hone : ∀ {p : Value × Value}, p ∈ [(Value.str "id", Value.str id)] →
      p = (.str "id", .str id) := List.mem_singleton.mp
  refine ⟨fun p hp => ⟨"id", by rw [hone hp]⟩, List.pairwise_singleton _ _, fun p hp => ?_,
    fun {key v} hp j hj => ?_, fun {key v} hp => ?_⟩
  · rw [hone hp]
    rfl
  · obtain ⟨hkey, rfl⟩ := Prod.mk.inj (hone hp)
    obtain rfl := Value.str.inj hkey
    cases hj
    rfl
  · obtain ⟨hkey, -⟩ := Prod.mk.inj (hone hp)
    obtain rfl := Value.str.inj hkey
    decide

/-- The ids of the labelled record agree with its annotations. -/
theorem labelledRecord_sound : (labelledRecord.catalog "global").Sound := by
  have hfirst : Catalog.Sound
      { entries := [(.node 0, [(.str "id", .str "text")])]
        ids := [(.str "text", .node 0)] } :=
    Catalog.sound_empty.add (.inr ⟨"text", rfl⟩) (by rfl :
      Catalog.add {} (.node 0) [(.str "id", .str "text")] = .ok _)
  exact hfirst.add (.inr ⟨"record", rfl⟩) (by rfl :
    Catalog.add _ (.node 2) [(.str "id", .str "record")] = .ok _)

/-- The documents of the catalog of the labelled record are linked. -/
theorem Export.convertAll_linked_labelledRecord :
    ∃ docs c, Returns (referring.convertAll "global") (start labelledRecord) docs c ∧
      (∀ address, Json.CitedAmong .draft2020 docs address →
        (∃ id n, (.str id, n) ∈ (labelledRecord.catalog "global").ids ∧
          address = ({} : ExportSettings).uriTemplate.render id) ∨
        ∃ id body, Json.common? .draft2020 id docs = some body ∧
          address = definitionAddress .draft2020
            (({} : ExportSettings).uriTemplate.render sharedDocument) (.str id)) ∧
      ∃ bound, ∀ links, bound ≤ links → ∀ depth, ∃ doc, Json.named? "record" docs = some doc ∧
        Json.unfold (Json.across? ({} : ExportSettings).uriTemplate docs) .draft2020 links depth
          doc.described = c.store.lower {} links depth (.node 2) ∧
        (c.store.lower {} links depth (.node 2)).Whole := by
  have hclosed : labelledRecord.Closed := .of_forall (by decide) nofun nofun
  obtain ⟨docs, h⟩ : ∃ docs, Returns (referring.convertAll "global") (start labelledRecord) docs
      labelledConverted.2.2 := exists_returns (by decide +kernel)
  have hnodes : labelledConverted.2.2.store.nodes = labelledRecord.nodes := by decide +kernel
  have hentries : (labelledConverted.2.2.store.catalog "global").entries
      = [(.node 0, [(.str "id", .str "text")]), (.node 2, [(.str "id", .str "record")])] := by
    decide +kernel
  generalize labelledConverted.2.2 = c at h hnodes hentries
  have hplain : ∀ node ∈ c.store.nodes, node.Plain ∧ node.lowering = .null := by
    rw [hnodes]
    decide
  have hnode : ∀ n node, c.store.node? n = some node → node ∈ labelledRecord.nodes := by
    intro n node hn
    cases n with
    | gap => cases hn
    | node i => exact hnodes ▸ List.mem_of_getElem? hn
  have htame : ∀ n, c.store.Tame "global" n := by
    intro n
    refine .of_forall hplain ?_
    rw [hentries]
    exact List.forall_mem_cons.mpr ⟨⟨supplies_id "text", rfl⟩,
      List.forall_mem_singleton.mpr ⟨supplies_id "record", rfl⟩⟩
  -- no node passes content on
  have hacyclic : ∀ n, ¬ Relation.TransGen (c.store.Passes .output) n n := by
    have hnone : ∀ node ∈ labelledRecord.nodes, (node.passes? .output).isNone = true := by decide
    refine Store.acyclic_of_rank (fun _ => 0) fun n m hpass => ?_
    obtain ⟨node, lead, hn, hlead, -⟩ := hpass
    have hno := hnone node (hnode n node hn)
    rw [hlead] at hno
    cases hno
  have hlowered : ∀ n node, c.survey.has n = true → c.store.node? n = some node →
      node.lowered.get? "id" = none := by
    intro n node _ hn
    have hnull : ∀ node ∈ labelledRecord.nodes, node.lowered.get? "id" = none := by decide
    exact hnull node (hnode n node hn)
  have hlate : ∀ n, c.survey.has n = true → (annotatedId c.store "global" n).isTruthy = true →
      (labelledRecord.node? n).isSome = true := by
    intro n _ htruthy
    unfold annotatedId Catalog.get? at htruthy
    rw [hentries] at htruthy
    by_cases hfirst : n = .node 0
    · subst hfirst
      rfl
    · by_cases hlast : n = .node 2
      · subst hlast
        rfl
      · simp [Catalog.find?, Ne.symm hfirst, Ne.symm hlast, Value.isTruthy] at htruthy
  have hids : ∀ r ∈ (labelledRecord.catalog "global").ids,
      (labelledRecord.node? r.2).isSome = true ∧
        ∃ id, r.1 = .str id ∧ id ≠ "" ∧ '#' ∉ id.toList ∧ id ≠ sharedDocument := by
    have hboth : ∀ r ∈ [(Value.str "text", NodeId.node 0), (.str "record", .node 2)],
        (labelledRecord.node? r.2).isSome = true ∧
          ∃ id, r.1 = .str id ∧ id ≠ "" ∧ '#' ∉ id.toList ∧ id ≠ sharedDocument :=
      List.forall_mem_cons.mpr ⟨⟨rfl, "text", rfl, by decide, by decide, by decide⟩,
        List.forall_mem_singleton.mpr ⟨rfl, "record", rfl, by decide, by decide, by decide⟩⟩
    exact hboth
  obtain ⟨haddresses, -, bound, hunfold⟩ := Export.convertAll_linked referring rfl rfl rfl rfl
    hclosed labelledRecord_sound hids h (fun n _ => htame n) hlowered hacyclic hlate
  refine ⟨docs, c, h, haddresses, bound, fun links hlinks depth => ?_⟩
  exact hunfold links hlinks depth "record" (.node 2) (by decide)

/-- A list, registered, of texts that a lazy node makes and registers when it is visited. -/
def lateText : Store where
  nodes := [{ kind := .lazy, getter := some 0 }, { kind := .array, element := .node 0 }]
  getters := [{ owner := .node 0, source := .fresh (.annotated (.node { kind := .string } [])
    [(.str "id", .str "late")] "global") }]
  catalogs := [("global",
    { entries := [(.node 1, [(.str "id", .str "list")])], ids := [(.str "list", .node 1)] })]

/-- The conversion of the catalog of the list. -/
def lateTextConverted : Except Failure (List (Value × Json)) × Conversion :=
  ({} : Export).convertAll "global" (start lateText)

/-- What stands under a keyword of a tree. -/
def Tree.member? (name : String) : Tree → Option Tree
  | .members f => f name
  | _ => none

/-- The document of the list. -/
def lateTextDocument : List (String × Json) :=
  [("type", .str "array"), ("items", .obj [("$ref", .str "late")]), ("id", .str "list"),
    ("$schema", .str "https://json-schema.org/draft/2020-12/schema")]

/-- Nothing looks for nodes that were registered while a catalog is converted: the reference to the
    late text is the address of a document that is not there, so that the document of the list
    unfolds to another tree than that of the list, whatever number of links is followed. -/
theorem Export.convertAll_strays :
    let docs := [(Value.str "list", Json.obj lateTextDocument)]
    let find := Json.across? ({} : ExportSettings).uriTemplate docs
    ∃ c, Returns (({} : Export).convertAll "global") (start lateText) docs c ∧
      (.str "late", .node 3) ∈ (c.store.catalog "global").ids ∧
      Json.CitedAmong .draft2020 docs "late" ∧ find "late" = none ∧
      ∀ links, Json.unfold find .draft2020 links 2 (Json.described (.obj lateTextDocument))
        ≠ c.store.lower {} 2 2 (.node 1) := by
  intro docs find
  have hdocs : lateTextConverted.1.toOption = some docs := by decide +kernel
  have hreturns : Returns (({} : Export).convertAll "global") (start lateText) docs
      lateTextConverted.2 := returns_of_toOption hdocs
  have hfind : find "late" = none := by decide +kernel
  have hlate : (Value.str "late", NodeId.node 3) ∈
      (lateTextConverted.2.store.catalog "global").ids := by decide +kernel
  have hlist : (lateTextConverted.2.store.keywords? {} 2 2 (.node 1)).map (Entries.get? "items")
      = some (some (.fragment (.node 0))) := by
    decide +kernel
  have htext : (lateTextConverted.2.store.keywords? {} 2 2 (.node 0)).isSome = true := by
    decide +kernel
  have hitem : Json.lookup? "items" lateTextDocument = some (.obj [("$ref", .str "late")]) := by
    decide +kernel
  have hrole : Role.of "items" = .schemas := by decide
  have hcites : Json.Cites "late" .schemas (.obj lateTextDocument) :=
    .keyword hitem (hrole ▸ .here rfl)
  generalize lateTextConverted.2 = c at hreturns hlate hlist htext
  refine ⟨c, hreturns, hlate, .inl ⟨_, List.mem_singleton.mpr rfl, hcites⟩, hfind,
    fun links hsame => ?_⟩
  -- the items of the document are broken, and those of the list are a text
  have hbroken : (Json.unfold find .draft2020 links 2
      (Json.described (.obj lateTextDocument))).member? "items" = some .broken := by
    have hnone : Json.reference? .draft2020 (Json.described (.obj lateTextDocument)) = none := by
      decide +kernel
    rw [Json.unfold, Json.keywords_of_reference?_none hnone]
    simp only [Tree.member?, Json.lookup?_described (by decide : "items" ≠ "$schema"), hitem,
      hrole, Option.map_some]
    show some (Json.unfold find .draft2020 links 1 _) = _
    rw [Json.unfold_of_find?_none rfl hfind]
  obtain ⟨es, hes, hitems⟩ := Option.map_eq_some_iff.mp hlist
  obtain ⟨below, hbelow⟩ := Option.isSome_iff_exists.mp htext
  rw [hsame] at hbroken
  simp only [Store.lower, hes, Tree.member?, hitems, hrole, Option.map_some] at hbroken
  have hread : Store.lower c.store {} 2 1 (.node 0) = .broken := Option.some.inj hbroken
  simp only [Store.lower, hbelow] at hread
  cases hread

end SchemaGraph
