import SchemaGraph.Proofs.Document.Listing
import SchemaGraph.Proofs.Document.Standing

namespace SchemaGraph

open SchemaGraph.Action Conversion

/-!
# Documents are faithful

A document that stands alone unfolds, to any depth, to the tree of the node that it was made
of: what became a definition, how often a node was met and in which order fragments were
written does not show.

* `Json.standing` — the tree of a document that stands alone
* `Export.convert_faithful` — the document of a node unfolds to the tree of the node
-/

/-- The tree of a document that stands alone, down to a depth: that of its root, with the
    references into the document followed. -/
def Json.standing (target : Target) (links depth : Nat) (doc : Json) : Tree :=
  Json.unfold (doc.inside? target) target links depth (doc.content target)

/-- Entries that leave the keywords for tables of definitions to documents. -/
def Entries.Unlisted (es : Entries) : Prop :=
  ∀ p ∈ es, p.1 ≠ .str "$defs" ∧ p.1 ≠ .str "definitions"

/-- Unlisted entries hold no table of definitions. -/
theorem Entries.Unlisted.not_mem {es : Entries} (h : es.Unlisted) (target : Target) (x : Value) :
    (.str target.definitionsKeyword, x) ∉ es := by
  intro hmem
  obtain ⟨hmodern, holder⟩ := h _ hmem
  cases target with
  | draft2020 => exact hmodern rfl
  | draft7 => exact holder rfl

namespace Emission

variable {e : Emission} {guide : Guide} {s : Store} {p c : Conversion}

/-- A document that stands alone is linked: its references lead to what its definitions show, and
    its members but for those of the document itself are the definition of its root. -/
theorem Composed.linked (hfresh : p.survey.Fresh guide s) (hc : Composed e p c)
    (htarget : e.target = guide.settings.target)
    (hroot : p.survey.has e.root = true) (halone : p.linkage = none)
    (hunlisted : ∀ n es, p.survey.has n = true → s.Supplied guide.catalog n es →
      ∀ x, (.str e.target.definitionsKeyword, x) ∉ es)
    (haddressable : c.survey.Addressable) (hstop : (listed c.survey.visits []).2 = none)
    {doc : Json} (hdoc : c.view.Shows
      (.dict (e.assemble c.survey (listed c.survey.visits []).1)) doc) {links bound : Nat}
    (hcontents : ∀ n v, p.survey.visit? n = some v →
      ∃ w, s.contents? guide links n = some w ∧ w.content = v.content)
    (hkeywords : ∀ n, p.survey.has n = true → ∃ es, s.keywords? guide links bound n = some es) :
    Linked guide s links bound p.survey c.survey c.view (doc.inside? e.target) ∧
      c.view.Matches (c.survey.body e.root) (doc.content e.target) := by
  have hgrounded := hc.grounded hfresh htarget hcontents
  -- the root is a definition, and its body leaves the keywords of documents to them
  obtain ⟨v, hv⟩ := Survey.visit?_of_has hroot
  obtain ⟨w, hw⟩ := Survey.visit?_of_has ((hc.rewrites.has e.root).trans hroot)
  have hsome : w.definition.isSome := by
    refine hc.hoisted hv hw ?_
    simp [isHoisted, hasOwnAddress]
  obtain ⟨es, hes⟩ := hkeywords e.root hroot
  obtain ⟨hbody, htexts, hdistinct⟩ := hc.definition_formed hgrounded hkeywords hw hsome
  have hschema : (c.survey.definition e.root).get? "$schema" = none := by
    rw [hbody]
    exact hgrounded.body_dialect hroot hes
  have htable : (c.survey.definition e.root).get? (.str e.target.definitionsKeyword) = none := by
    rw [hbody]
    have hname : e.target.definitionsKeyword ∈ outsideKeywords ∧
        e.target.definitionsKeyword ≠ "$ref" ∧ e.target.definitionsKeyword ≠ "allOf" := by
      cases e.target <;> decide
    refine hgrounded.body_unset hroot hes ?_ hname.2.1 hname.2.2
    cases hget : es.get? (.str e.target.definitionsKeyword) with
    | none => rfl
    | some x =>
      obtain ⟨m, es', hm, hes', hmem⟩ :=
        Store.keywords?_supplied hgrounded.suited hgrounded.edge hroot hes hname.1 hget
      exact absurd hmem (hunlisted m es' hm hes' x)
  have hcontent : c.view.Matches (c.survey.body e.root) (doc.content e.target) := by
    rw [← hbody]
    exact matches_content htexts hdistinct hschema htable hdoc
  refine ⟨⟨hgrounded, hkeywords, fun n => by simp [view, fragmentOf], ?_⟩, hcontent⟩
  intro n ref hn href
  obtain ⟨u, hu, hdefined, hnames⟩ := hc.refers href
  obtain ⟨hbody', htexts', hdistinct'⟩ := hc.definition_formed hgrounded hkeywords hu hdefined
  unfold Names at hnames
  rw [halone] at hnames
  dsimp only at hnames
  split at hnames
  · rename_i hn
    subst hn hnames
    exact ⟨_, rfl, hcontent⟩
  · obtain ⟨hid, rfl⟩ := hnames
    rw [← hbody']
    have htabled := tabled_listed haddressable.told hstop nofun .nil nofun
    exact inside?_listed htexts hdistinct htabled haddressable hdoc hu hdefined hid htexts'
      hdistinct'

/-- **Standing alone.** A document that stands alone unfolds to the tree of its root. -/
theorem Composed.standing (hfresh : p.survey.Fresh guide s) (hs : s.Closed)
    (hc : Composed e p c) (htarget : e.target = guide.settings.target)
    (hroot : p.survey.has e.root = true) (halone : p.linkage = none)
    (hunlisted : ∀ n es, p.survey.has n = true → s.Supplied guide.catalog n es → es.Unlisted)
    (haddressable : c.survey.Addressable) (hstop : (listed c.survey.visits []).2 = none)
    {doc : Json} (hdoc : c.view.Shows
      (.dict (e.assemble c.survey (listed c.survey.visits []).1)) doc) :
    ∃ bound, ∀ links, bound ≤ links → ∀ depth,
      doc.standing e.target links depth = s.lower guide links depth e.root ∧
        (s.lower guide links depth e.root).Whole := by
  obtain ⟨bound, hbound⟩ := hfresh.explored.exists_keywords? hs hfresh.acyclic
  refine ⟨bound + 1, fun links hlinks depth => ?_⟩
  obtain ⟨hcontents, hkeywords⟩ := hbound links (by omega)
  obtain ⟨hlinked, hcontent⟩ := hc.linked hfresh htarget hroot halone
    (fun n es hn hes => (hunlisted n es hn hes).not_mem e.target) haddressable hstop hdoc
    hcontents hkeywords
  unfold Json.standing
  rw [htarget] at hlinked hcontent ⊢
  exact hlinked.unfold_eq_lower (by omega) hroot (.inl hcontent)

end Emission

/-- **Documents are faithful.** Whenever a node is converted without an override, its document
    unfolds, to every depth, to the tree of the node, which is whole; as soon as enough links
    may be followed on the way.

    Content must not be passed on in a circle, annotations and custom lowerings must supply
    data without references, and the ids of definitions must be texts that can be told apart. -/
theorem Export.convert_faithful (x : Export) (hoverride : x.override = none)
    {settings : ExportSettings} (hsettings : x.settings = .ok settings) {store : Store}
    (hs : store.Closed) {root : NodeId} {doc : Json} {c : Conversion}
    (h : Returns (x.convert root) (start store) doc c)
    (htame : ∀ n, c.survey.has n = true → c.store.Tame (x.annotations.getD "global") n)
    (hunlisted : ∀ n es, c.survey.has n = true →
      c.store.Supplied (x.annotations.getD "global") n es → es.Unlisted)
    (hacyclic : ∀ n, ¬ Relation.TransGen (c.store.Passes settings.lowering.side) n n)
    (haddressable : c.survey.Addressable) :
    ∃ bound, ∀ links, bound ≤ links → ∀ depth,
      doc.standing settings.lowering.target links depth
        = c.store.lower { settings := settings.lowering, catalog := x.annotations.getD "global" }
          links depth root ∧
      (c.store.lower { settings := settings.lowering, catalog := x.annotations.getD "global" }
        links depth root).Whole := by
  obtain ⟨p, d, hstands⟩ := x.convert_stands hsettings hs h
  have hintact := hstands.intact hs
  -- What was assumed of the visited nodes is what hoisting and settling need.
  have hfresh : p.survey.Fresh _ c.store :=
    { hintact with
      suited := fun n hn => (htame n ((hstands.has n).trans hn)).suited
      undemanding := fun _ n hn => (htame n ((hstands.has n).trans hn)).annotated
      acyclic := hacyclic }
  have hcomposed := (Emission.hoist_settle_composes hoverride hfresh rfl).of_returns hstands.settled
  have hclosed : c.store.Closed := by
    obtain ⟨p', hexplores, -, hrewrites, -⟩ := hstands.descent hs
    have hp' := (hexplores.descends.store (Converter.start_closed hs)).2
    exact hstands.behind.closed (hcomposed.rewrites.closed (hrewrites.closed hp'))
  have hunlisted' : ∀ n es, p.survey.has n = true →
      c.store.Supplied (x.annotations.getD "global") n es → es.Unlisted :=
    fun n es hn => hunlisted n es ((hstands.has n).trans hn)
  exact hcomposed.standing hfresh hclosed rfl (hstands.visited hs) (hstands.alone hs) hunlisted'
    (hstands.survey ▸ haddressable) hstands.stop hstands.shows

/-- Lists of lists, or nothing: the items of a list may be absent, and are lists of the same
    kind. -/
def possibleLists : Store where
  nodes := [{ kind := .array, element := .node 1 }, { kind := .optional, inner := .node 0 },
    { kind := .nullable, inner := .node 0 }]

/-- The conversion of possible lists, with one definition in its table. -/
def possibleListsConverted : Except Failure Json × Conversion :=
  ({} : Export).convert (.node 2) (start possibleLists)

/-- The document of possible lists is faithful. -/
theorem Export.convert_faithful_possibleLists :
    ∃ doc c, Returns (({} : Export).convert (.node 2)) (start possibleLists) doc c ∧
      ∃ bound, ∀ links, bound ≤ links → ∀ depth,
        doc.standing .draft2020 links depth = c.store.lower {} links depth (.node 2) ∧
        (c.store.lower {} links depth (.node 2)).Whole := by
  have hclosed : possibleLists.Closed :=
    .of_forall (by decide) (List.forall_mem_nil _) (List.forall_mem_nil _)
  have hnodes : possibleListsConverted.2.store.nodes = possibleLists.nodes := by decide +kernel
  have hcatalog : (possibleListsConverted.2.store.catalog "global").entries = [] := by
    decide +kernel
  have hids : possibleListsConverted.2.survey.visits.map (fun p => (p.1, p.2.definitionId))
      = [(.node 2, .null), (.node 0, .str "__schema0"), (.node 1, .null)] := by decide +kernel
  obtain ⟨doc, h⟩ : ∃ doc, Returns (({} : Export).convert (.node 2)) (start possibleLists) doc
      possibleListsConverted.2 := exists_returns (by decide +kernel)
  generalize possibleListsConverted.2 = c at hnodes hcatalog hids h
  refine ⟨doc, c, h, Export.convert_faithful {} rfl rfl hclosed h (fun n _ => ?_)
    (fun n es _ hes => ?_) ?_ ?_⟩
  · refine .of_forall ?_ ?_
    · rw [hnodes]
      decide
    · show ∀ p ∈ (c.store.catalog "global").entries, _
      rw [hcatalog]
      exact List.forall_mem_nil _
  -- nothing is supplied: there are neither custom lowerings nor annotations
  · rcases hes with ⟨node, v, hn, hcall, -⟩ | hnotes
    · cases n with
      | gap => cases hn
      | node i =>
        rw [Store.node?, hnodes] at hn
        have hplain : ∀ node ∈ possibleLists.nodes, node.lowering = .null := by decide
        rw [hplain node (List.mem_of_getElem? hn)] at hcall
        cases hcall
    · rw [Catalog.get?, show (c.store.catalog ((none : Option String).getD "global")).entries = []
        from hcatalog] at hnotes
      cases hnotes
  · -- only the second node passes content on, and the first one does not
    refine Store.acyclic_of_rank (fun n => if n = .node 1 then 1 else 0) ?_
    intro n m hpass
    obtain ⟨node, lead, hn, hlead, hm⟩ := hpass
    cases n with
    | gap => cases hn
    | node i =>
      rw [Store.node?, hnodes] at hn
      rcases i with _ | _ | _ | i
      · cases hn; cases hlead
      · cases hn; cases hlead; cases hm; decide
      · cases hn; cases hlead
      · cases hn
  · -- the one definition that is listed has the one id
    have hcases : ∀ p ∈ c.survey.visits, p.2.definitionId.isTruthy →
        p.1 = .node 0 ∧ p.2.definitionId = .str "__schema0" := by
      intro p hp htruthy
      have hmem := List.mem_map_of_mem (f := fun p : NodeId × Visit => (p.1, p.2.definitionId)) hp
      rw [hids] at hmem
      simp only [List.mem_cons, Prod.mk.injEq, List.not_mem_nil, or_false] at hmem
      rcases hmem with ⟨-, h⟩ | h | ⟨-, h⟩
      · rw [h] at htruthy
        cases htruthy
      · exact h
      · rw [h] at htruthy
        cases htruthy
    refine ⟨fun p hp htruthy => ⟨_, (hcases p hp htruthy).2, by decide, by decide⟩,
      fun p hp q hq htruthy hsame => ?_⟩
    rw [(hcases p hp htruthy).1, (hcases q hq (hsame ▸ htruthy)).1]

end SchemaGraph
