import SchemaGraph.Proofs.Document.Identity
import SchemaGraph.Proofs.Document.Listing
import SchemaGraph.Proofs.Document.Upkeep

namespace SchemaGraph

open SchemaGraph.Action Conversion Emission

/-!
# References that resolve

The address in a reference is made of an id as it is.  Read as a pointer into the document, it
leads to the body that the reference stands for, if the id has none of the two signs that
pointers are made with.  Ids that have them are not respelled, and their references lead
nowhere.

* `Conversion.Formed.definition` — definitions have texts as keys, each once
* `Export.references_resolve` — the reference to a definition leads to its body
* `Export.references_stray`   — the reference to an id with a slash leads nowhere
-/

namespace Conversion

variable {e : Emission} {guide : Guide} {s : Store} {p c : Conversion}

/-- Definitions of formed conversions are formed. -/
theorem Formed.definition (h : c.Formed) (n : NodeId) : (c.survey.definition n).Formed := by
  unfold Survey.definition
  cases hv : c.survey.visit? n with
  | none => exact .nil
  | some v =>
    have hbody := (h n v hv).body
    unfold Visit.body at hbody
    cases hsome : v.definition with
    | none =>
      rw [Option.bind_some, hsome]
      exact .nil
    | some body =>
      rw [hsome] at hbody
      rw [Option.bind_some, hsome]
      exact hbody

/-- An intact survey is well formed, if what is supplied has texts as keys. -/
theorem formed_of_intact (hp : p.survey.Intact guide s)
    (htexts : ∀ n es, p.survey.has n = true → s.Supplied guide.catalog n es → es.Texts) :
    p.Formed := by
  intro n v hv
  obtain ⟨links, w, hw, hfragment, -⟩ := hp.contents hv
  have hformed : v.fragment.Formed :=
    hfragment ▸ Store.contents?_formed (htexts n · (Survey.has_of_visit? hv)) hw
  refine ⟨hformed, ?_⟩
  rw [Visit.body, hp.definition hv]
  exact hformed

/-- Hoisting and settling keep a conversion well formed. -/
theorem Formed.hoist_settle (h : p.Formed) (hoverride : e.override = none)
    (hrun : Returns (do e.hoist; e.settleVisits) p () c) : c.Formed := by
  obtain ⟨_, d, hhoist, hsettle⟩ := returns_bind.mp hrun
  have hd := ((hoist_hoists p).of_returns hhoist).1.formed h
  exact (formed_preserved _).settleVisits hoverride hsettle hd

end Conversion

namespace Converter.Stands

variable {conv : Converter} {policy : EmissionSettings} {root : NodeId} {store : Store}
  {p d c : Conversion} {doc : Json}

/-- The reference to a definition resolves in a document that stands alone. -/
theorem resolves (hs : store.Closed) (h : conv.Stands policy root store p d c doc)
    (hoverride : conv.override = none)
    (htexts : ∀ n es, c.survey.has n = true → c.store.Supplied conv.guide.catalog n es → es.Texts)
    (hapart : Apart "__schema" (c.store.ownId conv.guide.catalog) c.Identified)
    (hplain : ∀ n id, c.Identified n → c.store.ownId conv.guide.catalog n = .str id →
      '/' ∉ id.toList ∧ '~' ∉ id.toList)
    {n : NodeId} {v : Visit} (hv : c.survey.visit? n = some v) (hsome : v.definition.isSome) :
    ∃ ref, v.fragment = [(Visit.refKey, .str ref)] ∧
      (n = root ∧ ref = "#" ∨
        ∃ id ds, v.definitionId = .str id ∧
          Json.pointer? ref = some [conv.guide.settings.target.definitionsKeyword, id] ∧
          doc.object? ref = some ds ∧ c.view.Matches (c.survey.definition n) ds) := by
  have hintact := h.intact hs
  have hidentified : d.Identified = c.Identified := by
    unfold Identified
    rw [h.survey]
  -- Ids are told apart and can stand in pointers, so that the table lists each definition under its
  -- own.
  have haddressable := addressable_of_hoist_settle hintact (h.nodup hs) (h.apart hs hapart)
    (hidentified ▸ hplain) h.settled
  have hformed : d.Formed :=
    (formed_of_intact hintact fun m es hm => htexts m es ((h.has m).trans hm)).hoist_settle
      hoverride h.settled
  have htabled := tabled_listed haddressable.told h.stop nofun .nil nofun
  rw [h.survey, ← h.view] at *
  -- The root is referred to as the document itself, any other definition by its id in the table.
  rcases named_of_hoist_settle hintact h.settled n v hv with ⟨hnone, -⟩ | ⟨-, ref, href, hnames⟩
  · rw [hnone] at hsome
    cases hsome
  · refine ⟨ref, href, ?_⟩
    unfold Names at hnames
    rw [← h.behind.linkage, h.adds.linkage, h.alone hs] at hnames
    dsimp only at hnames
    split at hnames
    · rename_i hroot
      exact .inl ⟨hroot, hnames⟩
    · obtain ⟨htruthy, rfl⟩ := hnames
      obtain ⟨id, hid, hslash, htilde⟩ := haddressable.text _ (Survey.mem_visits hv) htruthy
      have hbody := hformed.definition n
      have hroot := hformed.definition root
      obtain ⟨ds, hds, hmatches⟩ := object?_listed hroot.texts hroot.distinct htabled h.shows hv
        hsome hid htruthy hslash htilde hbody.texts hbody.distinct
      refine .inr ⟨id, ds, hid, ?_, hds, hmatches⟩
      rw [hid]
      exact Json.pointer?_definitionAddress _ hslash htilde

end Converter.Stands

/-- **References resolve.** Whenever a node is converted without an override, the reference to
    every definition but that of the root is a pointer to the entry of the definition, which has
    the members that show its body, if the ids that are supplied for definitions can be told
    apart, and have none of the signs that pointers are made with. -/
theorem Export.references_resolve (x : Export) (hoverride : x.override = none)
    {settings : ExportSettings} (hsettings : x.settings = .ok settings) {store : Store}
    (hs : store.Closed) {root : NodeId} {doc : Json} {c : Conversion}
    (h : Returns (x.convert root) (start store) doc c)
    (htexts : ∀ n es, c.survey.has n = true →
      c.store.Supplied (x.annotations.getD "global") n es → es.Texts)
    (hapart : Apart "__schema" (c.store.ownId (x.annotations.getD "global")) c.Identified)
    (hplain : ∀ n id, c.Identified n →
      c.store.ownId (x.annotations.getD "global") n = .str id →
        '/' ∉ id.toList ∧ '~' ∉ id.toList) :
    ∀ n v, c.survey.visit? n = some v → v.definition.isSome →
      ∃ ref, v.fragment = [(Visit.refKey, .str ref)] ∧
        (n = root ∧ ref = "#" ∨
          ∃ id ds, v.definitionId = .str id ∧
            Json.pointer? ref = some [settings.lowering.target.definitionsKeyword, id] ∧
            doc.object? ref = some ds ∧ c.view.Matches (c.survey.definition n) ds) := by
  intro n v hv hsome
  obtain ⟨p, d, hstands⟩ := x.convert_stands hsettings hs h
  exact hstands.resolves hs hoverride htexts hapart hplain hv hsome

/-- The reference to the text in the labelled record resolves. -/
theorem Export.references_resolve_labelledRecord :
    ∃ doc c v ref id ds, Returns (referring.convert (.node 2)) (start labelledRecord) doc c ∧
      c.survey.visit? (.node 0) = some v ∧ v.fragment = [(Visit.refKey, .str ref)] ∧
      Json.pointer? ref = some ["$defs", id] ∧ doc.object? ref = some ds ∧
      c.view.Matches (c.survey.definition (.node 0)) ds := by
  have hclosed : labelledRecord.Closed := .of_forall (by decide) nofun nofun
  obtain ⟨doc, h⟩ : ∃ doc, Returns (referring.convert (.node 2)) (start labelledRecord) doc
      labelledConverted.1.2 := exists_returns (by decide +kernel)
  have hnodes : ∀ node ∈ labelledConverted.1.2.store.nodes, node.lowering = .null := by
    decide +kernel
  have hentries : (labelledConverted.1.2.store.catalog "global").entries
      = [(.node 0, [(.str "id", .str "text")]), (.node 2, [(.str "id", .str "record")])] := by
    decide +kernel
  have htexts : ∀ n es, labelledConverted.1.2.survey.has n = true →
      labelledConverted.1.2.store.Supplied "global" n es → es.Texts := by
    rintro n es - (⟨node, v, hn, hcall, -⟩ | hnotes)
    · cases n with
      | gap => cases hn
      | node i =>
        rw [hnodes node (List.mem_of_getElem? hn)] at hcall
        cases hcall
    · rw [Catalog.get?, hentries] at hnotes
      simp only [Catalog.find?] at hnotes
      split at hnotes
      · cases hnotes
        exact fun p hp => ⟨"id", by rw [List.mem_singleton.mp hp]⟩
      · split at hnotes <;> cases hnotes
        exact fun p hp => ⟨"id", by rw [List.mem_singleton.mp hp]⟩
  have htext : labelledConverted.1.2.store.ownId "global" (.node 0) = .str "text" := by
    decide +kernel
  have hsingle : ∀ n, labelledConverted.1.2.Identified n →
      (labelledConverted.1.2.store.ownId "global" n).isTruthy = true → n = .node 0 :=
    labelledRecord_single (by decide +kernel) (by decide +kernel)
  have hplain : ∀ n id, labelledConverted.1.2.Identified n →
      labelledConverted.1.2.store.ownId "global" n = .str id →
        '/' ∉ id.toList ∧ '~' ∉ id.toList := by
    intro n id hn hid
    by_cases htruthy : (Value.str id).isTruthy = true
    · rw [hsingle n hn (hid ▸ htruthy), htext] at hid
      obtain rfl := Value.str.inj hid
      decide
    · obtain rfl : id = "" := by simpa [Value.isTruthy] using htruthy
      decide
  obtain ⟨v, hv⟩ : ∃ v, labelledConverted.1.2.survey.visit? (.node 0) = some v :=
    Survey.visit?_of_has (by decide +kernel)
  have hsome : (labelledConverted.1.2.survey.visit? (.node 0)).map (·.definition.isSome)
      = some true := by decide +kernel
  rw [hv] at hsome
  obtain ⟨ref, href, ⟨hroot, -⟩ | ⟨id, ds, -, hpointer, hobject, hmatches⟩⟩ :=
    Export.references_resolve referring rfl rfl hclosed h htexts
      (apart_of_single hsingle htext (text_ne_made (by decide) (by decide))) hplain (.node 0) v hv
      (Option.some.inj hsome)
  · cases hroot
  · exact ⟨doc, _, v, ref, id, ds, h, hv, href, hpointer, hobject, hmatches⟩

/-- A record of one text, whose id has a slash in it. -/
def slashedRecord : Store where
  nodes := [{ kind := .string }, { kind := .object, shape := some [("p", .node 0)] }]
  catalogs := [("global",
    { entries := [(.node 0, [(.str "id", .str "a/b")])], ids := [(.str "a/b", .node 0)] })]

/-- The conversion of the slashed record. -/
def slashedConverted : Except Failure Json × Conversion :=
  ({} : Export).convert (.node 1) (start slashedRecord)

/-- A slash in an id is not respelled: the reference to the text in the slashed record leads
    nowhere, while the pointer to its entry is another one. -/
theorem Export.references_stray :
    let leads (address : String) :=
      (slashedConverted.1.toOption.bind fun doc => doc.object? address).isSome
    slashedConverted.1.isOk = true ∧
    slashedConverted.2.survey.fragment (.node 0) = [(.str "$ref", .str "#/$defs/a/b")] ∧
    leads "#/$defs/a/b" = false ∧ leads "#/$defs/a~1b" = true := by
  decide +kernel

end SchemaGraph
