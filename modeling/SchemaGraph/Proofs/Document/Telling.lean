import SchemaGraph.Proofs.Document.Addresses
import SchemaGraph.Proofs.Document.Standing
import SchemaGraph.Proofs.Files.Exporting
import SchemaGraph.Proofs.Files.Settings

namespace SchemaGraph

open SchemaGraph.Action Conversion Emission

/-!
# Documents told apart by their addresses

Whatever the template and the ids look like, the address of a document tells its id.  So the
documents of a catalog have addresses of their own, that of their common definitions included, and
a reference to a node with an id is a reference to no other document.

* `UriTemplate.Separates`     — a template gives different addresses to ids
* `Conversion.AddressedBy`    — documents of a catalog refer to each other by a template
* `Emission.referenceFor_document` — the reference to a node with an id
* `Export.convertAll_addresses` — addresses in the export of a catalog
-/

/-- A text is accepted as the template that it is the text of. -/
theorem readTemplate_eq_ok {text : String} {t : UriTemplate} :
    readTemplate (.str text) = .ok t ↔ t.text = text :=
  readTemplate_spells.trans Datum.spells_str

/-- Ids that are texts, with an address of its own for each of them. -/
def UriTemplate.Separates (t : UriTemplate) (ids : List Value) : Prop :=
  ids.Pairwise fun i j => ∃ a b, i = .str a ∧ j = .str b ∧ t.render a ≠ t.render b

/-- Texts that differ have addresses that differ. -/
theorem UriTemplate.separates_of_nodup (t : UriTemplate) {ids : List Value} (h : ids.Nodup)
    (htexts : ∀ i ∈ ids, ∃ a, i = .str a) : t.Separates ids := by
  refine List.Pairwise.imp_of_mem (fun {i j} hi hj hne => ?_) h
  obtain ⟨a, rfl⟩ := htexts i hi
  obtain ⟨b, rfl⟩ := htexts j hj
  refine ⟨a, b, rfl, rfl, fun hsame => hne ?_⟩
  rw [t.render_injective hsame]

/-! ### Conversions -/

namespace Conversion

/-- The documents of a catalog refer to each other by addresses from a template. -/
def AddressedBy (c : Conversion) (catalog : String) (t : UriTemplate) : Prop :=
  ∃ table, c.linkage = some { catalog, addressing := .template t, table }

/-- Addresses stay what they are. -/
def KeepsAddresses (c d : Conversion) : Prop :=
  ∀ catalog t, c.AddressedBy catalog t → d.AddressedBy catalog t

instance : Std.Refl KeepsAddresses := ⟨fun _ _ _ h => h⟩

instance : Trans KeepsAddresses KeepsAddresses KeepsAddresses :=
  ⟨fun h₁ h₂ catalog t h => h₂ catalog t (h₁ catalog t h)⟩

/-- Addresses stay what they are as long as they are not replaced. -/
theorem keepsAddresses_of_linkage {c d : Conversion} (h : d.linkage = c.linkage) :
    KeepsAddresses c d := by
  intro catalog t hc
  unfold AddressedBy
  rw [h]
  exact hc

/-- A failure keeps addresses. -/
theorem fail_keepsAddresses {α : Type} (f : Failure) :
    Within KeepsAddresses (fail f : Action Conversion α) := by
  intro c
  obtain ⟨d, hrun, hrewrites, -⟩ := run_fail α f c
  rw [hrun]
  exact keepsAddresses_of_linkage hrewrites.linkage

/-- Finishing a document keeps addresses. -/
theorem finalize_keepsAddresses (v : Value) : Within KeepsAddresses (finalize v) := by
  refine .bind within_get fun c => ?_
  split
  · exact within_pure _
  · exact fail_keepsAddresses _

end Conversion

namespace Emission

variable {e : Emission} {c : Conversion} {catalog : String} {t : UriTemplate} {n : NodeId}

/-- Whatever comes of an emission, addresses stay what they are. -/
theorem document_keepsAddresses : Within KeepsAddresses e.document := by
  have hcompose : Within KeepsAddresses e.compose := by
    refine .bind (.bind within_get fun _ c => keepsAddresses_of_linkage rfl) fun _ =>
      .bind (fun c => keepsAddresses_of_linkage (hoist_hoists c).state_of_and.rewrites.linkage)
        fun _ => .bind (fun c => keepsAddresses_of_linkage (settleVisits_persists c).linkage)
          fun _ => ?_
    -- listing changes the table alone
    refine .bind within_get fun c => .bind (fun c catalog t h => ?_) fun _ => ?_
    · obtain ⟨table, hl⟩ := h
      exact ⟨_, congrArg (Option.map _) hl⟩
    · split
      · exact fail_keepsAddresses _
      · exact within_pure _
  refine .bind within_get fun c => ?_
  split
  · exact fail_keepsAddresses _
  · exact .bind hcompose fun entries => .bind (finalize_keepsAddresses _) fun json =>
      .bind (.bind within_get fun _ c => keepsAddresses_of_linkage rfl) fun _ => within_pure _

/-- A node with an id is referred to by the address of its document. -/
theorem referenceFor_document (hc : c.AddressedBy catalog t) {id : String}
    (hid : annotatedId c.store catalog n = .str id) (hne : id ≠ "") (v : Visit) :
    e.referenceFor n v c = (.ok (t.render id, none), c) := by
  obtain ⟨table, hl⟩ := hc
  have hdocument : documentId c.store c.linkage n = .str id := by
    rw [hl]
    exact hid
  have htruthy : (Value.str id).isTruthy = true := by simpa [Value.isTruthy] using hne
  unfold referenceFor
  rw [run_bind, run_get]
  simp only [hl] at hdocument ⊢
  rw [hdocument, if_pos htruthy]
  rfl

end Emission

/-! ### Exports -/

/-- Behind the conversion of a catalog, its documents refer to each other by the addresses that were
    asked for. -/
theorem Converter.documents_addressedBy {conv : Converter} {policy : EmissionSettings}
    {catalog : String} {t : UriTemplate} {c d : Conversion} {docs : List (Value × Json)}
    (h : Returns (conv.documents policy catalog (.template t)) c docs d) :
    d.AddressedBy catalog t := by
  have hemitAll : ∀ roots, Within KeepsAddresses (conv.emitAll policy roots) := by
    intro roots
    induction roots with
    | nil => exact within_pure _
    | cons r rest ih => exact document_keepsAddresses.bind fun _ => ih.bind fun _ => within_pure _
  obtain ⟨c', _, -, h₁⟩ := returns_bind.mp h
  obtain ⟨_, p, -, h₂⟩ := returns_bind.mp h₁
  obtain ⟨_, p', hlink, h₃⟩ := returns_bind.mp h₂
  obtain rfl := returns_modify.mp hlink
  -- After the linkage is set, every step leaves its catalog and addressing alone.
  have hrest : Within KeepsAddresses (do
      let docs ← conv.emitAll policy (c'.store.catalog catalog).ids
      let common := commonTable (← get)
      if common.isEmpty then pure docs
      else
        let table ← finalize (.dict common)
        let shared := Json.obj [(conv.guide.settings.target.definitionsKeyword, table)]
        pure (putDocument (.str sharedDocument) shared docs)) := by
    refine (hemitAll _).bind fun _ => within_get.bind fun c => ?_
    dsimp only
    split
    · exact within_pure _
    · exact (finalize_keepsAddresses _).bind fun _ => within_pure _
  exact hrest.of_returns h₃ catalog t ⟨[], rfl⟩

/-- **Addresses tell documents apart.** Every template that settings accept gives different
    addresses to different ids, whatever these look like.  So whenever a catalog is exported by the
    template of the settings, no two of its documents have the same address; no id of the catalog
    has the address of the document of the common definitions, unless it is the id of this document;
    and while documents refer to each other in this way, references to nodes with different ids are
    different, and none is the address of the common definitions of the others. -/
theorem Export.convertAll_addresses (x : Export) (haddressing : x.addressing = none)
    {settings : ExportSettings} (hsettings : x.settings = .ok settings) :
    (∀ t : UriTemplate, readTemplate (.str t.text) = .ok t ∧
      ∀ a b, t.render a = t.render b → a = b) ∧
    ∀ {catalog : String} {c d : Conversion} {docs : List (Value × Json)},
      (c.store.catalog catalog).Sound → Returns (x.convertAll catalog) c docs d →
      settings.uriTemplate.Separates (docs.map (·.1)) ∧
      ((∀ r ∈ (c.store.catalog catalog).ids, r.1 ≠ .str sharedDocument) →
        settings.uriTemplate.Separates
          ((c.store.catalog catalog).ids.map (·.1) ++ [.str sharedDocument])) ∧
      d.AddressedBy catalog settings.uriTemplate ∧
      ∀ {e e' : Emission} {p q : Conversion} {n m : NodeId} {a b : String} (v w : Visit),
        p.AddressedBy catalog settings.uriTemplate → q.AddressedBy catalog settings.uriTemplate →
        annotatedId p.store catalog n = .str a → annotatedId q.store catalog m = .str b →
        a ≠ "" → b ≠ "" → a ≠ b →
        ∃ ref ref', e.referenceFor n v p = (.ok (ref, none), p) ∧
          e'.referenceFor m w q = (.ok (ref', none), q) ∧ ref ≠ ref' ∧
          (a ≠ sharedDocument → ref ≠ settings.uriTemplate.render sharedDocument) := by
  refine ⟨fun t => ⟨readTemplate_eq_ok.mpr rfl, fun a b h => t.render_injective h⟩, ?_⟩
  intro catalog c d docs hsound h
  -- The documents are listed under different ids, all of them texts.
  have hlabelled := convertAll_labelled hsound h
  refine ⟨settings.uriTemplate.separates_of_nodup hlabelled.unique ?_, fun hnone => ?_, ?_, ?_⟩
  · intro i hi
    obtain ⟨doc, hdoc, rfl⟩ := List.mem_map.mp hi
    exact hlabelled.texts doc hdoc
  · refine settings.uriTemplate.separates_of_nodup ?_ fun i hi => ?_
    · refine List.nodup_append.mpr
        ⟨List.pairwise_map.mpr hsound.unique, List.nodup_singleton _, ?_⟩
      intro i hi j hj
      obtain ⟨r, hr, rfl⟩ := List.mem_map.mp hi
      rw [List.mem_singleton.mp hj]
      exact hnone r hr
    · rcases List.mem_append.mp hi with hi | hi
      · obtain ⟨r, hr, rfl⟩ := List.mem_map.mp hi
        exact hsound.texts r hr
      · exact ⟨_, List.mem_singleton.mp hi⟩
  · rw [Export.convertAll_eq hsettings, haddressing] at h
    exact Converter.documents_addressedBy h
  · intro e e' p q n m a b v w hp hq ha hb hane hbne hab
    exact ⟨_, _, referenceFor_document hp ha hane v, referenceFor_document hq hb hbne w,
      fun hsame => hab (settings.uriTemplate.render_injective hsame),
      fun hne hsame => hne (settings.uriTemplate.render_injective hsame)⟩

/-- Settings with a template in which the place of the id stands twice. -/
def twicePlaced : ExportSettings := { uriTemplate := ⟨"x/\x7bid\x7d/\x7bid\x7d", by decide⟩ }

/-- The export by these settings. -/
def twicePlacing : Export := { base := some twicePlaced }

/-- Two strings under ids that look like pieces of the template. -/
def bracedTexts : Conversion := (Export.twoTexts "\x7bid\x7d" "x/\x7bid\x7d").conversion

/-- The ids of the two strings agree with their annotations. -/
theorem bracedTexts_sound : (bracedTexts.store.catalog "texts").Sound := by
  have hfirst : Catalog.Sound
      { entries := [(.node 0, [(.str "id", .str "\x7bid\x7d")])]
        ids := [(.str "\x7bid\x7d", .node 0)] } :=
    Catalog.sound_empty.add (.inr ⟨"\x7bid\x7d", rfl⟩) (by rfl :
      Catalog.add {} (.node 0) [(.str "id", .str "\x7bid\x7d")] = .ok _)
  exact hfirst.add (.inr ⟨"x/\x7bid\x7d", rfl⟩) (by rfl :
    Catalog.add _ (.node 1) [(.str "id", .str "x/\x7bid\x7d")] = .ok _)

/-- The two strings are told apart by their addresses. -/
theorem Export.convertAll_addresses_bracedTexts :
    ∃ docs d, Returns (twicePlacing.convertAll "texts") bracedTexts docs d ∧
      docs.map (·.1) = [.str "\x7bid\x7d", .str "x/\x7bid\x7d"] ∧
      twicePlaced.uriTemplate.Separates (docs.map (·.1)) ∧
      ∃ ref ref', ({ root := .node 0 } : Emission).referenceFor (.node 0) {} d
          = (.ok (ref, none), d) ∧
        ({ root := .node 0 } : Emission).referenceFor (.node 1) {} d = (.ok (ref', none), d) ∧
        ref ≠ ref' ∧ ref ≠ twicePlaced.uriTemplate.render sharedDocument := by
  obtain ⟨docs, h⟩ : ∃ docs, Returns (twicePlacing.convertAll "texts") bracedTexts docs
      (twicePlacing.convertAll "texts" bracedTexts).2 := exists_returns (by decide +kernel)
  have hids : (twicePlacing.convertAll "texts" bracedTexts).1.toOption.map
      (fun docs => docs.map (·.1)) = some [.str "\x7bid\x7d", .str "x/\x7bid\x7d"] := by
    decide +kernel
  have hfirst : annotatedId (twicePlacing.convertAll "texts" bracedTexts).2.store "texts" (.node 0)
      = .str "\x7bid\x7d" := by decide +kernel
  have hsecond : annotatedId (twicePlacing.convertAll "texts" bracedTexts).2.store "texts" (.node 1)
      = .str "x/\x7bid\x7d" := by decide +kernel
  obtain ⟨-, hall⟩ := @Export.convertAll_addresses twicePlacing rfl twicePlaced rfl
  obtain ⟨hapart, -, haddressed, hrefs⟩ := hall bracedTexts_sound h
  obtain ⟨ref, ref', href, href', hne, hshared⟩ :=
    hrefs {} {} haddressed haddressed hfirst hsecond (by decide) (by decide) (by decide)
  rw [h] at hids
  exact ⟨docs, _, h, Option.some.inj hids, hapart, ref, ref', href, href', hne,
    hshared (by decide)⟩

end SchemaGraph
