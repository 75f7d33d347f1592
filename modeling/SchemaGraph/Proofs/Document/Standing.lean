import SchemaGraph.Export
import SchemaGraph.Proofs.Document.Composing
import SchemaGraph.Proofs.Survey.Cycles

namespace SchemaGraph

open SchemaGraph.Action Conversion Emission

/-!
# Documents that stand alone

The conversion of a node is one descent from the node and one document, which lists the
definitions of all other nodes itself.

* `Converter.Stands`      — what such a conversion runs through
* `Export.convert_stands` — every conversion of a node that returns runs through that
-/

/-- What a conversion runs through whose document stands alone: the descent and the mark of its
    root, up to `p`; hoisting and settling, up to `d`; and the list of definitions. -/
structure Converter.Stands (conv : Converter) (policy : EmissionSettings) (root : NodeId)
    (store : Store) (p d c : Conversion) (doc : Json) : Prop where
  begun : Returns (do conv.process root; (conv.emission policy root).claim) (start store) () p
  settled : Returns
    (do (conv.emission policy root).hoist; (conv.emission policy root).settleVisits) p () d
  stop : (listed d.survey.visits []).2 = none
  shows : d.view.Shows
    (.dict ((conv.emission policy root).assemble d.survey (listed d.survey.visits []).1)) doc
  behind : Rewrites d c
  survey : c.survey = d.survey

namespace Converter.Stands

variable {conv : Converter} {policy : EmissionSettings} {root : NodeId} {store : Store}
  {p d c : Conversion} {doc : Json}

section Descent

variable (h : conv.Stands policy root store p d c doc)
include h

/-- The descent before the root was marked. -/
theorem descent (hs : store.Closed) :
    ∃ p', Explores conv.guide [] [] (start store) p' ∧ p'.survey.has root = true ∧
      Rewrites p' p ∧ p.survey.visits = p'.survey.visits := by
  obtain ⟨_, p', hprocess, hclaim⟩ := returns_bind.mp h.begun
  obtain ⟨hexplores, hroot⟩ := process_explores (start_closed hs) hprocess
  obtain ⟨hrewrites, hvisits⟩ := claim_returns hclaim
  exact ⟨p', hexplores, hroot, hrewrites, hvisits⟩

/-- The root was visited. -/
theorem visited (hs : store.Closed) : p.survey.has root = true := by
  obtain ⟨p', -, hroot, hrewrites, -⟩ := h.descent hs
  rw [hrewrites.has]
  exact hroot

/-- A document that stands alone has no addresses across documents. -/
theorem alone (hs : store.Closed) : p.linkage = none := by
  obtain ⟨p', hexplores, -, hrewrites, -⟩ := h.descent hs
  rw [hrewrites.linkage, hexplores.descends.linkage]
  rfl

/-- No node is visited twice. -/
theorem nodup (hs : store.Closed) : p.survey.order.Nodup := by
  obtain ⟨p', hexplores, -, hrewrites, -⟩ := h.descent hs
  rw [hrewrites.order]
  exact hexplores.descends.nodup List.nodup_nil

/-- Hoisting and settling add to the store at most. -/
theorem adds : Adds p c :=
  (hoist_settle_adds.of_returns h.settled).trans (adds_of_rewrites h.behind)

/-- Hoisting and settling visit no node. -/
theorem has (n : NodeId) : c.survey.has n = p.survey.has n := by
  rw [Bool.eq_iff_iff, Survey.has_iff, Survey.has_iff, h.adds.order]

/-- The document is finished with what was there when settling was over. -/
theorem view : d.view = c.view := by
  unfold Conversion.view fragmentOf
  rw [h.survey, h.behind.store]
  rfl

/-- Hoisting begins with a survey that holds what the nodes contribute in the end. -/
theorem intact (hs : store.Closed) : p.survey.Intact conv.guide c.store := by
  obtain ⟨p', hexplores, -, hrewrites, hvisits⟩ := h.descent hs
  have hexplored := Explored.of_explores hexplores (not_has_start store)
  have hp' := (hexplores.descends.store (start_closed hs)).2
  refine Survey.Intact.of_visits ⟨?_, fun hv => hexplores.descends.entered rfl hv⟩ hvisits
  exact hexplored.mono (hrewrites.grows.trans h.adds.store) hp'

end Descent

end Converter.Stands

namespace Export

variable {x : Export} {settings : ExportSettings}

/-- With settings that can be read, the conversion of a node is that of its converter. -/
theorem convert_eq (hsettings : x.settings = .ok settings) (root : NodeId) :
    x.convert root = (x.converter settings (x.annotations.getD "global")).document
      settings.emission root := by
  unfold convert readSettings
  rw [hsettings]
  rfl

/-- With settings that can be read, the conversion of a catalog is that of its converter. -/
theorem convertAll_eq (hsettings : x.settings = .ok settings) (catalog : String) :
    x.convertAll catalog = (x.converter settings (x.annotations.getD catalog)).documents
      settings.emission catalog (x.addressing.getD (.template settings.uriTemplate)) := by
  unfold convertAll readSettings
  rw [hsettings]
  rfl

end Export

/-- **Conversions.** A conversion of a node that returns is a descent from the node and a document
    that stands alone. -/
theorem Export.convert_stands (x : Export) {settings : ExportSettings}
    (hsettings : x.settings = .ok settings) {store : Store} {root : NodeId} {doc : Json}
    {c : Conversion} (hs : store.Closed) (h : Returns (x.convert root) (start store) doc c) :
    ∃ p d, (x.converter settings (x.annotations.getD "global")).Stands settings.emission root
      store p d c doc := by
  rw [Export.convert_eq hsettings root] at h
  obtain ⟨_, p', hprocess, hemit⟩ := returns_bind.mp h
  obtain ⟨entries, f, -, hcompose, hdoc, hcompleted, hsurvey⟩ := document_returns hemit
  obtain ⟨p, d, hclaim, hdone, hlist⟩ := compose_returns hcompose
  obtain ⟨hstop, rfl, rfl⟩ := listDefinitions_returns hlist
  have halone : d.linkage = none := by
    obtain ⟨hexplores, -⟩ := Converter.process_explores (Converter.start_closed hs) hprocess
    rw [(hoist_settle_adds.of_returns hdone).linkage, (claim_returns hclaim).1.linkage,
      hexplores.descends.linkage]
    rfl
  rw [halone] at hstop hdoc
  exact ⟨p, d, returns_bind.mpr ⟨_, p', hprocess, hclaim⟩, hdone, hstop, hdoc,
    { store := hcompleted.store
      linkage := by rw [hcompleted.linkage, halone]; rfl
      number := hcompleted.number
      order := hcompleted.order }, hsurvey⟩

end SchemaGraph
