import SchemaGraph.Proofs.Document.Finishing
import SchemaGraph.Proofs.Document.Repeating
import SchemaGraph.Proofs.Survey.Leaves

namespace SchemaGraph

open SchemaGraph.Action Conversion

/-!
# Documents of nodes that only write

A node that only writes is visited alone.  Its fragment becomes the definition of the root, nothing
is listed beside it, and the document is the fragment with the address of the dialect.

* `Emission.document_holding` — the document of a survey with one visit
* `Export.convert_writes`     — the document of a node that only writes, under its annotation
-/

/-! ### Mappings of data -/

namespace Value

variable {es : Entries}

/-- Plain data is a document. -/
theorem IsData.document_eq {v : Value} (h : v.IsData) :
    ∃ doc, v.document = .ok doc ∧ ofJson doc = v.unmarked := by
  obtain ⟨doc, hdoc, hsame⟩ := h.toJson_eq
  refine ⟨doc, ?_, hsame⟩
  unfold document
  rw [hdoc]
  rfl

/-- A mapping is data if its keys are texts, each once, and its values are data. -/
theorem isData_dict : (Value.dict es).IsData ↔ es.Formed ∧ es.Each IsData :=
  ⟨fun h => by cases h with | dict hes h => exact ⟨hes, h⟩, fun h => .dict h.1 h.2⟩

/-- Data stays data with one more value. -/
theorem IsData.set (h : (Value.dict es).IsData) (key : String) {v : Value} (hv : v.IsData) :
    (Value.dict (es.set key v)).IsData := by
  obtain ⟨hes, h⟩ := isData_dict.mp h
  exact isData_dict.mpr ⟨hes.set key v, h.set _ hv⟩

/-- Data stays data with other data over it. -/
theorem IsData.update (h : (Value.dict es).IsData) {news : Entries}
    (hnews : (Value.dict news).IsData) : (Value.dict (es.update news)).IsData := by
  obtain ⟨hes, h⟩ := isData_dict.mp h
  obtain ⟨hnews, hvalues⟩ := isData_dict.mp hnews
  exact isData_dict.mpr ⟨hes.update hnews.texts, h.update hvalues⟩

/-- Without marks, the value of a key is the one without marks. -/
theorem get?_unmarkedEntries (key : Value) (es : Entries) :
    Entries.get? key (unmarkedEntries es) = (es.get? key).map unmarked := by
  induction es with
  | nil => rfl
  | cons p rest ih =>
    obtain ⟨k, v⟩ := p
    rw [unmarkedEntries, Entries.get?, Entries.get?, ih]
    split <;> rfl

/-- What stands under a name is the member of that name. -/
theorem get?_ofJsonMembers (name : String) (ms : List (String × Json)) :
    Entries.get? (.str name) (ofJsonMembers ms) = (Json.lookup? name ms).map ofJson := by
  induction ms with
  | nil => rfl
  | cons m rest ih =>
    obtain ⟨k, j⟩ := m
    rw [ofJsonMembers, Entries.get?, Json.lookup?, ih, canonical_str, canonical_str]
    by_cases hk : k = name
    · rw [if_pos hk, if_pos (congrArg Value.str hk)]
      rfl
    · rw [if_neg hk, if_neg fun heq => hk (Value.str.inj heq)]

/-- The members of a document are the entries that it was made of. -/
theorem member?_of_unmarked {doc : Json} (h : ofJson doc = (Value.dict es).unmarked)
    (name : String) : (doc.member? name).map ofJson = (es.get? (.str name)).map unmarked := by
  rw [← get?_unmarkedEntries]
  rw [unmarked] at h
  cases doc with
  | obj ms =>
    rw [ofJson] at h
    rw [← Value.dict.inj h, get?_ofJsonMembers]
    rfl
  | _ => cases h

end Value

/-! ### One visit -/

namespace Emission

variable {e : Emission} {c : Conversion} {v : Visit}

/-- A conversion that holds a visit finds it. -/
theorem run_visitOf_holding {n : NodeId} (hn : c.survey.has n = false) (v : Visit) :
    Conversion.visitOf n (c.holding n v) = (.ok v, c.holding n v) := by
  rw [run_visitOf, visit?_holding hn]
  rfl

/-- Where nothing has been visited, a node is new. -/
theorem not_has_of_unvisited (hc : c.survey.visits = []) (n : NodeId) :
    c.survey.has n = false := by
  simp [Survey.has, Survey.visit?, hc, Survey.find?]

/-- A conversion that holds one visit has visited one node. -/
theorem order_holding (hc : c.survey.visits = []) (n : NodeId) (v : Visit) :
    (c.holding n v).survey.order = [n] := by
  simp [holding, Survey.order, hc]

/-- The reference to the root of a document that stands alone is empty. -/
theorem run_referenceFor_root (hl : c.linkage = none) (v : Visit) :
    e.referenceFor e.root v c = (.ok ("#", none), c) := by
  unfold referenceFor
  rw [run_bind, run_get]
  dsimp only
  rw [hl]
  dsimp only
  rw [if_pos rfl]
  rfl

/-- The one visit becomes the definition of the root. -/
theorem run_hoist_holding (hc : c.survey.visits = []) (hl : c.linkage = none)
    (hv : v.isReference = false) :
    ∃ event, e.hoist (c.holding e.root v)
      = (.ok (), { c with store := c.store.record event }.holding e.root (define v "#" none)) := by
  have hhoisted : e.isHoisted (c.holding e.root v).store (c.holding e.root v).linkage e.root v
      = true := by
    simp [isHoisted, hasOwnAddress]
  have hnew := not_has_of_unvisited hc e.root
  unfold hoist
  rw [run_bind, run_get]
  dsimp only
  rw [order_holding hc]
  unfold hoistAll
  rw [run_bind, run_get]
  dsimp only
  rw [run_bind, run_visitOf_holding hnew]
  dsimp only
  -- The root is hoisted, and has an address of its own.
  rw [if_neg fun h => h.2.1 rfl, if_pos hhoisted]
  unfold extract
  simp only [run_bind, run_visitOf_holding hnew, hv, Bool.false_eq_true, if_false,
    run_referenceFor_root (c := c.holding e.root v) hl, run_onVisit_holding hnew]
  exact ⟨_, rfl⟩

/-- A definition that takes nothing over is settled as it is. -/
theorem run_settleVisits_holding (hc : c.survey.visits = []) (hoverride : e.override = none)
    (hmerged : v.merged = false) (htarget : v.target = none) :
    e.settleVisits (c.holding e.root v) = (.ok (), c.holding e.root { v with merged := true }) := by
  have hnew := not_has_of_unvisited hc e.root
  unfold settleVisits
  rw [run_bind, run_get]
  dsimp only
  rw [order_holding hc]
  show e.settleAll _ [e.root] _ = _
  unfold settleAll settle
  simp only [run_bind, run_visitOf_holding hnew, hmerged, Bool.false_eq_true, if_false,
    run_onVisit_holding hnew, htarget, hoverride, run_pure]
  rfl

/-- Of one definition, that of the root, nothing is listed. -/
theorem reply_one (hc : c.survey.visits = []) (hid : v.definitionId = .null) {es : Entries}
    (hdefined : v.definition = some es) :
    e.reply (c.holding e.root v) = ((c.holding e.root v).view.settle
      (.dict (es.set "$schema" (.str e.target.schemaUri)))).document := by
  have hvisits : (c.holding e.root v).survey.visits = [(e.root, v)] := by simp [holding, hc]
  have hlisted : listed (c.holding e.root v).survey.visits [] = ([], none) := by
    rw [hvisits]
    simp [listed, hid, Value.isTruthy]
  have hdefinition : (c.holding e.root v).survey.definition e.root = es := by
    simp [Survey.definition, Survey.visit?, hvisits, Survey.find?, hdefined]
  unfold reply
  rw [hlisted]
  dsimp only
  unfold assemble
  rw [hdefinition]
  rfl

/-- **One visit.** The document of a survey with one visit, which takes nothing over and refers to
    no other place, is its fragment with the address of the dialect. -/
theorem document_holding {es : Entries} (hc : c.survey.visits = [])
    (hemitted : c.survey.emitted = []) (halone : c.survey.standalone = false)
    (hl : c.linkage = none) (hoverride : e.override = none) (hes : es.has Visit.refKey = false)
    (hdata : (Value.dict (es.set "$schema" (.str e.target.schemaUri))).IsData) :
    (e.document (c.holding e.root { fragment := es })).1
      = (Value.dict (es.set "$schema" (.str e.target.schemaUri))).document := by
  have hroot : (c.holding e.root { fragment := es }).survey.has e.root = true := by
    rw [Survey.has, visit?_holding (not_has_of_unvisited hc e.root)]
    rfl
  have hrefusal : e.refusal? (c.holding e.root { fragment := es }) = none := by
    rw [refusal?_first (c := c.holding e.root { fragment := es }) hl hroot hemitted halone]
    simp [holding, hc, Survey.cycles]
  obtain ⟨event, hhoist⟩ := run_hoist_holding (e := e) (c := e.claimed c)
    (v := { fragment := es }) hc hl hes
  have hsettle := run_settleVisits_holding
    (c := { e.claimed c with store := (e.claimed c).store.record event })
    (v := define { fragment := es } "#" none) hc hoverride rfl rfl
  have hstage : Returns e.stage (e.claimed (c.holding e.root { fragment := es })) () _ :=
    returns_bind.mpr ⟨_, _, hhoist, hsettle⟩
  rw [document_alone (c := c.holding e.root { fragment := es }) hl hrefusal hstage hl]
  refine (reply_one hc rfl rfl).trans ?_
  exact congrArg Value.document (View.settle_of_isData hdata)

end Emission

namespace Export

variable {x : Export} {settings : ExportSettings} {node : Node} {n : NodeId}
  {ws : List (String × Value)} {s : Store}

/-- The annotation of a node that an export goes by. -/
def notesOf (x : Export) (s : Store) (n : NodeId) : Entries :=
  ((s.catalog (x.annotations.getD "global")).get? n).getD []

/-- **Documents.** The document of a node that only writes holds its keywords, under its annotation,
    and the address of the dialect, if all of it is data and nothing refers to another place. -/
theorem convert_writes (hsettings : x.settings = .ok settings) (hoverride : x.override = none)
    (hn : s.node? n = some node) (h : node.Writes settings.lowering ws)
    (hdata : (Value.dict (Entries.keyed ws)).IsData) (hnotes : (Value.dict (x.notesOf s n)).IsData)
    (href : ((Entries.keyed ws).update (x.notesOf s n)).has Visit.refKey = false) :
    ∃ doc d, Returns (x.convert n) (start s) doc d ∧ Value.ofJson doc = (Value.dict
      (((Entries.keyed ws).update (x.notesOf s n)).set "$schema"
        (.str settings.lowering.target.schemaUri))).unmarked := by
  let conv := x.converter settings (x.annotations.getD "global")
  obtain ⟨event, hprocess⟩ := conv.process_writes (c := start s) (n := n) hn h rfl
  have hall := (hdata.update hnotes).set "$schema" (.str settings.lowering.target.schemaUri)
  obtain ⟨doc, hdoc, hsame⟩ := hall.document_eq
  have hemit := Emission.document_holding (e := conv.emission settings.emission n)
    (c := { start s with store := (start s).store.record event }) rfl rfl rfl rfl hoverride href
    hall
  have hreturns : Returns (conv.emit settings.emission n) _ doc _ :=
    Prod.ext (hemit.trans hdoc) rfl
  rw [convert_eq hsettings]
  exact ⟨doc, _, returns_bind.mpr ⟨_, _, hprocess, hreturns⟩, hsame⟩

end Export

end SchemaGraph
