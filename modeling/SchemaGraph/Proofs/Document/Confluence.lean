import SchemaGraph.Proofs.Document.Meaning
import SchemaGraph.Proofs.Document.Revealing
import SchemaGraph.Proofs.Document.Turns
import SchemaGraph.Proofs.Document.Wrapping
import SchemaGraph.Proofs.Survey.Modesty

namespace SchemaGraph

open SchemaGraph.Action Conversion Emission

/-!
# Settling in any order

Roots are visited and documents emitted in any order, without an override.  When an emission has
made its definitions, content is not passed on in a circle, and no annotation asks for anything
besides, then the visited nodes may be settled in any order.  Each node that waits is finished once,
behind its target, and ends up with its own keywords over the fragment that the target has in the
end.  What was finished by an earlier emission stays as it is, even if its target has become a
definition since.

* `Visit.Filled`          — a visit with the content of its target
* `Converter.Steady`      — what all calls keep
* `Converter.Desk.settled_in_any_order` — the order makes no difference
-/

/-- A visit with the content of its target, as this is in the end: its own keywords over those in
    the fragment of the target.  In the dialect that ignores all keywords beside a reference, a
    reference becomes the only element of `allOf`. -/
structure Visit.Filled (target : Target) (d : Conversion) (v w : Visit) : Prop where
  finished : w = v.finished target d.survey.fragment
  own : v.target = none → w.body = v.body
  behind : ∀ t, v.target = some t → d.survey.has t = true ∧ d.waits t = false
  keys : ∀ t, v.target = some t →
    ¬ ((d.survey.fragment t).has Visit.refKey = true ∧ target = .draft7) → ∀ key,
      w.body.get? key = (v.body.get? key).or ((d.survey.fragment t).get? key)
  reference : ∀ t, v.target = some t → (d.survey.fragment t).has Visit.refKey = true →
    target = .draft7 →
      v.body.get? allOfKey = none ∧ w.body = v.body.set allOfKey (.list [.fragment t])

/-- No annotation asks for anything besides. -/
theorem Store.undemanding_of_forall {s : Store} {catalog : String}
    (h : ∀ p ∈ (s.catalog catalog).entries, p.2.get? "allOf" = none) (n : NodeId) :
    s.Undemanding catalog n := fun notes hn => h (n, notes) (Catalog.mem_of_get? hn)

namespace Conversion

variable {guide : Guide} {c d : Conversion}

/-- Content is not passed on in a circle if a number decreases on the way. -/
theorem acyclic_of_visits (rank : NodeId → Nat)
    (h : (c.survey.visits.all fun p => p.2.target.all fun t => rank t < rank p.1) = true) (n : NodeId) :
    ¬ Relation.TransGen c.Next n n := by
  refine Store.acyclic_of_rank rank ?_ n
  rintro m t ⟨v, hv, ht⟩
  have hrank := List.all_eq_true.mp h (m, v) (Survey.mem_visits hv)
  simpa [ht] using hrank

/-- What was modest remains so while what it holds remains. -/
theorem Modest.remains (h : c.Modest guide) (hs : c.store.Closed) (hd : Remains c d)
    (ho : Outlines c d) : d.Modest guide := by
  intro n w hw hwaits
  obtain ⟨v, hv⟩ := Survey.visit?_of_has ((ho.has n).symm.trans (Survey.has_of_visit? hw))
  obtain ⟨w', hw', hvw⟩ := hd.visits hv
  obtain rfl := Option.some.inj (hw.symm.trans hw')
  have hmodest := (h n v hv (hvw.unmerged hwaits)).grows (hd.store hs).1
  exact hmodest.note (hvw.waits hwaits) hvw.target

/-- While visits and targets remain, nothing becomes outstanding. -/
theorem Remains.anchors (hd : Remains c d) (ho : Outlines c d) : Anchors c d := by
  intro outstanding h n w t hw ht
  obtain ⟨v, hv⟩ := Survey.visit?_of_has ((ho.has n).symm.trans (Survey.has_of_visit? hw))
  obtain ⟨w', hw', hvw⟩ := hd.visits hv
  obtain rfl := Option.some.inj (hw.symm.trans hw')
  rw [ho.has]
  exact h n v t hv (hvw.target.symm.trans ht)

end Conversion

namespace Converter

variable {conv : Converter} {c d : Conversion}

/-- What all calls of a session without an override keep: targets are visited, and what waits for
    its target asks for nothing besides, unless its annotation does. -/
structure Steady (conv : Converter) (c : Conversion) : Prop where
  closed : c.store.Closed
  kempt : c.Kempt
  anchored : c.survey.Anchored []
  modest : c.Modest conv.guide

/-- An emission keeps a session steady. -/
theorem Steady.emission (h : Steady conv c) (hup : Upkeeps c d) (ho : Outlines c d) :
    Steady conv d := by
  obtain ⟨hkempt, hremains⟩ := hup h.kempt
  exact
    { closed := ho.closed h.closed
      kempt := hkempt
      anchored := hremains.anchors ho [] h.anchored
      modest := h.modest.remains h.closed hremains ho }

/-- Where content is not passed on in a circle, and annotations ask for nothing besides, settling
    runs through. -/
theorem Steady.smooth (h : Steady conv c) (hacyclic : ∀ n, ¬ Relation.TransGen c.Next n n)
    (hundemanding : ∀ n, c.store.Undemanding conv.guide.catalog n) : c.Smooth where
  next := by
    rintro n m ⟨v, hv, hm⟩
    exact (h.anchored n v m hv hm).resolve_right List.not_mem_nil
  acyclic := hacyclic
  spared {n v} hv hwaits hsome := by
    have hmodest := h.modest n v hv hwaits
    obtain ⟨node, lead, hn, hlead⟩ := hmodest.passes hsome
    exact hmodest.spared node lead hn hlead (hundemanding n)

/-- Visiting a root keeps visits modest. -/
theorem process_restrains (root : NodeId) :
    Within (Restrains conv.guide []) (conv.process root) :=
  .bind (visit_restrains root [] []) fun _ => .bind within_get fun _ =>
    onStore_restrains fun s => (Store.log_makes _ s).keeps

/-- **One call.** Whatever comes of a call, a session stays steady. -/
theorem Call.run_steady (hoverride : conv.override = none) {desk : Desk}
    (h : Steady conv desk.conversion) (call : Call) :
    Steady conv (call.run conv desk).2.conversion := by
  have hup := call.run_upkeeps hoverride desk
  -- Visits of both kinds keep to the same three relations.
  have hvisit : ∀ {d}, Upkeeps desk.conversion d → Anchors desk.conversion d →
      Restrains conv.guide [] desk.conversion d → Steady conv d := by
    intro d hup hanchors hrestrains
    refine ⟨(hrestrains.store h.closed).2, (hup h.kempt).1, hanchors [] h.anchored, ?_⟩
    exact hrestrains.modest h.closed (fun _ hp => absurd hp List.not_mem_nil) h.modest
  cases call with
  | process root =>
    exact hvisit hup (process_anchors root desk.conversion)
      (process_restrains root desk.conversion)
  | visit n ancestors path =>
    exact hvisit hup (visit_anchors n ancestors path desk.conversion)
      (visit_restrains n ancestors path desk.conversion)
  | emit external policy root =>
    have hload : Outlines desk.conversion (desk.load external) := { }
    have hdocument : Outlines (desk.load external) _ :=
      document_outlines (e := conv.emission policy root) (desk.load external)
    have hkeep : Outlines ((conv.emission policy root).document (desk.load external)).2
        ((Call.emit external policy root).run conv desk).2.conversion := { }
    exact h.emission hup ((hload.trans hdocument).trans hkeep)

/-- When the definitions of an emission are made, a session is steady. -/
theorem Steady.hoist {e : Emission} (h : Steady conv c)
    (hhoisted : Returns (do e.claim; e.hoist) c () d) : Steady conv d := by
  have hclaim : Within Upkeeps e.claim :=
    .bind within_get fun _ _ => .of_visits (.refl _) rfl fun _ => rfl
  have hclaimed : Within Outlines e.claim := .bind within_get fun _ _ => { }
  have hhoist : Within Upkeeps e.hoist := fun c => (hoist_hoists c).state_of_and.upkeeps
  have hhoists : Within Outlines e.hoist := fun c => (hoist_hoists c).state_of_and.outlines
  exact h.emission ((hclaim.bind fun _ => hhoist).of_returns hhoisted)
    ((hclaimed.bind fun _ => hhoists).of_returns hhoisted)

namespace Desk

/-- **Sessions are steady**, whatever is called. -/
theorem runAll_steady (hoverride : conv.override = none) (calls : List Call) {desk : Desk}
    (h : Steady conv desk.conversion) : Steady conv (runAll conv calls desk).2.conversion := by
  induction calls generalizing desk with
  | nil => exact h
  | cons call rest ih =>
    rw [runAll_cons]
    exact ih (call.run_steady hoverride h)

/-- A session starts steadily, with no visit at all. -/
theorem steady_start {store : Store} (hs : store.Closed) : Steady conv (start store) where
  closed := start_closed hs
  kempt := kempt_start store
  anchored _ _ _ hv := by cases hv
  modest _ _ hv := by cases hv

end Desk

end Converter

namespace Emission

variable {e : Emission} {c d : Conversion} {ns : List NodeId} {n : NodeId} {v : Visit}

/-- A node that had its turn is filled. -/
theorem Turns.filled (h : e.Turns c ns d) (hc : c.Smooth) (hd : d.Kempt)
    (hdone : ∀ n, d.waits n = false) (hbody : v.body.Distinct) (hv : c.survey.visit? n = some v)
    (hwaits : v.merged = false) :
    ∃ w, d.survey.visit? n = some w ∧ v.Filled e.target d w := by
  have hn : n ∈ ns := h.mem_of_waits (by rw [waits_of_visit? hv, hwaits]; rfl) (hdone n)
  refine ⟨_, h.visit?_of_mem hn hv, rfl, fun ht => ?_, fun t ht => ?_, fun t ht hbare key => ?_,
    fun t ht href htarget => ?_⟩
  · simp only [Visit.finished, ht]
    rfl
  · exact ⟨h.has.trans (hc.next ⟨v, hv, ht⟩), hdone t⟩
  -- Entries of the target with different keys, so that what stands under a key can be told.
  · have hbelow : (d.survey.fragment t).Distinct := by
      unfold Survey.fragment
      cases hu : d.survey.visit? t with
      | none => exact .nil
      | some u => exact (hd.tidy t u hu).fragment
    rw [Visit.finished_of_some ht, Visit.body_withBody]
    unfold inherited
    rw [if_neg hbare, get?_mergeBelow hbody hbelow]
  · refine ⟨hc.spared hv hwaits (by rw [ht]; rfl), ?_⟩
    rw [Visit.finished_of_some ht, Visit.body_withBody]
    unfold inherited
    rw [if_pos ⟨href, htarget⟩]

end Emission

namespace Converter.Desk

variable {conv : Converter}

/-- **Settling in any order.** In a session without an override, behind any calls, an emission has
    made its definitions.  If content is not passed on in a circle, and no annotation asks for
    anything besides, then settling the visited nodes leaves the same conversion in whatever order
    they are settled.  Each node that waits has one turn, which is the turn of its visit alone and
    comes behind that of its target.  It ends up with its own keywords over the fragment that its
    target has in the end, while visits that an earlier emission has finished stay as they are. -/
theorem settled_in_any_order (hoverride : conv.override = none) {store : Store} (hs : store.Closed)
    (externals : List Linkage) (calls : List Call) (external : Option Nat)
    (policy : EmissionSettings) (root : NodeId) {c : Conversion}
    (hhoisted : Returns (do (conv.emission policy root).claim; (conv.emission policy root).hoist)
      ((runAll conv calls { conversion := start store, externals }).2.load external) () c)
    (hacyclic : ∀ n, ¬ Relation.TransGen c.Next n n)
    (hundemanding : ∀ n, c.store.Undemanding conv.guide.catalog n) :
    let e := conv.emission policy root
    ∃ d, Returns e.settleVisits c () d ∧
      (∀ order : List NodeId, order.Perm c.survey.order → ∀ links, c.survey.size < links →
        Returns (e.settleAll links order) c () d ∧
          ∃ turns, Returns (e.settleAllTold links order) c turns d ∧ e.Turns c turns d ∧
            turns.Nodup ∧ ∀ n, n ∈ turns ↔ c.waits n = true) ∧
      ∀ n v, c.survey.visit? n = some v → ∃ w, d.survey.visit? n = some w ∧
        (v.merged = true → w = v) ∧ (v.merged = false → v.Filled e.target d w) := by
  intro e
  have hloaded : Steady conv
      ((runAll conv calls { conversion := start store, externals }).2.load external) :=
    (runAll_steady hoverride calls (steady_start hs)).emission
      (.of_visits (.refl _) rfl fun _ => rfl) { }
  have hsteady := hloaded.hoist hhoisted
  have hsmooth := hsteady.smooth hacyclic hundemanding
  obtain ⟨d, hdone, hall⟩ := settleAllTold_unique (e := e) hoverride hsmooth
  have horder : ∀ order : List NodeId, order.Perm c.survey.order → ∀ links,
      c.survey.size < links → ∃ turns, Returns (e.settleAllTold links order) c turns d ∧
        e.Turns c turns d := by
    intro order hperm links hlinks
    exact hall links hlinks order fun n => hperm.mem_iff.trans (Survey.has_iff _ n).symm
  have hsettle : ∀ {order links turns}, Returns (e.settleAllTold links order) c turns d →
      Returns (e.settleAll links order) c () d := by
    intro order links turns h
    rw [settleAll_eq_told]
    exact returns_bind.mpr ⟨turns, d, h, returns_pure.mpr ⟨rfl, rfl⟩⟩
  -- the order of an emission is one of them
  obtain ⟨turns, hrun, hturns⟩ := horder c.survey.order.reverse (List.reverse_perm _)
    (c.survey.size + 1) (by omega)
  have hvisits : Returns e.settleVisits c () d :=
    returns_bind.mpr ⟨c, c, returns_get.mpr ⟨rfl, rfl⟩, hsettle hrun⟩
  have hkempt : d.Kempt := ((upkeeps_preserved e.target c).settleVisits hoverride hvisits
    ⟨hsteady.kempt, .of_visits (.refl _) rfl fun _ => rfl⟩).1
  refine ⟨d, hvisits, fun order hperm links hlinks => ?_, fun n v hv => ?_⟩
  · obtain ⟨turns, hrun, hturns⟩ := horder order hperm links hlinks
    refine ⟨hsettle hrun, turns, hrun, hturns, hturns.nodup, fun n => ?_⟩
    exact ⟨hturns.waits_of_mem, fun hn => hturns.mem_of_waits hn (hdone n)⟩
  · cases hmerged : v.merged with
    | true =>
      have hfinished := (settleVisits_advances.of_returns hvisits).finished hv hmerged
      exact ⟨v, hfinished, fun _ => rfl, nofun⟩
    | false =>
      obtain ⟨w, hw, hfilled⟩ := hturns.filled hsmooth hkempt hdone
        (hsteady.kempt.tidy n v hv).body hv hmerged
      exact ⟨w, hw, nofun, fun _ => hfilled⟩

/-- A text with an id, the text as one that is read only, and that as an optional one. -/
def labelledText : Store where
  nodes := [{ kind := .string }, { kind := .readonly, inner := .node 0 },
    { kind := .optional, inner := .node 1 }]
  catalogs := [("global",
    { entries := [(.node 0, [(.str "id", .str "S")])], ids := [(.str "S", .node 0)] })]

/-- The optional text, when the definitions of its document were made. -/
def labelledHoisted : Conversion :=
  let e := older.emission {} (.node 2)
  ((do e.claim; e.hoist : Action Conversion Unit)
    ((runAll older [.process (.node 2)] { conversion := start labelledText }).2.load none)).2

/-- The text that is read only may be settled first; it asks for the text then. -/
theorem settled_in_any_order_labelledText :
    labelledText.Closed ∧ ∃ d turns w,
      Returns ((older.emission {} (.node 2)).settleAllTold 4 [.node 1, .node 0, .node 2])
        labelledHoisted turns d ∧ turns.Nodup ∧
      d.survey.visit? (.node 1) = some w ∧
      w.body = [(.str "readOnly", .bool true), (allOfKey, .list [.fragment (.node 0)])] := by
  have hs : labelledText.Closed := .of_forall (by decide) (by decide) nofun
  obtain ⟨_, hhoisted⟩ := @exists_returns Conversion Unit
    (do (older.emission {} (.node 2)).claim; (older.emission {} (.node 2)).hoist)
    ((runAll older [.process (.node 2)] { conversion := start labelledText }).2.load none)
    (by decide +kernel)
  have hacyclic : ∀ n, ¬ Relation.TransGen labelledHoisted.Next n n :=
    acyclic_of_visits ([NodeId.node 0, .node 1, .node 2].idxOf ·) (by decide +kernel)
  have hundemanding : ∀ n, labelledHoisted.store.Undemanding older.guide.catalog n :=
    Store.undemanding_of_forall (by decide +kernel)
  obtain ⟨d, -, horder, hvisits⟩ := settled_in_any_order rfl hs [] [.process (.node 2)] none {}
    (.node 2) hhoisted hacyclic hundemanding
  have hperm : [NodeId.node 1, .node 0, .node 2].Perm labelledHoisted.survey.order := by
    decide +kernel
  obtain ⟨-, turns, hrun, -, hnodup, -⟩ := horder _ hperm 4 (by decide +kernel)
  -- the text is a definition, and its fragment the reference to it
  have htext : labelledHoisted.survey.visit? (.node 0) = some
      { fragment := [(Visit.refKey, .str "#/definitions/S")]
        definition := some [(.str "type", .str "string"), (.str "id", .str "S")]
        definitionId := .str "S" } := by decide +kernel
  have hguarded : labelledHoisted.survey.visit? (.node 1) = some
      { fragment := [(.str "readOnly", .bool true)], target := some (.node 0) } := by
    decide +kernel
  obtain ⟨u, hu, -, htextfilled⟩ := hvisits _ _ htext
  obtain ⟨w, hw, -, hfilled⟩ := hvisits _ _ hguarded
  have href : (d.survey.fragment (.node 0)).has Visit.refKey = true := by
    unfold Survey.fragment
    rw [hu, (htextfilled rfl).finished]
    rfl
  exact ⟨hs, d, turns, w, hrun, hnodup, hw, ((hfilled rfl).reference _ rfl href rfl).2⟩

/-- The text that is read only was finished by the document that it is the root of.  Then the text
    became a definition. -/
def guardedHoisted : Conversion :=
  let e := Converter.emission {} {} (.node 0)
  ((do e.claim; e.hoist : Action Conversion Unit)
    ((runAll {} [.process (.node 1), .emit (some 0) {} (.node 1)]
      { conversion := start guardedText, externals := [addressing] }).2.load (some 0))).2

/-- The same when all visited nodes are settled. -/
def guardedSettled : Conversion :=
  ((Converter.emission {} {} (.node 0)).settleVisits guardedHoisted).2

/-- What is read only stays with the content that the text had when it was finished, though in the
    end the fragment of the text is a reference. -/
theorem settled_before :
    let e := Converter.emission {} {} (.node 0)
    let desk := (runAll {} [.process (.node 1), .emit (some 0) {} (.node 1)]
      { conversion := start guardedText, externals := [addressing] }).2
    Returns (do e.claim; e.hoist) (desk.load (some 0)) () guardedHoisted ∧
      (∀ n, ¬ Relation.TransGen guardedHoisted.Next n n) ∧
      (∀ n, guardedHoisted.store.Undemanding "global" n) ∧
      Returns e.settleVisits guardedHoisted () guardedSettled ∧
      (guardedSettled.survey.visit? (.node 1)).map (·.target) = some (some (.node 0)) ∧
      guardedSettled.survey.fragment (.node 0)
        = [(Visit.refKey, .str "u:__shared#/$defs/schema1")] ∧
      (guardedSettled.survey.visit? (.node 1)).map (·.body)
        = some [(.str "readOnly", .bool true), (.str "type", .str "string")] := by
  intro e desk
  obtain ⟨_, hhoisted⟩ := @exists_returns Conversion Unit (do e.claim; e.hoist)
    (desk.load (some 0)) (by decide +kernel)
  obtain ⟨_, hsettled⟩ := @exists_returns Conversion Unit e.settleVisits guardedHoisted
    (by decide +kernel)
  -- One node passes the other on, which was settled and hoisted by the call before.
  refine ⟨hhoisted, acyclic_of_visits ([NodeId.node 0, .node 1].idxOf ·) (by decide +kernel),
    Store.undemanding_of_forall (by decide +kernel), hsettled, ?_, ?_, ?_⟩ <;> decide +kernel

end Converter.Desk

end SchemaGraph
