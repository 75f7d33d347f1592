import SchemaGraph.Proofs.Document.Protocol
import SchemaGraph.Proofs.Document.Showing

namespace SchemaGraph

open SchemaGraph.Action Conversion

/-!
# What a session shows

Roots are visited and documents emitted in any order.  The override is shown no node twice.  Behind
an emission that returns it was shown every node that no visited clone takes its content from,
provided that no emission before has broken off half-way.  What a descent has entered for clones
alone is never shown.

* `Conversion.Viewed`  — the nodes that were shown are finished, and marks are owed to clones
* `Conversion.Covered` — what is finished was shown, unless it is the source of a clone
* `Conversion.Hidden`  — a source that was not shown
* `Converter.Call.run_views`    — what one call shows
* `Converter.Desk.shown_once`   — which nodes a session shows
-/

namespace Conversion

variable {own ns : List NodeId} {c d : Conversion} {n : NodeId}

/-- What all sessions keep: the nodes that were shown are different and finished, targets are
    visited, and sources are marked for clones that were visited. -/
structure Viewed (c : Conversion) : Prop where
  closed : c.store.Closed
  anchored : c.survey.Anchored []
  nodup : c.seen.Nodup
  finished : ∀ n ∈ c.seen, c.survey.has n = true ∧ c.waits n = false
  owed : ∀ {n}, c.survey.isSource n = true →
    ∃ m, c.survey.has m = true ∧ c.store.source? m = some n

/-- Whatever is finished was shown, unless it is marked as the source of a clone. -/
def Covered (c : Conversion) : Prop :=
  ∀ n, c.survey.has n = true → c.waits n = false → c.survey.isSource n = false → n ∈ c.seen

/-- A node that is marked as the source of a clone and was not shown. -/
structure Hidden (c : Conversion) (n : NodeId) : Prop where
  source : c.survey.isSource n = true
  unseen : n ∉ c.seen

/-! ### Descents -/

/-- A descent shows nothing. -/
theorem Descends.seen (h : Descends own c d) : d.seen = c.seen := by
  unfold Conversion.seen
  rw [h.shown]

/-- Descents finish nothing. -/
theorem Descends.waits (h : Descends own c d) (hn : c.survey.has n = true) :
    d.waits n = c.waits n := by
  obtain ⟨v, hv⟩ := Survey.visit?_of_has hn
  obtain ⟨w, hw, hstage, -⟩ := h.visits hv
  rw [waits_of_visit? hv, waits_of_visit? hw]
  exact congrArg (fun stage => !stage.2.2) hstage

/-- What a descent enters waits. -/
theorem Descends.waits_entered (h : Descends own c d) (hc : c.survey.has n = false)
    (hd : d.survey.has n = true) : d.waits n = true := by
  obtain ⟨w, hw⟩ := Survey.visit?_of_has hd
  have hnone : c.survey.visit? n = none := by simpa [Survey.has] using hc
  have hstage := congrArg (·.2.2) (h.entered hnone hw)
  rw [waits_of_visit? hw, show w.merged = false from hstage]
  rfl

/-- A descent keeps what all sessions keep: it visits further nodes and marks further sources. -/
theorem Viewed.descends (h : Viewed c) (hd : Credits own c d) (ha : Anchors c d) : Viewed d where
  closed := (hd.store h.closed).2
  anchored := ha [] h.anchored
  nodup := hd.seen ▸ h.nodup
  finished n hn := by
    obtain ⟨hhas, hwaits⟩ := h.finished n (hd.seen ▸ hn)
    exact ⟨hd.has hhas, (hd.waits hhas).trans hwaits⟩
  owed hn := by
    rcases hd.owed h.closed hn with hold | hnew
    · obtain ⟨m, hm, hsource⟩ := h.owed hold
      exact ⟨m, hd.has hm, Store.source?_mono (hd.store h.closed).1 hsource⟩
    · exact hnew

/-- A descent finishes nothing, so what is finished stays covered. -/
theorem Covered.descends (h : Covered c) (hd : Credits own c d) : Covered d := by
  intro n hn hwaits hsource
  cases hc : c.survey.has n with
  | false =>
    rw [hd.waits_entered hc hn] at hwaits
    cases hwaits
  | true =>
    rw [hd.seen]
    refine h n hc ((hd.waits hc).symm.trans hwaits) ?_
    cases hold : c.survey.isSource n with
    | false => rfl
    | true => rw [hd.kept hold] at hsource; cases hsource

/-- A source that was hidden stays hidden. -/
theorem Hidden.descends (h : Hidden c n) (hd : Credits own c d) : Hidden d n :=
  ⟨hd.kept h.source, hd.seen ▸ h.unseen⟩

/-! ### Emissions -/

/-- Where the outlines are the same, a node is a clone of the same source. -/
theorem Outlines.source? (h : Outlines c d) (n : NodeId) :
    d.store.source? n = c.store.source? n := by
  unfold Store.source?
  rw [h.node?]

/-- What is shown by an emission was not shown before: it waited. -/
theorem Viewed.views (h : Viewed c) (hd : Views ns c d) (ho : Outlines c d) : Viewed d where
  closed := ho.closed h.closed
  anchored := hd.anchors [] h.anchored
  nodup := by
    rw [hd.seen]
    refine List.nodup_append.mpr ⟨h.nodup, hd.nodup, ?_⟩
    -- A node that is shown now was waiting, and one that was shown before was finished.
    rintro n hn _ hm rfl
    have hfinished := (h.finished n hn).2
    rw [(hd.shown n hm).1] at hfinished
    cases hfinished
  finished n hn := by
    rw [ho.has]
    rw [hd.seen] at hn
    rcases List.mem_append.mp hn with hn | hn
    · obtain ⟨hhas, hwaits⟩ := h.finished n hn
      refine ⟨hhas, ?_⟩
      cases hdn : d.waits n with
      | false => rfl
      | true => rw [hd.waits hdn] at hwaits; cases hwaits
    · obtain ⟨hwaits, hdone, -⟩ := hd.shown n hn
      obtain ⟨v, hv, -⟩ := visit?_of_waits hwaits
      exact ⟨Survey.has_of_visit? hv, hdone⟩
  owed hn := by
    obtain ⟨m, hm, hsource⟩ := h.owed (hd.sources ▸ hn)
    exact ⟨m, (ho.has m).trans hm, (ho.source? m).trans hsource⟩

/-- An emission that completes shows what it finishes. -/
theorem Covered.views (h : Covered c) (hd : Views ns c d) (ho : Outlines c d)
    (hall : Completes ns c d) : Covered d := by
  intro n hn hwaits hsource
  have hsource : c.survey.isSource n = false := hd.sources ▸ hsource
  rw [hd.seen]
  cases hc : c.waits n with
  | true => exact List.mem_append_right _ (hall n hc hwaits hsource)
  | false => exact List.mem_append_left _ (h n ((ho.has n).symm.trans hn) hc hsource)

/-- An emission shows no source that was hidden. -/
theorem Hidden.views (h : Hidden c n) (hd : Views ns c d) : Hidden d n where
  source := hd.sources ▸ h.source
  unseen hn := by
    rw [hd.seen] at hn
    rcases List.mem_append.mp hn with hn | hn
    · exact h.unseen hn
    · have hnone := (hd.shown n hn).2.2
      rw [h.source] at hnone
      cases hnone

end Conversion

namespace Converter

variable {conv : Converter} {o : Override} {desk : Desk}

/-- Visiting a root credits the nodes it arrives at, and belongs to no node itself. -/
theorem process_credits (root : NodeId) : Within (Credits []) (conv.process root) :=
  .bind (visit_credits root [] []) fun _ => .bind within_get fun _ =>
    onStore_credits fun s => (Store.log_makes _ s).keeps

/-- Visiting a root marks the sources of the clones it visits. -/
theorem process_anchors (root : NodeId) : Within Anchors (conv.process root) :=
  .bind (visit_anchors root [] []) fun _ => .bind within_get fun _ => onStore_anchors _

/-- The root of a call that visits one. -/
def Call.visits? : Call → Option NodeId
  | .process root => some root
  | .visit n _ _ => some n
  | .emit .. => none

/-- **One call.** A call descends, or it shows what it finishes; only an emission that breaks off
    half-way, at an annotation that holds no list, leaves out some of it. -/
theorem Call.run_views (ho : conv.override = some o) (hlasting : o.Lasting)
    (hanchored : desk.conversion.survey.Anchored []) (call : Call) :
    let c := desk.conversion
    let d := (call.run conv desk).2.conversion
    (call.visits?.isSome ∧ Credits [] c d ∧ Anchors c d) ∨
      call.visits? = none ∧ ∃ ns, Views ns c d ∧ Outlines c d ∧
        ((call.run conv desk).1 ≠ .error .missingChild → Completes ns c d) := by
  intro c d
  cases call with
  | process root => exact .inl ⟨rfl, process_credits root c, process_anchors root c⟩
  | visit n ancestors path =>
    exact .inl ⟨rfl, visit_credits n ancestors path c, visit_anchors n ancestors path c⟩
  | emit external policy root =>
    -- Loading and keeping addresses show nothing; what the document shows is told by the emission.
    let b := desk.load external
    have hload : Still c b := { }
    have hloaded : Outlines c b := { }
    obtain ⟨ns, hviews, hall⟩ := Emission.document_exhibits (e := conv.emission policy root) ho hlasting b
      hanchored
    have houtlines : Outlines b _ := Emission.document_outlines (e := conv.emission policy root) b
    have hkeep : Still ((conv.emission policy root).document b).2 d := { }
    have hkept : Outlines ((conv.emission policy root).document b).2 d := { }
    have hbefore := hload.views.trans hviews
    refine .inr ⟨rfl, _, hbefore.trans hkeep.views, (hloaded.trans houtlines).trans hkept,
      fun hf => ?_⟩
    refine (Completes.trans hload.completes hload.views (hall fun h => hf ?_)).trans hbefore
      hkeep.completes
    show Except.map some ((conv.emission policy root).document b).1 = _
    rw [h]
    rfl

/-- Behind an emission that returns everything is finished. -/
theorem emit_finishes {external : Option Nat} {policy : EmissionSettings} {root : NodeId}
    (hok : ((Call.emit external policy root).run conv desk).1.isOk = true) (n : NodeId) :
    ((Call.emit external policy root).run conv desk).2.conversion.waits n = false := by
  have hdocument := isOk_of_map (f := some)
    (r := ((conv.emission policy root).document (desk.load external)).1) hok
  obtain ⟨doc, hreturns⟩ := exists_returns hdocument
  exact Emission.document_finishes hreturns n

/-- A call that descends and returns has marked what it has entered below its root for clones
    alone. -/
theorem Call.run_marks {call : Call} {root : NodeId} (hroot : call.visits? = some root)
    (hs : desk.conversion.store.Closed) (hok : (call.run conv desk).1.isOk = true) {n : NodeId}
    (hnew : desk.conversion.survey.has n = false)
    (hn : (call.run conv desk).2.conversion.survey.has n = true) (hne : n ≠ root)
    (hclones : ∀ m, (call.run conv desk).2.conversion.survey.has m = true →
      (call.run conv desk).2.conversion.store.Edge conv.guide.settings.side m n →
      (call.run conv desk).2.conversion.store.source? m = some n) :
    (call.run conv desk).2.conversion.survey.isSource n = true := by
  cases call with
  | emit external policy r => cases hroot
  | visit r ancestors path =>
    obtain rfl := Option.some.inj hroot
    have hvisit := isOk_of_map (f := fun _ : Unit => (none : Option Json))
      (r := (Conversion.visit conv.guide r ancestors path desk.conversion).1) hok
    obtain ⟨_, hreturns⟩ := exists_returns hvisit
    exact visit_marks hs hreturns hnew hn hne hclones
  | process r =>
    obtain rfl := Option.some.inj hroot
    have hprocess := isOk_of_map (f := fun _ : Unit => (none : Option Json))
      (r := (conv.process r desk.conversion).1) hok
    obtain ⟨_, hreturns⟩ := exists_returns hprocess
    obtain ⟨_, e, hvisit, hlog⟩ := returns_bind.mp hreturns
    -- nothing happens behind the descent but an event
    have houtlines : Outlines e (conv.process r desk.conversion).2 ∧
        (conv.process r desk.conversion).2.survey = e.survey := by
      obtain ⟨_, _, hget, hlog⟩ := returns_bind.mp hlog
      obtain ⟨rfl, rfl⟩ := returns_get.mp hget
      rw [← congrArg (·.2) hlog]
      exact ⟨{ }, rfl⟩
    obtain ⟨houtlines, hsurvey⟩ := houtlines
    have hmark := visit_marks (m := n) hs hvisit hnew (hsurvey ▸ hn) hne fun m hm hedge => by
      rw [← houtlines.source?]
      exact hclones m (hsurvey ▸ hm) ((houtlines.edge_iff m n).mpr hedge)
    exact hsurvey ▸ hmark

namespace Desk

/-- No emission of a run breaks off half-way, at an annotation that asks for something besides but
    holds no list. -/
def unbroken (conv : Converter) : List Call → Desk → Bool
  | [], _ => true
  | call :: rest, desk =>
    (call.visits?.isSome || decide ((call.run conv desk).1 ≠ .error .missingChild)) &&
      unbroken conv rest (call.run conv desk).2

/-- Calls may be run in two portions. -/
theorem runAll_append (before after : List Call) (desk : Desk) :
    (runAll conv (before ++ after) desk).2 = (runAll conv after (runAll conv before desk).2).2 := by
  induction before generalizing desk with
  | nil => rfl
  | cons call rest ih =>
    rw [List.cons_append, runAll_cons, runAll_cons]
    exact ih _

/-- A run keeps what all sessions keep: induction on the calls. -/
theorem viewed_runAll (ho : conv.override = some o) (hlasting : o.Lasting)
    (h : desk.conversion.Viewed) (calls : List Call) :
    (runAll conv calls desk).2.conversion.Viewed := by
  induction calls generalizing desk with
  | nil => exact h
  | cons call rest ih =>
    rw [runAll_cons]
    refine ih ?_
    rcases call.run_views ho hlasting h.anchored with ⟨-, hcredits, hanchors⟩ | ⟨-, ns, hviews, houtlines, -⟩
    · exact h.descends hcredits hanchors
    · exact h.views hviews houtlines

/-- A run that never breaks off keeps what is finished covered: induction on the calls. -/
theorem covered_runAll (ho : conv.override = some o) (hlasting : o.Lasting)
    (hview : desk.conversion.Viewed) (h : desk.conversion.Covered) {calls : List Call}
    (hunbroken : unbroken conv calls desk = true) :
    (runAll conv calls desk).2.conversion.Covered := by
  induction calls generalizing desk with
  | nil => exact h
  | cons call rest ih =>
    obtain ⟨hcall, hrest⟩ := (Bool.and_eq_true ..).mp hunbroken
    rw [runAll_cons]
    rcases call.run_views ho hlasting hview.anchored with
      ⟨-, hcredits, hanchors⟩ | ⟨hemits, ns, hviews, houtlines, hall⟩
    · exact ih (hview.descends hcredits hanchors) (h.descends hcredits) hrest
    · rw [hemits, Option.isSome_none, Bool.false_or] at hcall
      exact ih (hview.views hviews houtlines)
        (h.views hviews houtlines (hall (of_decide_eq_true hcall))) hrest

/-- No call shows a hidden source: induction on the calls. -/
theorem hidden_runAll (ho : conv.override = some o) (hlasting : o.Lasting)
    (hview : desk.conversion.Viewed) {n : NodeId} (h : desk.conversion.Hidden n)
    (calls : List Call) : (runAll conv calls desk).2.conversion.Hidden n := by
  induction calls generalizing desk with
  | nil => exact h
  | cons call rest ih =>
    rw [runAll_cons]
    rcases call.run_views ho hlasting hview.anchored with
      ⟨-, hcredits, hanchors⟩ | ⟨-, ns, hviews, houtlines, -⟩
    · exact ih (hview.descends hcredits hanchors) (h.descends hcredits)
    · exact ih (hview.views hviews houtlines) (h.views hviews)

/-- At the start of a session nothing was visited and nothing shown. -/
theorem viewed_start {store : Store} (hs : store.Closed) (externals : List Linkage) :
    Viewed (conversion { conversion := start store, externals }) where
  closed := start_closed hs
  anchored _ _ _ hv := by cases hv
  nodup := List.nodup_nil
  finished := nofun
  owed hn := by cases hn

/-- Behind an emission that returns, and none before having broken off half-way, a node that no clone
    takes its content from was shown once. -/
theorem count_seen_emit (ho : conv.override = some o) (hlasting : o.Lasting)
    (hview : desk.conversion.Viewed) (hcovered : desk.conversion.Covered) {external : Option Nat}
    {policy : EmissionSettings} {root n : NodeId}
    (hok : ((Call.emit external policy root).run conv desk).1.isOk = true)
    (hn : ((Call.emit external policy root).run conv desk).2.conversion.survey.has n = true)
    (hclones : ∀ m,
      ((Call.emit external policy root).run conv desk).2.conversion.survey.has m = true →
      ((Call.emit external policy root).run conv desk).2.conversion.store.source? m ≠ some n) :
    ((Call.emit external policy root).run conv desk).2.conversion.seen.count n = 1 := by
  rcases (Call.emit external policy root).run_views ho hlasting hview.anchored with
    ⟨hvisits, -⟩ | ⟨-, ns, hviews, houtlines, hall⟩
  · cases hvisits
  have hemitted := hview.views hviews houtlines
  have hcompletes := hall fun hf => by
    rw [hf] at hok
    cases hok
  -- a mark is owed to a clone, and there is none
  have hsource : ((Call.emit external policy root).run conv desk).2.conversion.survey.isSource n
      = false := by
    by_contra hmark
    obtain ⟨m, hm, hsource⟩ := hemitted.owed (n := n) (by simpa using hmark)
    exact hclones m hm hsource
  exact List.count_eq_one_of_mem hemitted.nodup
    (hcovered.views hviews houtlines hcompletes n hn (emit_finishes hok n) hsource)

/-- What a call has entered below its root, and for clones alone, is never shown. -/
theorem unseen_visited (ho : conv.override = some o) (hlasting : o.Lasting)
    (hview : desk.conversion.Viewed) {call : Call} {root n : NodeId}
    (hroot : call.visits? = some root) (hok : (call.run conv desk).1.isOk = true)
    (hnew : desk.conversion.survey.has n = false)
    (hn : (call.run conv desk).2.conversion.survey.has n = true) (hne : n ≠ root)
    (hclones : ∀ m, (call.run conv desk).2.conversion.survey.has m = true →
      (call.run conv desk).2.conversion.store.Edge conv.guide.settings.side m n →
      (call.run conv desk).2.conversion.store.source? m = some n) (after : List Call) :
    n ∉ (runAll conv after (call.run conv desk).2).2.conversion.seen := by
  rcases call.run_views ho hlasting hview.anchored with ⟨-, hcredits, hanchors⟩ | ⟨hemits, -⟩
  swap
  · rw [hroot] at hemits
    cases hemits
  have hhidden : (call.run conv desk).2.conversion.Hidden n := by
    refine ⟨call.run_marks hroot hview.closed hok hnew hn hne hclones, fun hmem => ?_⟩
    rw [hcredits.seen] at hmem
    rw [(hview.finished n hmem).1] at hnew
    cases hnew
  exact (hidden_runAll ho hlasting (hview.descends hcredits hanchors) hhidden after).unseen

/-- **What an override is shown.** An override that never fails is shown no node twice.  Behind an
    emission that returns, and no earlier one having broken off half-way, it was shown every visited
    node once, unless a visited clone takes its content from the node.  A node that a descent that
    returns has entered below its root, and that clones alone lead to, is not shown, whatever is
    called later. -/
theorem shown_once (ho : conv.override = some o) (hlasting : o.Lasting) {store : Store}
    (hs : store.Closed) (externals : List Linkage) (calls : List Call) :
    let desk : Desk := { conversion := start store, externals }
    let behind := (runAll conv calls desk).2
    behind.conversion.seen.Nodup ∧
    (∀ external policy root, unbroken conv calls desk = true →
      let emitted := (Call.emit external policy root).run conv behind
      emitted.1.isOk = true → ∀ n, emitted.2.conversion.survey.has n = true →
        (∀ m, emitted.2.conversion.survey.has m = true →
          emitted.2.conversion.store.source? m ≠ some n) →
        emitted.2.conversion.seen.count n = 1) ∧
    ∀ before call after root, calls = before ++ call :: after → call.visits? = some root →
      let here := (runAll conv before desk).2
      let visited := call.run conv here
      visited.1.isOk = true → ∀ n, here.conversion.survey.has n = false →
        visited.2.conversion.survey.has n = true → n ≠ root →
        (∀ m, visited.2.conversion.survey.has m = true →
          visited.2.conversion.store.Edge conv.guide.settings.side m n →
          visited.2.conversion.store.source? m = some n) →
        n ∉ behind.conversion.seen := by
  intro desk behind
  have hstart : desk.conversion.Viewed := viewed_start hs externals
  have hview := viewed_runAll ho hlasting hstart
  refine ⟨(hview calls).nodup, ?_, ?_⟩
  · intro external policy root hunbroken emitted hok n hn hclones
    have hcovered : behind.conversion.Covered :=
      covered_runAll ho hlasting hstart (fun _ hn => by cases hn) hunbroken
    exact count_seen_emit ho hlasting (hview calls) hcovered hok hn hclones
  -- A source that a call enters is hidden from then on, whatever is called behind it.
  · intro before call after root hcalls hroot here visited hok n hnew hn hne hclones
    show n ∉ (runAll conv calls desk).2.conversion.seen
    rw [hcalls, runAll_append, runAll_cons]
    exact unseen_visited ho hlasting (hview before) hroot hok hnew hn hne hclones after

/-- A text, a clone of it, and a number beside the clone. -/
def clonedText : Store where
  nodes := [{ kind := .string }, { kind := .string, parent := .node 0 }, { kind := .number },
    { kind := .union, options := [.node 1, .node 2] }]

/-- An override that gives every node a title. -/
def titled : Override := .ofRules [{ edits := [.set (.str "title") (.str "x")] }]

/-- A converter with the override. -/
def titling : Converter := { override := some titled }

/-- The text is there for its clone alone and is not shown; the number is shown once. -/
theorem shown_once_clonedText :
    clonedText.Closed ∧ titled.Lasting ∧
      ((Call.emit none {} (.node 3)).run titling (runAll titling [.process (.node 3)]
        { conversion := start clonedText }).2).2.conversion.seen.count (.node 2) = 1 ∧
      .node 0 ∉ (runAll titling [.process (.node 3), .emit none {} (.node 3)]
        { conversion := start clonedText }).2.conversion.seen := by
  have hs : clonedText.Closed := .of_forall (by decide) (by decide) nofun
  have hlasting : titled.Lasting := fun _ _ _ => rfl
  refine ⟨hs, hlasting, ?_, ?_⟩
  · have honce := (@shown_once titling titled rfl hlasting clonedText hs []
      [.process (.node 3)]).2.1 none {} (.node 3) (by decide +kernel) (by decide +kernel) (.node 2)
      (by decide +kernel)
    refine honce ?_
    simp only [Survey.has_iff]
    decide +kernel
  · have hnever := (@shown_once titling titled rfl hlasting clonedText hs []
      [.process (.node 3), .emit none {} (.node 3)]).2.2 [] (.process (.node 3))
      [.emit none {} (.node 3)] (.node 3) rfl rfl (by decide +kernel) (.node 0)
      (by decide +kernel) (by decide +kernel) (by decide)
    refine hnever ?_
    simp only [Survey.has_iff, ← Store.mem_children]
    decide +kernel

/-- A text, a clone of it, and the union of both. -/
def clonedBeside : Store where
  nodes := [{ kind := .string }, { kind := .string, parent := .node 0 },
    { kind := .union, options := [.node 0, .node 1] }]

/-- The text is an alternative of the union and the source of its clone.  It is visited, and an
    edge leads to it from a node that is no clone; still it is not shown. -/
theorem shown_omits :
    let desk : Desk := { conversion := start clonedBeside }
    let visited := (Call.process (.node 2)).run titling desk
    let emitted := (Call.emit none {} (.node 2)).run titling visited.2
    visited.1.isOk = true ∧ emitted.1.isOk = true ∧
      emitted.2.conversion.survey.has (.node 0) = true ∧
      emitted.2.conversion.store.Edge .output (.node 2) (.node 0) ∧
      emitted.2.conversion.store.source? (.node 2) = none ∧
      emitted.2.conversion.seen = [.node 1, .node 2] := by
  intro desk visited emitted
  exact ⟨by decide +kernel, by decide +kernel, by decide +kernel,
    Store.mem_children.mp (by decide +kernel), by decide +kernel, by decide +kernel⟩

end Desk

end Converter

end SchemaGraph
