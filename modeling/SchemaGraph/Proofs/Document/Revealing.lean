import SchemaGraph.Proofs.Document.Heeding

namespace SchemaGraph

open SchemaGraph.Action Conversion Emission

/-!
# What an override finds in a session

Roots are visited and documents emitted in any order.  A node that passes content on is shown to the
override when its target was shown, in the same emission or in an earlier one, and what it is shown
takes over the fragment of the target: what the override has made of the target, or the reference to
it if the target is a definition by then.

* `Conversion.Bare`     — the fragments of definitions are references
* `Conversion.Readies`  — bodies and targets are the same, and nothing is shown
* `Emission.document_reveals`    — what an emission shows
* `Converter.Desk.Finds`         — what the override finds when it is shown a node
* `Converter.Desk.bodies_heeded` — what a session shows
-/

namespace Conversion

variable {o : Override} {target : Target} {c d f : Conversion} {n : NodeId} {v : Visit}

/-- The fragment of a definition is a reference, and nothing else. -/
def Bare (c : Conversion) : Prop :=
  ∀ n v, c.survey.visit? n = some v → v.definition.isSome →
    ∃ ref, v.fragment = [(Visit.refKey, .str ref)]

/-- The same nodes were visited, and have the same bodies; nothing is finished or shown. -/
structure Readies (c d : Conversion) : Prop where
  store : Store.Grows c.store d.store
  number : d.survey.number = c.survey.number
  order : d.survey.order = c.survey.order
  shown : d.shown = c.shown
  visits : ∀ {n v}, c.survey.visit? n = some v → ∃ w, d.survey.visit? n = some w ∧
    w.body = v.body ∧ w.progress = v.progress

/-- Whatever leaves visits, the number of the survey and what was shown alone readies a conversion.
    -/
theorem Readies.of_survey (hstore : Store.Grows c.store d.store)
    (hnumber : d.survey.number = c.survey.number) (hvisits : d.survey.visits = c.survey.visits)
    (hshown : d.shown = c.shown) : Readies c d where
  store := hstore
  number := hnumber
  order := by unfold Survey.order; rw [hvisits]
  shown := hshown
  visits hv := ⟨_, (Survey.visit?_of_visits hvisits _).trans hv, rfl, rfl⟩

/-- Two stretches that show nothing show nothing together. -/
theorem Readies.trans (h₁ : Readies c d) (h₂ : Readies d f) : Readies c f where
  store := h₁.store.trans h₂.store
  number := h₂.number.trans h₁.number
  order := h₂.order.trans h₁.order
  shown := h₂.shown.trans h₁.shown
  visits hv := by
    obtain ⟨w, hw, hbody, hprogress⟩ := h₁.visits hv
    obtain ⟨x, hx, hbody', hprogress'⟩ := h₂.visits hw
    exact ⟨x, hx, hbody'.trans hbody, hprogress'.trans hprogress⟩

/-- The same nodes were visited. -/
theorem Readies.has (h : Readies c d) (n : NodeId) : d.survey.has n = c.survey.has n := by
  rw [Bool.eq_iff_iff, Survey.has_iff, Survey.has_iff, h.order]

/-- A visit behind, and the one that it was. -/
theorem Readies.back (h : Readies c d) {w : Visit} (hw : d.survey.visit? n = some w) :
    ∃ v, c.survey.visit? n = some v ∧ w.body = v.body ∧ w.progress = v.progress := by
  obtain ⟨v, hv⟩ := Survey.visit?_of_has ((h.has n).symm.trans (Survey.has_of_visit? hw))
  obtain ⟨w', hw', hbody, hprogress⟩ := h.visits hv
  obtain rfl := Option.some.inj (hw'.symm.trans hw)
  exact ⟨v, hv, hbody, hprogress⟩

/-- Nothing is finished or shown. -/
theorem Readies.still (h : Readies c d) : Still c d := by
  refine .of_progress h.order (by unfold Conversion.seen; rw [h.shown]) fun n => ?_
  cases hv : c.survey.visit? n with
  | none => rw [visit?_none h.order hv]
  | some v =>
    obtain ⟨w, hw, -, hprogress⟩ := h.visits hv
    rw [hw, Option.map_some, Option.map_some, hprogress]

/-- What was shown stays covered by bodies. -/
theorem Readies.covered (h : Readies c d) (hc : c.Covered) : d.Covered := by
  intro n hn hwaits hsource
  rw [h.still.seen]
  exact hc n ((h.has n).symm.trans hn) (h.still.waits ▸ hwaits) (h.still.sources ▸ hsource)

/-- What the override made of the bodies stays heeded. -/
theorem Readies.heeds (h : Readies c d) (hc : c.Heeds o) : d.Heeds o := by
  intro p hp
  rw [h.shown] at hp
  obtain ⟨v, s, hv, hmerged, hs, hbody⟩ := hc p hp
  obtain ⟨w, hw, hsame, hprogress⟩ := h.visits hv
  exact ⟨w, s, hw, (congrArg (·.2.1) hprogress).trans hmerged, hs.trans h.store, hsame.trans hbody⟩

/-- Whether definitions are bare depends on the visits alone. -/
theorem Bare.of_visits (h : c.Bare) (hvisits : d.survey.visits = c.survey.visits) : d.Bare :=
  fun n v hv => h n v ((Survey.visit?_of_visits hvisits n).symm.trans hv)

/-- What leaves definitions what they are leaves them bare. -/
theorem Bare.persists (h : c.Bare) (hd : Persists c d) : d.Bare := by
  intro n w hw hdefined
  obtain ⟨v, hv, hpersists⟩ := hd.back hw
  have hdefined : v.definition.isSome := hpersists.hoisted ▸ hdefined
  rw [hpersists.fragment hdefined]
  exact h n v hv hdefined

/-- Descents leave definitions bare. -/
theorem Bare.descends (h : c.Bare) (hd : Descends [] c d) : d.Bare := by
  intro n w hw hdefined
  cases hv : c.survey.visit? n with
  | none =>
    rw [show w.definition = none from congrArg (·.1) (hd.entered hv hw)] at hdefined
    cases hdefined
  | some v =>
    obtain ⟨w', hw', hstage, -, hcontent⟩ := hd.visits hv
    obtain rfl := Option.some.inj (hw'.symm.trans hw)
    rw [show w'.fragment = v.fragment from congrArg (·.1) (hcontent List.not_mem_nil)]
    exact h n v hv ((congrArg (·.1) hstage : w'.definition = v.definition) ▸ hdefined)

/-- Descents leave what is heeded. -/
theorem Heeds.descends (h : c.Heeds o) (hs : c.store.Closed) (hd : Descends [] c d) :
    d.Heeds o := by
  intro p hp
  rw [hd.shown] at hp
  obtain ⟨v, s, hv, hmerged, hgrows, hbody⟩ := h p hp
  obtain ⟨w, hw, hstage, -, hcontent⟩ := hd.visits hv
  refine ⟨w, s, hw, (congrArg (·.2.2) hstage).trans hmerged, hgrows.trans (hd.store hs).1, ?_⟩
  rw [← hbody]
  unfold Visit.body
  rw [show w.definition = v.definition from congrArg (·.1) hstage,
    show w.fragment = v.fragment from congrArg (·.1) (hcontent List.not_mem_nil)]

end Conversion

namespace Emission

variable {e : Emission} {o : Override} {c d f : Conversion} {n : NodeId} {v : Visit}

/-! ### Emissions -/

/-- Making definitions leaves bodies alone: what becomes a definition was none before. -/
theorem Hoists.readies (h : Hoists e c d) (hc : c.Bare) (hshown : d.shown = c.shown) :
    Readies c d ∧ d.Bare := by
  -- A definition leaves a bare reference behind, so what is not one has no definition.
  have hbody : ∀ {n v}, c.survey.visit? n = some v → v.isReference = false →
      v.definition = none := by
    intro n v hv hfresh
    cases hdefinition : v.definition with
    | none => rfl
    | some body =>
      obtain ⟨ref, hbare⟩ := hc n v hv (hdefinition ▸ rfl)
      rw [Visit.isReference, hbare] at hfresh
      cases hfresh
  refine ⟨⟨h.rewrites.grows, h.rewrites.number, h.rewrites.order, hshown, fun {n v} hv => ?_⟩,
    fun n w hw hdefined => ?_⟩
  · rcases h.visits hv with hsame | ⟨hfresh, ref, id, -, hmade⟩
    · exact ⟨v, hsame, rfl, rfl⟩
    · refine ⟨_, hmade, ?_, rfl⟩
      unfold Visit.body
      rw [hbody hv hfresh]
      rfl
  · obtain ⟨v, hv⟩ := Survey.visit?_of_has
      ((h.rewrites.has n).symm.trans (Survey.has_of_visit? hw))
    rcases h.visits hv with hsame | ⟨-, ref, id, -, hmade⟩
    · obtain rfl := Option.some.inj (hw.symm.trans hsame)
      exact hc n w hv hdefined
    · obtain rfl := Option.some.inj (hw.symm.trans hmade)
      exact ⟨ref, rfl⟩

/-- Nothing changes but the store, which grows, and tables of definitions. -/
structure Spends (c d : Conversion) : Prop where
  store : Store.Grows c.store d.store := by exact .refl _
  survey : d.survey = c.survey := by rfl
  shown : d.shown = c.shown := by rfl

instance : Std.Refl Spends := ⟨fun _ => { }⟩

instance : Trans Spends Spends Spends where
  trans h₁ h₂ := ⟨h₁.store.trans h₂.store, h₂.survey.trans h₁.survey, h₂.shown.trans h₁.shown⟩

/-- A failure changes nothing. -/
theorem fail_spends {α : Type} (f : Failure) : Within Spends (fail f : Action Conversion α) := by
  intro c
  obtain ⟨d, hrun, hrewrites, hsurvey⟩ := run_fail α f c
  have hshown := carries_quiet.fail α f c
  rw [hrun] at hshown ⊢
  exact ⟨hrewrites.grows, hsurvey, hshown⟩

/-- Listing the definitions changes only the table of them. -/
theorem listDefinitions_spends : Within Spends e.listDefinitions := by
  refine .bind within_get fun c => .bind (fun d => { }) fun _ => ?_
  split
  · exact fail_spends _
  · exact within_pure _

/-- Finishing a document changes only events. -/
theorem finalize_spends (x : Value) : Within Spends (finalize x) := by
  refine .bind within_get fun c => ?_
  split
  · exact within_pure _
  · exact fail_spends _

/-- The last stage of an emission touches the tables and the store only. -/
theorem completed_spends : Within Spends e.completed :=
  .bind within_get fun _ d => ⟨(log_rewrites _ d).grows, rfl, rfl⟩

/-- What an emission runs through: definitions are made, visits are settled if it comes to that, and
    the rest concerns the store alone. -/
def Passes (e : Emission) (c d : Conversion) : Prop :=
  ∃ p q, Readies c p ∧ p.Bare ∧ (q = p ∨ q = (e.settleVisits p).2) ∧ Spends q d

/-- What an emission runs through may be followed by changes to tables and the store. -/
theorem Passes.spends (h : e.Passes c d) (hd : Spends d f) : e.Passes c f := by
  obtain ⟨p, q, hp, hbare, hq, hqd⟩ := h
  exact ⟨p, q, hp, hbare, hq, Trans.trans hqd hd⟩

/-- Whatever comes of an emission, this is what it runs through. -/
theorem document_passes (hc : c.Bare) : e.Passes c (e.document c).2 := by
  -- Claiming and hoisting only make ready; whatever is shown is shown while visits are settled.
  have hcompose : Meets e.compose c (fun _ => e.Passes c) (e.Passes c) := by
    refine .bind (P := fun _ p => Readies c p ∧ p.Bare)
      ⟨.of_survey (.refl _) rfl rfl rfl, hc.of_visits rfl⟩ ?_
    rintro _ b ⟨hb, hbare⟩
    obtain ⟨hready, hbare⟩ := (hoist_hoists (e := e) b).state_of_and.readies hbare
      (carries_quiet.hoist b)
    have hp := hb.trans hready
    refine .bind (P := fun _ p => Readies c p ∧ p.Bare) ?_ ?_
    · exact (meets_of_state ⟨hp, hbare⟩).mono (fun _ _ h => h)
        fun p ⟨hp, hbare⟩ => ⟨p, p, hp, hbare, .inl rfl, { }⟩
    rintro _ p ⟨hp, hbare⟩
    refine .bind (P := fun _ q => q = (e.settleVisits p).2) ?_ ?_
    · exact (meets_of_state (P := (· = (e.settleVisits p).2)) rfl).mono (fun _ _ h => h)
        fun q hq => ⟨p, q, hp, hbare, .inr hq, { }⟩
    rintro _ q hq
    exact meets_of_state ⟨p, q, hp, hbare, .inr hq, listDefinitions_spends q⟩
  have hdocument : Meets e.document c (fun _ => e.Passes c) (e.Passes c) := by
    refine .bind (P := fun x d => c = x ∧ c = d) ⟨rfl, rfl⟩ ?_
    rintro _ _ ⟨rfl, rfl⟩
    split
    · exact meets_of_state ⟨c, c, .of_survey (.refl _) rfl rfl rfl, hc, .inl rfl, fail_spends _ c⟩
    · refine .bind hcompose fun entries d hd => ?_
      have hrest : Within Spends (do
          let json ← finalize (.dict entries)
          e.completed
          pure json) :=
        .bind (finalize_spends _) fun _ => .bind completed_spends fun _ => within_pure _
      exact meets_of_state (hd.spends (hrest d))
  exact hdocument.state

/-- **Emissions.** What an emission shows waited before, and builds on the targets. -/
theorem document_reveals (ho : e.override = some o) (hlasting : o.Lasting) (hbare : c.Bare)
    (hheeds : c.Heeds o) (hanchored : c.survey.Anchored []) (hcovered : c.Covered) :
    let d := (e.document c).2
    d.Bare ∧ d.Heeds o ∧ ∀ before n body, before ++ [(n, body)] <+: d.shown → c.shown <+: before →
      ∃ v, c.survey.visit? n = some v ∧ v.merged = false ∧
        ∀ t, v.target = some t → ¬ Relation.TransGen d.Next n n →
          d.BuildsOn e.target c before v.body t body := by
  intro d
  obtain ⟨p, q, hp, hbare, hq, hd⟩ := document_passes (e := e) hbare
  have hreveals : Reveals o e.target (fun _ => True) p q := by
    rcases hq with rfl | rfl
    · exact .refl _
    · exact settleVisits_reveals ho hlasting (hp.still.anchors [] hanchored) (hp.covered hcovered)
  have hvisits : d.survey.visits = q.survey.visits := congrArg (·.visits) hd.survey
  refine ⟨(hbare.persists hreveals.persists).of_visits hvisits, fun r hr => ?_,
    fun before n body hshown hbefore => ?_⟩
  · exact (hreveals.heeds (hp.heeds hheeds) r (hd.shown ▸ hr)).same
      (Survey.visit?_of_visits hvisits _) hd.store
  · have hshown : before ++ [(n, body)] <+: q.shown := hd.shown ▸ hshown
    have hbefore : p.shown <+: before := hp.shown ▸ hbefore
    obtain ⟨-, hwaits⟩ := hreveals.waited hshown hbefore
    obtain ⟨w, hw, hfresh⟩ := visit?_of_waits hwaits
    obtain ⟨v, hv, hbody, hprogress⟩ := hp.back hw
    refine ⟨v, hv, (congrArg (·.2.1) hprogress).symm.trans hfresh, fun t ht hloop => ?_⟩
    -- content is passed on in the same way all along
    have hnext : d.Next = p.Next := by
      rw [← hreveals.advances.next]
      unfold Conversion.Next
      rw [show d.survey = q.survey from hd.survey]
    have hbuilds := hreveals.builds hshown hbefore hw ((congrArg (·.1) hprogress).trans ht)
      (hnext ▸ hloop)
    rw [hbody] at hbuilds
    exact (hbuilds.rebase hp.store).same (Survey.visit?_of_visits hvisits _) hd.store
      (congrArg (·.number) hd.survey)

end Emission

namespace Converter

variable {conv : Converter} {o : Override} {desk : Desk}

/-! ### Sessions -/

/-- What a session keeps as long as no emission breaks off half-way. -/
structure Attends (o : Override) (c : Conversion) : Prop where
  viewed : c.Viewed
  covered : c.Covered
  bare : c.Bare
  heeds : c.Heeds o

/-- A descent keeps the session attentive: it visits nodes, and changes no body that was shown. -/
theorem Attends.descends {c d : Conversion} (h : Attends o c) (hd : Credits [] c d)
    (ha : Anchors c d) : Attends o d where
  viewed := h.viewed.descends hd ha
  covered := h.covered.descends hd
  bare := h.bare.descends hd.toDescends
  heeds := h.heeds.descends h.viewed.closed hd.toDescends

/-- A call keeps the session attentive unless it is an emission that breaks off for want of a visit.
    -/
theorem Call.run_attends (ho : conv.override = some o) (hlasting : o.Lasting) (call : Call)
    (h : Attends o desk.conversion)
    (hcall : call.visits?.isSome = true ∨ (call.run conv desk).1 ≠ .error .missingChild) :
    Attends o (call.run conv desk).2.conversion := by
  rcases call.run_views ho hlasting h.viewed.anchored with
    ⟨-, hcredits, hanchors⟩ | ⟨hemits, ns, hviews, houtlines, hall⟩
  · exact h.descends hcredits hanchors
  · cases call with
    | process root => cases hemits
    | visit n ancestors path => cases hemits
    | emit external policy root =>
      obtain ⟨hbare, hheeds, -⟩ := Emission.document_reveals (e := conv.emission policy root)
        (c := desk.load external) ho hlasting h.bare h.heeds h.viewed.anchored h.covered
      exact
        { viewed := h.viewed.views hviews houtlines
          covered := h.covered.views hviews houtlines (hall (hcall.resolve_left nofun))
          bare := hbare
          heeds := hheeds }

namespace Desk

/-- A run that never breaks off keeps the session attentive: induction on the calls. -/
theorem attends_runAll (ho : conv.override = some o) (hlasting : o.Lasting)
    (h : Attends o desk.conversion) {calls : List Call}
    (hunbroken : unbroken conv calls desk = true) :
    Attends o (runAll conv calls desk).2.conversion := by
  induction calls generalizing desk with
  | nil => exact h
  | cons call rest ih =>
    obtain ⟨hcall, hrest⟩ := (Bool.and_eq_true ..).mp hunbroken
    rw [runAll_cons]
    exact ih (call.run_attends ho hlasting h
      (((Bool.or_eq_true ..).mp hcall).imp_right of_decide_eq_true)) hrest

/-- A session starts attentively, with nothing visited and nothing shown. -/
theorem attends_start {store : Store} (hs : store.Closed) (externals : List Linkage) :
    Attends o (conversion { conversion := start store, externals }) where
  viewed := viewed_start hs externals
  covered _ hn := by cases hn
  bare _ _ hv := by cases hv
  heeds _ hp := by cases hp

/-- What the override finds when it is shown a node whose target is `t`.  The target is the source
    of a clone, or it was shown before, and its body is what the override has made of it.  What the
    node takes over is the fragment of the target: its body, or the reference to it if it is a
    definition.  Each key that the node has no entry of its own for is passed on, unless a reference
    is asked for besides. -/
structure Finds (o : Override) (target : Target) (c b : Conversion)
    (before : List (NodeId × Entries)) (own : Entries) (t : NodeId) (body : Entries) : Prop
    extends c.BuildsOn target b before own t body where
  heeded : c.survey.isSource t = true ∨ ∃ shown, (t, shown) ∈ before ∧ c.Heeded o t shown
  fragment : if c.survey.defines t = true then
      ∃ ref, c.survey.fragment t = [(Visit.refKey, .str ref)]
    else c.survey.fragment t = c.survey.body t
  passed : (target = .draft7 → (c.survey.fragment t).has Visit.refKey = false) → own.Distinct →
    (c.survey.fragment t).Distinct →
    ∀ key, body.get? key = (own.get? key).or ((c.survey.fragment t).get? key)

/-- What the settling of a node builds on is what the override finds when it is shown the node. -/
theorem finds_of_builds {target : Target} {c b : Conversion} {before : List (NodeId × Entries)}
    {own body : Entries} {t : NodeId} (hbare : c.Bare) (hheeds : c.Heeds o)
    (hbefore : before <+: c.shown) (h : c.BuildsOn target b before own t body) :
    Finds o target c b before own t body := by
  obtain ⟨u, hu, -⟩ := h.finished
  refine ⟨h, h.shown.imp_right fun hmem => ?_, ?_, fun hplain hown hbelow key => ?_⟩
  · obtain ⟨p, hp, rfl⟩ := List.mem_map.mp hmem
    exact ⟨p.2, hp, hheeds p (hbefore.mem hp)⟩
  -- A definition that is already there leaves the reference as the fragment.
  · unfold Survey.defines Survey.fragment Survey.body
    rw [hu]
    cases hdefinition : u.definition with
    | none => simp [hdefinition, Visit.body]
    | some definition =>
      obtain ⟨ref, href⟩ := hbare t u hu (hdefinition ▸ rfl)
      simp [hdefinition, href]
  · have hnone : ¬ ((c.survey.fragment t).has Visit.refKey = true ∧ target = .draft7) := by
      rintro ⟨href, htarget⟩
      rw [hplain htarget] at href
      cases href
    have htakes := h.takes
    unfold Takes at htakes
    rw [if_neg hnone] at htakes
    rw [htakes]
    exact get?_mergeBelow hown hbelow key

/-- **Finished bodies.** An override that never fails is shown a node that passes content on when
    its target is finished and was shown, in the same emission or in an earlier one, and what it is
    shown takes over the fragment of the target.  No earlier emission has broken off half-way, and
    the node does not pass its content on to itself. -/
theorem bodies_heeded (ho : conv.override = some o) (hlasting : o.Lasting) {store : Store}
    (hs : store.Closed) (externals : List Linkage) {calls : List Call}
    (hunbroken : unbroken conv calls { conversion := start store, externals } = true)
    (external : Option Nat) (policy : EmissionSettings) (root : NodeId) :
    let behind := (runAll conv calls { conversion := start store, externals }).2
    let emitted := ((Call.emit external policy root).run conv behind).2.conversion
    ∀ before n body, before ++ [(n, body)] <+: emitted.shown → behind.conversion.shown <+: before →
      ∃ v, behind.conversion.survey.visit? n = some v ∧ v.merged = false ∧
        ∀ t, v.target = some t → ¬ Relation.TransGen emitted.Next n n →
          Finds o conv.guide.settings.target emitted behind.conversion before v.body t body := by
  intro behind emitted before n body hshown hbefore
  have hattends : Attends o behind.conversion :=
    attends_runAll ho hlasting (attends_start hs externals) hunbroken
  obtain ⟨hbare, hheeds, hreveals⟩ := Emission.document_reveals (e := conv.emission policy root)
    (c := behind.load external) ho hlasting hattends.bare hattends.heeds hattends.viewed.anchored
    hattends.covered
  obtain ⟨v, hv, hfresh, hbuilds⟩ := hreveals before n body hshown hbefore
  refine ⟨v, hv, hfresh, fun t ht hloop => ?_⟩
  have hbuilt := hbuilds t ht hloop
  -- The target was finished before; what it was shown as then is what it is now.
  refine finds_of_builds hbare hheeds ((List.prefix_append ..).trans hshown)
    ⟨hbuilt.finished, hbuilt.shown, hbuilt.takes, fun htarget href hown => ?_⟩
  exact hbuilt.asks htarget href hown

/-- A text, and the text as one that is read only. -/
def guardedText : Store where
  nodes := [{ kind := .string }, { kind := .readonly, inner := .node 0 }]

/-- The guarded text, when it was visited. -/
def guardedVisited : Desk :=
  (runAll titling [.process (.node 1)] { conversion := start guardedText }).2

/-- The guarded text, when its document was emitted. -/
def guardedEmitted : Conversion :=
  ((Call.emit none {} (.node 1)).run titling guardedVisited).2.conversion

/-- What the override is shown of the text. -/
def textShown : List (NodeId × Entries) := [(.node 0, [("type", .str "string")])]

/-- What the override is shown of the text that is read only. -/
def guardedShown : Entries :=
  [("readOnly", .bool true), ("type", .str "string"), ("title", .str "x")]

/-- The title of the text is there when the text that is read only is shown. -/
theorem bodies_heeded_guardedText :
    guardedText.Closed ∧ titled.Lasting ∧
      unbroken titling [.process (.node 1)] { conversion := start guardedText } = true ∧
      guardedEmitted.shown = textShown ++ [(.node 1, guardedShown)] ∧
      Finds titled .draft2020 guardedEmitted guardedVisited.conversion textShown
        [("readOnly", .bool true)] (.node 0) guardedShown := by
  have hs : guardedText.Closed := .of_forall (by decide) (by decide) nofun
  have hlasting : titled.Lasting := fun _ _ _ => rfl
  have hunbroken :
      unbroken titling [.process (.node 1)] { conversion := start guardedText } = true := by
    decide +kernel
  have hshown : guardedEmitted.shown = textShown ++ [(.node 1, guardedShown)] := by decide +kernel
  refine ⟨hs, hlasting, hunbroken, hshown, ?_⟩
  have hlast : textShown ++ [(.node 1, guardedShown)] <+: guardedEmitted.shown := by rw [hshown]
  have hnone : guardedVisited.conversion.shown = [] := by decide +kernel
  have hfirst : guardedVisited.conversion.shown <+: textShown := by
    rw [hnone]
    exact List.nil_prefix
  have hwrapper : guardedVisited.conversion.survey.visit? (.node 1)
      = some { fragment := [("readOnly", .bool true)], target := some (.node 0) } := by
    decide +kernel
  have hfound : ∃ v, guardedVisited.conversion.survey.visit? (.node 1) = some v ∧
      v.merged = false ∧ ∀ t, v.target = some t →
        ¬ Relation.TransGen guardedEmitted.Next (.node 1) (.node 1) →
        Finds titled .draft2020 guardedEmitted guardedVisited.conversion textShown v.body t
          guardedShown := by
    have hsession := @bodies_heeded titling titled rfl hlasting guardedText hs []
      [.process (.node 1)] hunbroken none {} (.node 1)
    unfold guardedEmitted guardedVisited at hlast hfirst ⊢
    exact hsession textShown (.node 1) guardedShown hlast hfirst
  obtain ⟨v, hv, -, hfinds⟩ := hfound
  obtain rfl := Option.some.inj (hv.symm.trans hwrapper)
  refine hfinds (.node 0) rfl fun hloop => ?_
  -- content is passed on to the text, and ends there
  have hend : (guardedEmitted.survey.visit? (.node 0)).bind (·.target) = none := by decide +kernel
  have hpasses : (guardedEmitted.survey.visit? (.node 1)).bind (·.target) = some (.node 0) := by
    decide +kernel
  obtain ⟨m, ⟨w, hw, hm⟩, hback⟩ := Relation.TransGen.head'_iff.mp hloop
  rw [show guardedEmitted.survey.visit? (.node 1) = some w from hw, Option.bind_some, hm] at hpasses
  obtain rfl := Option.some.inj hpasses
  rcases Relation.ReflTransGen.cases_head hback with heq | ⟨k, ⟨u, hu, hk⟩, -⟩
  · cases heq
  · rw [show guardedEmitted.survey.visit? (.node 0) = some u from hu, Option.bind_some, hk] at hend
    cases hend

/-- Addresses across documents. -/
def addressing : Linkage where
  catalog := "r"
  addressing := .surround "u:" ""

/-- A text, a truth value, and the text as one that is read only. -/
def laterText : Store where
  nodes := [{ kind := .string }, { kind := .boolean }, { kind := .readonly, inner := .node 0 }]

/-- The document of the truth value was emitted when the text was visited, but not yet the text
    that is read only. -/
def laterVisited : Desk :=
  (runAll titling [.process (.node 1), .process (.node 0), .emit (some 0) {} (.node 1),
    .process (.node 2)] { conversion := start laterText, externals := [addressing] }).2

/-- The document of the text was emitted then. -/
def laterEmitted : Except Failure (Option Json) × Desk :=
  (Call.emit (some 0) {} (.node 0)).run titling laterVisited

/-- What the override is shown then of the text that is read only. -/
def laterShown : Entries := [("readOnly", .bool true), ("$ref", .str "u:__shared#/$defs/schema1")]

/-- A text with an id, the text as one that is read only with an annotation that holds no list, and
    that as an optional one; a truth value beside them. -/
def misfitText : Store where
  nodes := [{ kind := .string }, { kind := .readonly, inner := .node 0 },
    { kind := .optional, inner := .node 1 }, { kind := .boolean }]
  catalogs := [("global",
    { entries := [(.node 0, [(.str "id", .str "S")]), (.node 1, [(.str "allOf", .int 5)])]
      ids := [(.str "S", .node 0)] })]

/-- A converter with the override, to the dialect that ignores all keywords beside a reference. -/
def titlingOlder : Converter := { older with override := some titled }

/-- An emission has broken off half-way when the optional text was visited. -/
def misfitVisited : Desk :=
  (runAll titlingOlder [.process (.node 1), .process (.node 3), .emit (some 0) {} (.node 3),
    .process (.node 2)] { conversion := start misfitText, externals := [addressing] }).2

/-- The document of the optional text was emitted then. -/
def misfitEmitted : Except Failure (Option Json) × Desk :=
  (Call.emit (some 0) {} (.node 2)).run titlingOlder misfitVisited

/-- The text is left with its type and a title by an emission, and its document is that of a later
    one: what is read only is shown with the reference to the text then.  And behind an emission
    that breaks off half-way, a node is shown whose target never was, though it is no source. -/
theorem bodies_outdated :
    (laterEmitted.1.isOk = true ∧
      laterVisited.conversion.seen = [.node 0, .node 1] ∧
      laterVisited.conversion.survey.visit? (.node 0) = some
        { fragment := [("type", .str "string"), ("title", .str "x")], count := 2, merged := true } ∧
      laterVisited.conversion.survey.visit? (.node 2) = some
        { fragment := [("readOnly", .bool true)], target := some (.node 0) } ∧
      laterEmitted.2.conversion.shown
        = laterVisited.conversion.shown ++ [(.node 2, laterShown)] ∧
      laterShown ≠ mergeBelow [("readOnly", .bool true)]
        (laterVisited.conversion.survey.fragment (.node 0))) ∧
    misfitEmitted.1.isOk = true ∧
      misfitEmitted.2.conversion.seen = [.node 3, .node 0, .node 2] ∧
      (misfitEmitted.2.conversion.survey.visit? (.node 2)).bind (·.target) = some (.node 1) ∧
      misfitEmitted.2.conversion.survey.isSource (.node 1) = false := by
  refine ⟨⟨?_, ?_, ?_, ?_, ?_, ?_⟩, ?_, ?_, ?_, ?_⟩ <;> decide +kernel

end Desk

end Converter

end SchemaGraph
