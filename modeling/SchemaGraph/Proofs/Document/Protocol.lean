import SchemaGraph.Proofs.Document.Refusals

namespace SchemaGraph

open SchemaGraph.Action Conversion

/-!
# The protocol of emissions

Whatever calls are made in a session, and whatever comes of each of them: no root is emitted twice,
and a document that stands alone is the only one of its session.  An emission counts as soon as it
is not refused, even if it fails later.  So a document is only ever made of fragments that refer to
nothing in another document that stands alone.

* `Emission.Proceeds`                    — what an emission keeps behind the mark of its root
* `Converter.Desk.admitted`              — the emissions of a run that are not refused
* `Converter.Desk.Records`               — what a desk tells of the emissions so far
* `Converter.Desk.emissions_exclusive`   — the protocol of a session
-/

namespace Addressing

/-- The reference is an address across documents: that of a document, or that of a definition which
    documents have in common. -/
def Gives (a : Addressing) (target : Target) (ref : String) : Prop :=
  (∃ id, ref = a.address id) ∨
    ∃ id, ref = Emission.definitionAddress target (a.address Emission.sharedDocument) id

end Addressing

namespace Conversion

/-- What was emitted is the same, and so is whether one of the documents stands alone. -/
structure Stamps (c d : Conversion) : Prop where
  emitted : d.survey.emitted = c.survey.emitted := by rfl
  standalone : d.survey.standalone = c.survey.standalone := by rfl

instance : Std.Refl Stamps := ⟨fun _ => { }⟩

instance : Trans Stamps Stamps Stamps :=
  ⟨fun h₁ h₂ => ⟨h₂.emitted.trans h₁.emitted, h₂.standalone.trans h₁.standalone⟩⟩

/-- A failure marks no document. -/
theorem fail_stamps (α : Type) (f : Failure) : Within Stamps (fail f : Action Conversion α) := by
  intro c
  obtain ⟨d, hrun, -, hsurvey⟩ := run_fail α f c
  rw [hrun]
  exact ⟨by rw [hsurvey], by rw [hsurvey]⟩

end Conversion

namespace Emission

variable {e : Emission} {c d f : Conversion}

/-- What an emission keeps once its root is marked: what was emitted, and the references to
    definitions that were there before; if it has addresses across documents, these are the
    references to the definitions that it makes. -/
structure Proceeds (e : Emission) (c d : Conversion) : Prop where
  stamps : Stamps c d
  addressing : d.linkage.map (·.addressing) = c.linkage.map (·.addressing)
  order : d.survey.order = c.survey.order
  kept : ∀ {n v}, c.survey.visit? n = some v → v.definition.isSome → v.isReference = true →
    ∃ w, d.survey.visit? n = some w ∧ w.definition.isSome ∧ w.fragment = v.fragment
  made : ∀ {n v w}, c.survey.visit? n = some v → v.definition = none →
    d.survey.visit? n = some w → w.definition.isSome →
    ∀ a, c.linkage.map (·.addressing) = some a →
      ∃ ref, a.Gives e.target ref ∧ w.fragment = [(Visit.refKey, .str ref)]

/-- An action that keeps survey and addresses proceeds. -/
theorem Proceeds.of_survey (h : d.survey = c.survey)
    (haddressing : d.linkage.map (·.addressing) = c.linkage.map (·.addressing)) :
    Proceeds e c d where
  stamps := ⟨by rw [h], by rw [h]⟩
  addressing := haddressing
  order := by rw [h]
  kept hv hdefined _ := ⟨_, by rw [h]; exact hv, hdefined, rfl⟩
  made hv hnone hw hdefined := by
    rw [h, hv] at hw
    obtain rfl := Option.some.inj hw
    rw [hnone] at hdefined
    cases hdefined

/-- An emission that proceeds twice proceeds. -/
theorem Proceeds.trans (h₁ : Proceeds e c d) (h₂ : Proceeds e d f) : Proceeds e c f where
  stamps := Trans.trans h₁.stamps h₂.stamps
  addressing := h₂.addressing.trans h₁.addressing
  order := h₂.order.trans h₁.order
  kept hv hdefined href := by
    obtain ⟨w, hw, hstill, hfragment⟩ := h₁.kept hv hdefined href
    obtain ⟨x, hx, hstill, hfragment'⟩ := h₂.kept hw hstill (by rwa [Visit.isReference, hfragment])
    exact ⟨x, hx, hstill, hfragment'.trans hfragment⟩
  made {n v x} hv hnone hx hdefined a ha := by
    obtain ⟨w, hw⟩ : ∃ w, d.survey.visit? n = some w := by
      refine Survey.visit?_of_has ?_
      rw [Survey.has_iff, h₁.order, ← Survey.has_iff]
      exact Survey.has_of_visit? hv
    -- The definition was made by the first of the two, or by the second.
    cases hmade : w.definition with
    | none => exact h₂.made hw hmade hx hdefined a (h₁.addressing.trans ha)
    | some body =>
      obtain ⟨ref, hgives, hbare⟩ := h₁.made hv hnone hw (hmade ▸ rfl) a ha
      obtain ⟨y, hy, -, hfragment⟩ := h₂.kept hw (hmade ▸ rfl) (by rw [Visit.isReference, hbare]; rfl)
      obtain rfl : y = x := Option.some.inj (hy.symm.trans hx)
      exact ⟨ref, hgives, hfragment.trans hbare⟩

instance : Std.Refl (Proceeds e) := ⟨fun _ => .of_survey rfl rfl⟩

instance : Trans (Proceeds e) (Proceeds e) (Proceeds e) := ⟨Proceeds.trans⟩

/-- The reference to a definition that is made with addresses across documents is one of these. -/
theorem Names.gives {store : Store} {linkage : Option Linkage} {n : NodeId} {id : Value}
    {ref : String} (h : e.Names store linkage n id ref) {a : Addressing}
    (ha : linkage.map (·.addressing) = some a) : a.Gives e.target ref := by
  obtain ⟨l, rfl, rfl⟩ := Option.map_eq_some_iff.mp ha
  unfold Names at h
  dsimp only at h
  split at h
  · unfold Addressing.address? at h
    split at h
    · cases h
      exact .inl ⟨_, rfl⟩
    · cases h
  · exact .inr ⟨id, h.2⟩

/-- Hoisting marks no root, and refers to definitions as the emission does. -/
theorem hoist_proceeds : Within (Proceeds e) e.hoist := by
  intro c
  -- None of the single steps of hoisting marks a root as emitted.
  have hcarries : Carries Stamps :=
    { visit := fun n f _ c => { }
      count := fun c => { }
      log := fun event c => { }
      fail := fail_stamps }
  have hhoists := (hoist_hoists (e := e) c).state_of_and
  refine ⟨hcarries.hoist c, by rw [hhoists.rewrites.linkage], hhoists.rewrites.order,
    fun {n v} hv hdefined href => ?_, fun {n v w} hv hnone hw hdefined a ha => ?_⟩
  · rcases hhoists.visits hv with hsame | ⟨hfresh, -⟩
    · exact ⟨v, hsame, hdefined, rfl⟩
    · rw [href] at hfresh
      cases hfresh
  · rcases hhoists.visits hv with hsame | ⟨-, ref, id, hnames, hmade⟩
    · rw [hsame] at hw
      obtain rfl := Option.some.inj hw
      rw [hnone] at hdefined
      cases hdefined
    · obtain rfl := Option.some.inj (hmade.symm.trans hw)
      exact ⟨ref, hnames.gives ha, rfl⟩

/-- Settling marks no root and makes no definition. -/
theorem settleVisits_proceeds : Within (Proceeds e) e.settleVisits := by
  intro c
  have hbears : Bears Stamps :=
    { visit := fun n f _ c => { }
      append := fun number t c => { }
      shown := fun n body c => { }
      fail := fail_stamps }
  have hpersists := settleVisits_persists (e := e) c
  refine ⟨hbears.settleVisits c, by rw [hpersists.linkage], hpersists.order,
    fun {n v} hv hdefined _ => ?_, fun {n v w} hv hnone hw hdefined => ?_⟩
  · obtain ⟨w, hw, hsame⟩ := hpersists.visits hv
    exact ⟨w, hw, hsame.hoisted.trans hdefined, hsame.fragment hdefined⟩
  · obtain ⟨x, hx, hsame⟩ := hpersists.visits hv
    obtain rfl : x = w := Option.some.inj (hx.symm.trans hw)
    rw [hsame.hoisted, hnone] at hdefined
    cases hdefined

/-- A failure proceeds. -/
theorem fail_proceeds {α : Type} (f : Failure) :
    Within (Proceeds e) (fail f : Action Conversion α) := by
  intro c
  obtain ⟨d, hrun, hrewrites, hsurvey⟩ := run_fail α f c
  rw [hrun]
  exact .of_survey hsurvey (by rw [hrewrites.linkage])

/-- What remains of an emission once its root is marked. -/
def remainder (e : Emission) : Action Conversion Json := do
  let entries ← (do e.hoist; e.settleVisits; e.listDefinitions)
  let json ← Conversion.finalize (.dict entries)
  e.completed
  pure json

/-- Whatever comes of an emission once its root is marked, it proceeds. -/
theorem remainder_proceeds : Within (Proceeds e) e.remainder := by
  refine .bind (.bind hoist_proceeds fun _ => .bind settleVisits_proceeds fun _ => ?_) fun entries =>
    .bind (.bind within_get fun c => ?_) fun json => .bind ?_ fun _ => within_pure _
  · -- listing changes the table alone
    refine .bind within_get fun c => .bind (fun c => .of_survey rfl ?_) fun _ => ?_
    · show Option.map _ (Option.map _ c.linkage) = _
      rw [Option.map_map]
      rfl
    · split
      · exact fail_proceeds _
      · exact within_pure _
  · split
    · exact within_pure _
    · exact fail_proceeds _
  · exact .bind within_get fun c => fun d => .of_survey rfl rfl

/-- A conversion whose root is marked as emitted. -/
def commenced (e : Emission) (c : Conversion) : Conversion :=
  { c with survey :=
    { c.survey with
      emitted := c.survey.emitted ++ [e.root]
      standalone := c.survey.standalone || c.linkage.isNone } }

/-- An emission that is not refused marks its root first. -/
theorem document_accepted (h : e.refusal? c = none) :
    e.document c = e.remainder (e.commenced c) := by
  unfold document remainder
  rw [run_bind, run_get]
  dsimp only
  rw [h]
  dsimp only
  rw [run_bind, run_bind]
  rfl

end Emission

namespace Converter

/-- What a call emits if it is an emission that is not refused: its root, and the addresses across
    documents that it is given. -/
def Call.admission? (conv : Converter) (desk : Desk) : Call → Option (NodeId × Option Addressing)
  | .emit external policy root =>
    if (conv.emission policy root).refusal? (desk.load external) = none then
      some (root, (desk.load external).linkage.map (·.addressing))
    else none
  | _ => none

namespace Desk

variable {conv : Converter} {desk : Desk} {earlier : List (NodeId × Option Addressing)}

/-- The emissions of a run that are not refused, in order. -/
def admitted (conv : Converter) : List Call → Desk → List (NodeId × Option Addressing)
  | [], _ => []
  | call :: rest, desk =>
    (call.admission? conv desk).toList ++ admitted conv rest (call.run conv desk).2

/-- What a desk tells of the emissions so far that were not refused: their roots, whether one of
    them stands alone, and if none does, the addresses that definitions are referred to by. -/
structure Records (target : Target) (earlier : List (NodeId × Option Addressing)) (desk : Desk) :
    Prop where
  emitted : desk.conversion.survey.emitted = earlier.map (·.1)
  standalone : desk.conversion.survey.standalone = earlier.any (·.2.isNone)
  nodup : (earlier.map (·.1)).Nodup
  alone : ∀ p ∈ earlier, p.2 = none → earlier = [p]
  references : (∀ p ∈ earlier, p.2.isSome) →
    ∀ n v, desk.conversion.survey.visit? n = some v → v.definition.isSome →
      ∃ p ∈ earlier, ∃ a, p.2 = some a ∧ ∃ ref, a.Gives target ref ∧
        v.fragment = [(Visit.refKey, .str ref)]

/-- A descent neither emits anything nor touches references to definitions. -/
theorem Records.descends {target : Target} (h : Records target earlier desk) {c : Conversion}
    (hc : Descends [] desk.conversion c) : Records target earlier { desk with conversion := c } where
  emitted := hc.emitted.trans h.emitted
  standalone := hc.standalone.trans h.standalone
  nodup := h.nodup
  alone := h.alone
  references hacross n w hw hdefined := by
    cases hv : desk.conversion.survey.visit? n with
    | none =>
      have hstage := congrArg (·.1) (hc.entered hv hw)
      rw [show w.definition = none from hstage] at hdefined
      cases hdefined
    | some v =>
      obtain ⟨w', hw', hstage, -, hcontent⟩ := hc.visits hv
      obtain rfl : w' = w := Option.some.inj (hw'.symm.trans hw)
      have hdefinition : w'.definition = v.definition := congrArg (·.1) hstage
      have hfragment : w'.fragment = v.fragment := congrArg (·.1) (hcontent List.not_mem_nil)
      rw [hfragment]
      exact h.references hacross n v hv (hdefinition ▸ hdefined)

/-- A refused emission changes nothing of that. -/
theorem Records.refused {target : Target} (h : Records target earlier desk) {external : Option Nat}
    {c : Conversion} (hc : c.survey = desk.conversion.survey) :
    Records target earlier (desk.keep external c) where
  emitted := (congrArg (·.emitted) hc).trans h.emitted
  standalone := (congrArg (·.standalone) hc).trans h.standalone
  nodup := h.nodup
  alone := h.alone
  references hacross n v hv := h.references hacross n v ((congrArg (·.visit? n) hc).symm.trans hv)

/-- What is not refused. -/
theorem refusal?_none {e : Emission} {c : Conversion} (h : e.refusal? c = none) :
    e.root ∉ c.survey.emitted ∧ c.survey.standalone = false ∧
      (c.linkage = none → c.survey.emitted = []) := by
  unfold Emission.refusal? at h
  dsimp only at h
  split at h
  · cases h
  · split at h
    · cases h
    · rename_i hfresh
      split at h
      · cases h
      · rename_i hshared
        obtain ⟨halone, hempty⟩ := not_or.mp hshared
        refine ⟨hfresh, by simpa using halone, fun hl => ?_⟩
        by_contra hne
        exact hempty ⟨by rw [hl]; rfl, hne⟩

/-- An emission that is not refused is one more, whatever comes of it. -/
theorem Records.accepted (h : Records conv.guide.settings.target earlier desk)
    (external : Option Nat) (policy : EmissionSettings) (root : NodeId)
    (hadmitted : (conv.emission policy root).refusal? (desk.load external) = none) :
    Records conv.guide.settings.target
      (earlier ++ [(root, (desk.load external).linkage.map (·.addressing))])
      ((Call.emit external policy root).run conv desk).2 := by
  obtain ⟨hfresh, hshared, hempty⟩ := refusal?_none hadmitted
  have hproceeds := (conv.emission policy root).remainder_proceeds
    ((conv.emission policy root).commenced (desk.load external))
  rw [← Emission.document_accepted hadmitted] at hproceeds
  have hnone : earlier = [] ↔ desk.conversion.survey.emitted = [] := by
    rw [h.emitted, List.map_eq_nil_iff]
  refine ⟨?_, ?_, ?_, fun p hp hp' => ?_, fun hacross n w hw hdefined => ?_⟩
  · refine hproceeds.stamps.emitted.trans ?_
    rw [List.map_append, ← h.emitted]
    rfl
  · refine hproceeds.stamps.standalone.trans ?_
    rw [List.any_append, ← h.standalone]
    show (_ || (desk.load external).linkage.isNone) =
      (_ || (((desk.load external).linkage.map (·.addressing)).isNone || false))
    rw [Option.isNone_map, Bool.or_false]
    rfl
  · rw [List.map_append]
    refine List.nodup_append.mpr ⟨h.nodup, List.nodup_singleton _, ?_⟩
    rw [← h.emitted]
    rintro a ha b hb rfl
    obtain rfl : a = root := List.mem_singleton.mp hb
    exact hfresh ha
  · -- a document that stands alone is neither preceded by another one nor followed
    rcases List.mem_append.mp hp with hp | hp
    · have halone : earlier.any (·.2.isNone) = true :=
        List.any_eq_true.mpr ⟨p, hp, by rw [hp']; rfl⟩
      rw [← h.standalone] at halone
      exact absurd halone (by rw [show desk.conversion.survey.standalone = false from hshared]; decide)
    · obtain rfl := List.mem_singleton.mp hp
      rw [hnone.mpr (hempty (Option.map_eq_none_iff.mp hp')), List.nil_append]
  -- a definition was made by this emission, or by an earlier one and kept
  · obtain ⟨a, ha⟩ := Option.isSome_iff_exists.mp
      (hacross _ (List.mem_append_right _ (List.mem_singleton_self _)))
    obtain ⟨v, hv⟩ : ∃ v, desk.conversion.survey.visit? n = some v := by
      refine Survey.visit?_of_has ?_
      rw [Survey.has_iff, ← show _ = desk.conversion.survey.order from hproceeds.order,
        ← Survey.has_iff]
      exact Survey.has_of_visit? hw
    cases hold : v.definition with
    | none =>
      obtain ⟨ref, hgives, hbare⟩ := hproceeds.made hv hold hw hdefined a ha
      exact ⟨_, List.mem_append_right _ (List.mem_singleton_self _), a, ha, ref, hgives, hbare⟩
    | some body =>
      obtain ⟨p, hp, b, hb, ref, hgives, hbare⟩ := h.references
        (fun p hp => hacross p (List.mem_append_left _ hp)) n v hv (hold ▸ rfl)
      obtain ⟨w', hw', -, hfragment⟩ :=
        hproceeds.kept hv (hold ▸ rfl) (by rw [Visit.isReference, hbare]; rfl)
      obtain rfl : w' = w := Option.some.inj (hw'.symm.trans hw)
      exact ⟨p, List.mem_append_left _ hp, b, hb, ref, hgives, hfragment.trans hbare⟩

/-- **One call.** Behind each call the desk tells of one more emission, if the call is one that is
    not refused. -/
theorem Records.run (h : Records conv.guide.settings.target earlier desk) (call : Call) :
    Records conv.guide.settings.target (earlier ++ (call.admission? conv desk).toList)
      (call.run conv desk).2 := by
  cases call with
  | process root =>
    have hprocess : Within (Descends []) (conv.process root) :=
      .bind (visit_within root [] []) fun _ => .bind within_get fun _ => log_within _
    rw [show (Call.process root).admission? conv desk = none from rfl, Option.toList_none,
      List.append_nil]
    exact h.descends (hprocess desk.conversion)
  | visit n ancestors path =>
    rw [show (Call.visit n ancestors path).admission? conv desk = none from rfl, Option.toList_none,
      List.append_nil]
    exact h.descends (visit_within n ancestors path desk.conversion)
  | emit external policy root =>
    -- A refused emission is recorded nowhere and leaves the survey alone.
    cases hrefusal : (conv.emission policy root).refusal? (desk.load external) with
    | none =>
      rw [Call.admission?, if_pos hrefusal]
      exact h.accepted external policy root hrefusal
    | some f =>
      rw [Call.admission?, if_neg (by rw [hrefusal]; nofun), Option.toList_none, List.append_nil]
      obtain ⟨d, hrun, -, hsurvey⟩ := Emission.document_refused hrefusal
      have hleft : ((conv.emission policy root).document (desk.load external)).2 = d :=
        congrArg (·.2) hrun
      exact h.refused (hleft ▸ hsurvey)

/-- **Runs.** Behind any calls the desk tells of all emissions that were not refused. -/
theorem Records.runAll (h : Records conv.guide.settings.target earlier desk) (calls : List Call) :
    Records conv.guide.settings.target (earlier ++ admitted conv calls desk)
      (runAll conv calls desk).2 := by
  induction calls generalizing earlier desk with
  | nil => rwa [admitted, List.append_nil]
  | cons call rest ih =>
    rw [runAll_cons, admitted, ← List.append_assoc]
    exact ih (h.run call)

/-- Before anything is emitted there is nothing to tell. -/
theorem records_start (target : Target) (store : Store) (externals : List Linkage) :
    Records target [] { conversion := start store, externals } where
  emitted := rfl
  standalone := rfl
  nodup := List.nodup_nil
  alone := nofun
  references _ n v hv := by cases hv

/-- **The protocol of a session.** In every run no two emissions of the same root are admitted, and
    an emission that stands alone is the only one that is admitted.  Behind any calls an emission
    returns a document only if all emissions before it had addresses across documents, and if none
    was admitted in case it stands alone; so every definition is referred to by one of these
    addresses, and nothing refers to a document that stands alone. -/
theorem emissions_exclusive (conv : Converter) (store : Store) (externals : List Linkage)
    (calls : List Call) :
    let desk : Desk := { conversion := start store, externals }
    let emissions := admitted conv calls desk
    let behind := (runAll conv calls desk).2
    (emissions.map (·.1)).Nodup ∧
    (∀ p ∈ emissions, p.2 = none → emissions = [p]) ∧
    ∀ external policy root, ((Call.emit external policy root).run conv behind).1.isOk →
      (∀ p ∈ emissions, p.2.isSome) ∧
      ((behind.load external).linkage = none → emissions = []) ∧
      ∀ n v, behind.conversion.survey.visit? n = some v → v.definition.isSome →
        ∃ p ∈ emissions, ∃ a, p.2 = some a ∧ ∃ ref, a.Gives conv.guide.settings.target ref ∧
          v.fragment = [(Visit.refKey, .str ref)] := by
  intro desk emissions behind
  have hstart := records_start conv.guide.settings.target store externals
  have hall : Records _ emissions behind := hstart.runAll calls
  refine ⟨hall.nodup, hall.alone, fun external policy root hok => ?_⟩
  -- A call that succeeds was not refused.
  have hadmitted : (conv.emission policy root).refusal? (behind.load external) = none := by
    cases hrefusal : (conv.emission policy root).refusal? (behind.load external) with
    | none => rfl
    | some f =>
      obtain ⟨d, hrun, -⟩ := Emission.document_refused hrefusal
      have hfails : ((Call.emit external policy root).run conv behind).1 = .error f := by
        show Except.map some ((conv.emission policy root).document _).1 = _
        rw [hrun]
        rfl
      rw [hfails] at hok
      cases hok
  obtain ⟨-, hshared, hempty⟩ := refusal?_none hadmitted
  -- Behind a document that stands alone every emission is refused.
  have hacross : ∀ p ∈ emissions, p.2.isSome := by
    intro p hp
    by_contra hnone
    have halone : emissions.any (·.2.isNone) = true :=
      List.any_eq_true.mpr ⟨p, hp, by simpa using hnone⟩
    rw [← hall.standalone, show behind.conversion.survey.standalone = false from hshared] at halone
    cases halone
  refine ⟨hacross, fun hlinkage => ?_, hall.references hacross⟩
  rw [← List.map_eq_nil_iff (f := (·.1)), ← hall.emitted]
  exact hempty hlinkage

/-- A literal whose one value is no data, and lists of texts; the lists have an id. -/
def strayLiteral : Store where
  nodes := [{ kind := .literal, values := [.foreign (.object 0)] },
    { kind := .array, element := .node 2 }, { kind := .string }]
  catalogs := [("linked",
    { entries := [(.node 1, [(.str "id", .str "texts")])], ids := [(.str "texts", .node 1)] })]

/-- The emission of the literal fails when its document is written; still it counts, and neither it
    nor a document that stands alone is admitted behind it.  The lists are emitted all the same, and
    all references lead across documents. -/
theorem emissions_exclusive_strayLiteral :
    let desk : Desk :=
      { conversion := start strayLiteral
        externals := [{ catalog := "linked", addressing := .surround "https://x/" ".json" }] }
    let calls : List Call := [.process (.node 0), .process (.node 1), .emit (some 0) {} (.node 0),
      .emit (some 0) {} (.node 0), .emit none {} (.node 1)]
    (admitted {} calls desk).map (·.1) = [.node 0] ∧
      (runAll {} calls desk).1.map (·.isOk) = [true, true, false, false, false] ∧
      ((Call.emit (some 0) {} (.node 1)).run {} (runAll {} calls desk).2).1.isOk ∧
      ∀ p ∈ admitted {} calls desk, p.2.isSome := by
  intro desk calls
  have hok : ((Call.emit (some 0) {} (.node 1)).run {} (runAll {} calls desk).2).1.isOk := by
    decide +kernel
  exact ⟨by decide +kernel, by decide +kernel, hok,
    ((emissions_exclusive {} strayLiteral desk.externals calls).2.2 (some 0) {} (.node 1) hok).1⟩

end Desk

end Converter

end SchemaGraph
