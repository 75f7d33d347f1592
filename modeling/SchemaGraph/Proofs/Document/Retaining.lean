import SchemaGraph.Proofs.Document.Refusals
import SchemaGraph.Proofs.Document.Upkeep
import SchemaGraph.Proofs.Survey.Failing
import SchemaGraph.Proofs.Survey.Upholding

namespace SchemaGraph

open SchemaGraph.Action Conversion Emission

/-!
# What sessions retain

Whatever is called in a session without an override, what a node asks for besides is never taken
away, finished bodies stay as they are, and so do the references to definitions.

* `Visit.Retained`       — what later calls keep of a visit
* `Conversion.Kempt`     — keys are different, and definitions are referred to
* `Conversion.Remains`   — what later calls keep of a conversion
* `Converter.Desk.runAll_upkeeps` — calls retain all of it
-/

/-- A value that is the same, or a list that has become longer. -/
def Value.Lengthens (x y : Value) : Prop := y = x ∨ ∃ xs more, x = .list xs ∧ y = .list (xs ++ more)

/-- Lists that become longer twice become longer. -/
theorem Value.Lengthens.trans {x y z : Value} (h₁ : x.Lengthens y) (h₂ : y.Lengthens z) :
    x.Lengthens z := by
  rcases h₁ with rfl | ⟨xs, more, rfl, rfl⟩
  · exact h₂
  · rcases h₂ with rfl | ⟨ys, more', hys, rfl⟩
    · exact .inr ⟨xs, more, rfl, rfl⟩
    · obtain ⟨-, rfl⟩ := Value.items.inj hys
      exact .inr ⟨xs, more ++ more', rfl, by rw [List.append_assoc]⟩

/-- What later calls keep of a visit: its target, its body before and after it is finished, the
    reference to its definition, and what it asks for besides. -/
structure Visit.Retained (v w : Visit) : Prop where
  target : w.target = v.target
  merged : v.merged = true → w.merged = true ∧ w.body = v.body
  waits : w.merged = false → w.body = v.body
  defined : v.definition.isSome → w.definition.isSome ∧ w.fragment = v.fragment
  asked : ∀ x, v.body.get? allOfKey = some x →
    ∃ y, w.body.get? allOfKey = some y ∧ x.Lengthens y

/-- What is not finished now was not finished before. -/
theorem Visit.Retained.unmerged {v w : Visit} (h : v.Retained w) (hw : w.merged = false) :
    v.merged = false := by
  cases hmerged : v.merged with
  | false => rfl
  | true =>
    rw [(h.merged hmerged).1] at hw
    cases hw

/-- A visit that is retained twice is retained. -/
theorem Visit.Retained.trans {u v w : Visit} (h₁ : u.Retained v) (h₂ : v.Retained w) :
    u.Retained w where
  target := h₂.target.trans h₁.target
  merged hm := by
    obtain ⟨hmerged, hbody⟩ := h₁.merged hm
    exact ⟨(h₂.merged hmerged).1, (h₂.merged hmerged).2.trans hbody⟩
  waits hw := (h₂.waits hw).trans (h₁.waits (h₂.unmerged hw))
  defined hd := by
    obtain ⟨hdefined, hfragment⟩ := h₁.defined hd
    exact ⟨(h₂.defined hdefined).1, (h₂.defined hdefined).2.trans hfragment⟩
  asked x hx := by
    obtain ⟨y, hy, hxy⟩ := h₁.asked x hx
    obtain ⟨z, hz, hyz⟩ := h₂.asked y hy
    exact ⟨z, hz, hxy.trans hyz⟩

/-- A visit with the same content that is as far as before. -/
theorem Visit.retained_of_body {v w : Visit} (htarget : w.target = v.target)
    (hmerged : v.merged = true → w.merged = true) (hbody : w.body = v.body)
    (hdefined : v.definition.isSome → w.definition.isSome ∧ w.fragment = v.fragment) :
    v.Retained w where
  target := htarget
  merged hm := ⟨hmerged hm, hbody⟩
  waits _ := hbody
  defined := hdefined
  asked x hx := ⟨x, hbody ▸ hx, .inl rfl⟩

namespace Conversion

variable {c d f : Conversion} {own : List NodeId}

/-- Fragments and definitions have each key once, and the fragment of a definition is the reference
    to it. -/
structure Kempt (c : Conversion) : Prop where
  tidy : c.Every Visit.Tidy
  bare : ∀ n v, c.survey.visit? n = some v → v.definition.isSome →
    ∃ ref, v.fragment = [(Visit.refKey, .str ref)]

/-- What later calls keep of a conversion. -/
structure Remains (c d : Conversion) : Prop where
  store : Store.Keeps c.store d.store
  number : d.survey.number = c.survey.number
  visits : ∀ {n v}, c.survey.visit? n = some v → ∃ w, d.survey.visit? n = some w ∧ v.Retained w

/-- The same visits in a store that has grown. -/
theorem Remains.of_visits (hstore : Store.Keeps c.store d.store)
    (hnumber : d.survey.number = c.survey.number)
    (hvisits : ∀ n, d.survey.visit? n = c.survey.visit? n) : Remains c d where
  store := hstore
  number := hnumber
  visits {n v} hv := ⟨v, (hvisits n).trans hv,
    Visit.retained_of_body rfl id rfl fun hd => ⟨hd, rfl⟩⟩

/-- What remains twice remains. -/
theorem Remains.trans (h₁ : Remains c d) (h₂ : Remains d f) : Remains c f where
  store := h₁.store.trans h₂.store
  number := h₂.number.trans h₁.number
  visits hv := by
    obtain ⟨w, hw, hvw⟩ := h₁.visits hv
    obtain ⟨x, hx, hwx⟩ := h₂.visits hw
    exact ⟨x, hx, hvw.trans hwx⟩

/-- What is kempt stays so, and is retained. -/
def Upkeeps (c d : Conversion) : Prop := c.Kempt → d.Kempt ∧ Remains c d

instance : Std.Refl Upkeeps := ⟨fun _ hc => ⟨hc, .of_visits (.refl _) rfl fun _ => rfl⟩⟩

instance : Trans Upkeeps Upkeeps Upkeeps where
  trans h₁ h₂ hc := by
    obtain ⟨hd, hcd⟩ := h₁ hc
    obtain ⟨hf, hdf⟩ := h₂ hd
    exact ⟨hf, hcd.trans hdf⟩

/-- The same visits are kempt as well. -/
theorem Upkeeps.of_visits (hstore : Store.Keeps c.store d.store)
    (hnumber : d.survey.number = c.survey.number)
    (hvisits : ∀ n, d.survey.visit? n = c.survey.visit? n) : Upkeeps c d := fun hc =>
  ⟨⟨fun n v hv => hc.tidy n v ((hvisits n).symm.trans hv),
    fun n v hv => hc.bare n v ((hvisits n).symm.trans hv)⟩, .of_visits hstore hnumber hvisits⟩

/-- An action on the store retains a conversion if it keeps the store. -/
theorem onStore_upkeeps {α : Type} {a : Action Store α} (h : Within Store.Keeps a) :
    Within Upkeeps (onStore a) := fun c => .of_visits (h c.store) rfl fun _ => rfl

/-- Noting an event retains everything. -/
theorem log_upkeeps (event : Event) : Within Upkeeps (log event) :=
  onStore_upkeeps fun s => (Store.log_makes event s).keeps

/-- A failure retains everything. -/
theorem fail_upkeeps {α : Type} (g : Failure) : Within Upkeeps (fail g : Action Conversion α) :=
  onStore_upkeeps fun s => (Store.fail_makes g s).keeps

/-- Descents retain everything. -/
theorem Descends.upkeeps (h : Descends [] c d) (htidy : Upholds Visit.Tidy c d) : Upkeeps c d := by
  -- A visit from below changes the order and the marks, never what the node says.
  have hsame : ∀ {n v}, c.survey.visit? n = some v → ∃ w, d.survey.visit? n = some w ∧
      w.definition = v.definition ∧ w.fragment = v.fragment ∧ w.merged = v.merged ∧
        w.target = v.target := by
    intro n v hv
    obtain ⟨w, hw, hstage, -, hcontent⟩ := h.visits hv
    have hcontent := hcontent List.not_mem_nil
    exact ⟨w, hw, congrArg (·.1) hstage, congrArg (·.1) hcontent, congrArg (·.2.2) hstage,
      congrArg (·.2.1) hcontent⟩
  refine fun hc =>
    ⟨⟨htidy hc.tidy, fun n w hw hdefined => ?_⟩, h.store, h.number, fun {n v} hv => ?_⟩
  · cases hv : c.survey.visit? n with
    | none =>
      rw [show w.definition = none from congrArg (·.1) (h.entered hv hw)] at hdefined
      cases hdefined
    | some v =>
      obtain ⟨w', hw', hdefinition, hfragment, -⟩ := hsame hv
      obtain rfl := Option.some.inj (hw.symm.trans hw')
      rw [hfragment]
      exact hc.bare n v hv (hdefinition ▸ hdefined)
  · obtain ⟨w, hw, hdefinition, hfragment, hmerged, htarget⟩ := hsame hv
    have hbody : w.body = v.body := by
      unfold Visit.body
      rw [hdefinition, hfragment]
    exact ⟨w, hw, Visit.retained_of_body htarget (fun hm => hmerged.trans hm) hbody
      fun hd => ⟨hdefinition ▸ hd, hfragment⟩⟩

end Conversion

namespace Emission

variable {e : Emission} {b c d : Conversion} {n : NodeId} {v : Visit}

/-! ### Hoisting -/

/-- A node that becomes a definition was none before, so that its body stays. -/
theorem Hoists.body (h : Hoists e c d) (hc : c.Kempt) (hv : c.survey.visit? n = some v) :
    ∃ w, d.survey.visit? n = some w ∧ w.body = v.body ∧ w.merged = v.merged ∧
      w.target = v.target ∧ (v.definition.isSome → w = v) := by
  rcases h.visits hv with hsame | ⟨hfresh, ref, id, -, hmade⟩
  · exact ⟨v, hsame, rfl, rfl, rfl, fun _ => rfl⟩
  · have hnone : v.definition = none := by
      cases hdefinition : v.definition with
      | none => rfl
      | some body =>
        obtain ⟨ref, hbare⟩ := hc.bare n v hv (hdefinition ▸ rfl)
        rw [Visit.isReference, hbare] at hfresh
        cases hfresh
    refine ⟨_, hmade, ?_, rfl, rfl, fun hd => ?_⟩
    · unfold Visit.body
      rw [hnone]
      rfl
    · rw [hnone] at hd
      cases hd

/-- Making definitions retains everything. -/
theorem Hoists.upkeeps (h : Hoists e c d) : Upkeeps c d := by
  have hstore : Store.Keeps c.store d.store := fun hs => ⟨h.rewrites.grows, h.rewrites.closed hs⟩
  refine fun hc => ⟨⟨fun n w hw => ?_, fun n w hw hdefined => ?_⟩, hstore, h.rewrites.number,
    fun {n v} hv => ?_⟩
  · obtain ⟨v, hv⟩ := Survey.visit?_of_has
      ((h.rewrites.has n).symm.trans (Survey.has_of_visit? hw))
    -- What was hoisted holds one key, and its content is the fragment from before.
    rcases h.visits hv with hsame | ⟨-, ref, id, -, hmade⟩
    · obtain rfl := Option.some.inj (hw.symm.trans hsame)
      exact hc.tidy n w hv
    · obtain rfl := Option.some.inj (hw.symm.trans hmade)
      refine ⟨List.pairwise_singleton _ _, fun body hbody => ?_⟩
      obtain rfl := Option.some.inj hbody
      exact (hc.tidy n v hv).fragment
  · obtain ⟨v, hv⟩ := Survey.visit?_of_has
      ((h.rewrites.has n).symm.trans (Survey.has_of_visit? hw))
    rcases h.visits hv with hsame | ⟨-, ref, id, -, hmade⟩
    · obtain rfl := Option.some.inj (hw.symm.trans hsame)
      exact hc.bare n w hv hdefined
    · obtain rfl := Option.some.inj (hw.symm.trans hmade)
      exact ⟨ref, rfl⟩
  · obtain ⟨w, hw, hbody, hmerged, htarget, hdefined⟩ := h.body hc hv
    exact ⟨w, hw, Visit.retained_of_body htarget (fun hm => hmerged.trans hm) hbody
      fun hd => by rw [hdefined hd]; exact ⟨hd, rfl⟩⟩

/-! ### Settling -/

/-- A body that takes over content asks for what its own keywords ask for, or for more. -/
theorem Takes.asked {target : Target} {own below body : Entries} {t : NodeId}
    (h : Takes target own t below body) (hown : own.Distinct) {x : Value}
    (hx : own.get? allOfKey = some x) : ∃ y, body.get? allOfKey = some y ∧ x.Lengthens y := by
  unfold Takes at h
  split at h
  · rw [hx] at h
    split at h
    · rename_i hnone
      cases hnone
    · rename_i xs hxs
      obtain rfl := Option.some.inj hxs
      exact ⟨_, h ▸ Entries.get?_set_self .., .inr ⟨xs, _, rfl, rfl⟩⟩
    · exact ⟨x, h ▸ hx, .inl rfl⟩
  · refine ⟨x, ?_, .inl rfl⟩
    rw [h]
    unfold mergeBelow
    rw [Entries.get?_update hown, hx]
    rfl

/-- A body that takes over content has each key once. -/
theorem Takes.distinct {target : Target} {own below body : Entries} {t : NodeId}
    (h : Takes target own t below body) (hown : own.Distinct) : body.Distinct := by
  rcases h.cases with rfl | ⟨x, rfl⟩ | rfl
  · exact hown
  · exact hown.set _ _
  · exact (hown.update _).update _

/-- Appending to a list of annotations keeps the store, with a longer list. -/
theorem appended_keeps (c : Conversion) (number : Nat) (t : NodeId) :
    Store.Keeps c.store (appended c number t).store := by
  have houtlines : Outlines c (appended c number t) := { }
  exact fun hs => ⟨(appendShared_persists number t c).store, houtlines.closed hs⟩

/-- A visit that was not finished is retained when its body takes over content. -/
theorem Takes.retained {target : Target} {u v : Visit} {t : NodeId} {below body : Entries}
    (htakes : Takes target v.body t below body) (huv : u.Retained v) (hfresh : v.merged = false)
    (hv : v.body.Distinct) :
    u.Retained (({ v with merged := true } : Visit).withBody body) where
  target := by rw [Visit.target_withBody]; exact huv.target
  merged hm := by
    rw [huv.unmerged hfresh] at hm
    cases hm
  waits hm := by
    rw [Visit.merged_withBody] at hm
    cases hm
  defined hd := by
    obtain ⟨hdefined, hfragment⟩ := huv.defined hd
    have hkept : (({ v with merged := true } : Visit).withBody body).fragment = v.fragment :=
      Visit.fragment_withBody hdefined
    rw [Visit.isSome_definition_withBody, hkept]
    exact ⟨hdefined, hfragment⟩
  -- What was asked before is asked of the old body, which asks it of the new one.
  asked x hx := by
    obtain ⟨y, hy, hxy⟩ := huv.asked x hx
    obtain ⟨z, hz, hyz⟩ := htakes.asked hv hy
    rw [Visit.body_withBody]
    exact ⟨z, hz, hxy.trans hyz⟩

/-- Marking a node as finished retains everything else. -/
theorem marked_remains (c : Conversion) (n : NodeId) : Remains c (marked c n) where
  store := .refl _
  number := rfl
  visits {m v} hv := by
    by_cases hm : m = n
    · subst hm
      exact ⟨_, visit?_marked_self hv,
        Visit.retained_of_body rfl (fun _ => rfl) rfl fun hd => ⟨hd, rfl⟩⟩
    · exact ⟨v, (visit?_marked_of_ne hm).trans hv,
        Visit.retained_of_body rfl id rfl fun hd => ⟨hd, rfl⟩⟩

/-- **Invariants of settling.** What is kempt stays so, and is retained. -/
theorem upkeeps_preserved (target : Target) (b : Conversion) :
    Preserved target fun c => c.Kempt ∧ Remains b c where
  events {c d} hrewrites hsurvey := by
    rintro ⟨hc, hbc⟩
    have hcd : Upkeeps c d := .of_visits (fun hs => ⟨hrewrites.grows, hrewrites.closed hs⟩)
      hrewrites.number fun n => by rw [hsurvey]
    exact ⟨(hcd hc).1, hbc.trans (hcd hc).2⟩
  append {c} number t _ _ := by
    rintro ⟨hc, hbc⟩
    have hcd : Upkeeps c (appended c number t) :=
      .of_visits (appended_keeps c number t) rfl fun _ => rfl
    exact ⟨(hcd hc).1, hbc.trans (hcd hc).2⟩
  mark {c} n := by
    rintro ⟨hc, hbc⟩
    refine ⟨⟨forall_visit?_modify hc.tidy fun v hv => ?_, forall_visit?_modify hc.bare fun v hv => ?_⟩,
      hbc.trans (marked_remains c n)⟩
    · exact ⟨(hc.tidy n v hv).fragment, (hc.tidy n v hv).definition⟩
    · exact hc.bare n v hv
  -- Of all changes this alone writes a body: own keywords over a fragment of the target, with each
  -- key once.
  body {c d n v t body} := by
    rintro ⟨hc, hbc⟩ hv hfresh htarget ⟨hd, hbd⟩ hself htakes
    have hown := (hc.tidy n v hv).body
    refine ⟨⟨forall_visit?_modify hd.tidy fun u hu => ?_,
      forall_visit?_modify hd.bare fun u hu => ?_⟩, hbd.store, hbd.number, fun {m u} hu => ?_⟩
    · exact (hd.tidy n u hu).withBody (htakes.distinct hown)
    · intro hdefined
      rw [Visit.isSome_definition_withBody] at hdefined
      rw [Visit.fragment_withBody hdefined]
      exact hd.bare n u hu hdefined
    · by_cases hm : m = n
      · -- the visit as it was before the mark is the one that takes over content
        subst hm
        obtain ⟨v', hv', huv⟩ := hbc.visits hu
        obtain rfl := Option.some.inj (hv.symm.trans hv')
        exact ⟨_, Survey.visit?_modify_of_visit? hself _, htakes.retained huv hfresh hown⟩
      · obtain ⟨w, hw, huw⟩ := hbd.visits hu
        exact ⟨w, (Survey.visit?_modify_of_ne hm d.survey _).trans hw, huw⟩

/-! ### Emissions -/

/-- Whatever comes of an emission, it retains everything. -/
theorem document_upkeeps (hoverride : e.override = none) : Within Upkeeps e.document := by
  have hclaim : Within Upkeeps e.claim :=
    .bind within_get fun _ _ => .of_visits (.refl _) rfl fun _ => rfl
  have hhoist : Within Upkeeps e.hoist := fun c => (hoist_hoists c).state_of_and.upkeeps
  have hsettle : Within Upkeeps e.settleVisits := fun c hc =>
    (upkeeps_preserved e.target c).settled hoverride
      ⟨hc, .of_visits (.refl _) rfl fun _ => rfl⟩
  have hlist : Within Upkeeps e.listDefinitions := by
    refine .bind within_get fun c => ?_
    refine .bind (fun d => .of_visits (.refl _) rfl fun _ => rfl) fun _ => ?_
    split
    · exact fail_upkeeps _
    · exact within_pure _
  refine .bind within_get fun c => ?_
  split
  · exact fail_upkeeps _
  · refine .bind (.bind hclaim fun _ => .bind hhoist fun _ => .bind hsettle fun _ => hlist) ?_
    intro _
    refine .bind (.bind within_get fun c => ?_) fun _ => ?_
    · split
      · exact within_pure _
      · exact fail_upkeeps _
    · exact .bind (.bind within_get fun c => log_upkeeps _) fun _ => within_pure _

end Emission

namespace Converter

variable {conv : Converter}

/-- Whatever comes of a call, it retains everything. -/
theorem Call.run_upkeeps (hoverride : conv.override = none) (call : Call) (desk : Desk) :
    Upkeeps desk.conversion (call.run conv desk).2.conversion := by
  cases call with
  | process root =>
    have htidy : Within (Upholds Visit.Tidy) (conv.process root) :=
      .bind (visit_upholds Visit.Tidy.upheld root [] []) fun _ =>
        .bind within_get fun _ => onStore_upholds _
    exact (process_within conv root desk.conversion).upkeeps (htidy desk.conversion)
  | visit n ancestors path =>
    exact (visit_within n ancestors path desk.conversion).upkeeps
      (visit_upholds Visit.Tidy.upheld n ancestors path desk.conversion)
  | emit external policy root =>
    let b := desk.load external
    have hload : Upkeeps desk.conversion b := .of_visits (.refl _) rfl fun _ => rfl
    have hdocument := document_upkeeps (e := conv.emission policy root) hoverride b
    have hkeep : Upkeeps ((conv.emission policy root).document b).2
        ((Call.emit external policy root).run conv desk).2.conversion :=
      .of_visits (.refl _) rfl fun _ => rfl
    exact Trans.trans (Trans.trans hload hdocument) hkeep

namespace Desk

/-- **What sessions retain.** Calls retain what is kempt, whatever each of them comes to. -/
theorem runAll_upkeeps (hoverride : conv.override = none) (calls : List Call) (desk : Desk) :
    Upkeeps desk.conversion (runAll conv calls desk).2.conversion := by
  induction calls generalizing desk with
  | nil => exact Std.Refl.refl _
  | cons call rest ih =>
    rw [runAll_cons]
    exact Trans.trans (call.run_upkeeps hoverride desk) (ih _)

/-- A conversion that has just started is kempt. -/
theorem kempt_start (store : Store) : (start store).Kempt where
  tidy _ _ hv := by cases hv
  bare _ _ hv := by cases hv

end Desk

end Converter

end SchemaGraph
