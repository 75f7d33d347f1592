import SchemaGraph.Proofs.Document.Progress

namespace SchemaGraph

open SchemaGraph.Action Conversion

/-!
# Invariants of settling

Settling is made of few steps: visits are marked as finished, bodies take over the fragments of
targets, lists of annotations that stand apart grow, and events are left behind.  What none of them
breaks holds behind settling, whatever comes of it.

* `Emission.Preserved`  — what no step of settling breaks
* `Emission.Preserved.settled` — it holds behind settling, if there is no override
* `Emission.Referring`  — some nodes are references
* `Conversion.Formed`   — fragments and bodies have texts as keys, each once
-/

namespace Emission

variable {e : Emission} {c d : Conversion} {target : Target} {P : Conversion → Prop}

/-- A conversion in which a list of annotations has got one more fragment. -/
def appended (c : Conversion) (number : Nat) (t : NodeId) : Conversion :=
  { c with store := { c.store with
      lists := c.store.lists.modify number fun xs => xs ++ [.borrowed c.survey.number t] } }

/-- What no step of settling breaks: an event, one more fragment in a list of annotations, the mark
    of a finished visit, and a body that takes over content for the first time. -/
structure Preserved (target : Target) (P : Conversion → Prop) : Prop where
  events : ∀ {c d : Conversion}, Rewrites c d → d.survey = c.survey → P c → P d
  append : ∀ {c} (number : Nat) {t}, target = .draft7 →
    (c.survey.fragment t).has Visit.refKey = true → P c → P (appended c number t)
  mark : ∀ {c} (n : NodeId), P c → P (marked c n)
  body : ∀ {c d n v t body}, P c → c.survey.visit? n = some v → v.merged = false →
    v.target = some t → P d → d.survey.visit? n = some { v with merged := true } →
    Takes target v.body t (d.survey.fragment t) body →
    P { d with survey := d.survey.modify n fun v => v.withBody body }

/-- What is preserved holds when content was taken over. -/
theorem Preserved.inherit (hp : Preserved e.target P) (own : Entries) (t : NodeId) (hc : P c) :
    Meets (e.inherit own t) c (fun body d => d.survey = c.survey ∧ P d ∧
      Takes e.target own t (d.survey.fragment t) body) P := by
  have hfail : ∀ f, P ((Conversion.fail f : Action Conversion Entries) c).2 := by
    intro f
    obtain ⟨d, hrun, hrewrites, hsurvey⟩ := run_fail Entries f c
    rw [hrun]
    exact hp.events hrewrites hsurvey hc
  -- Only a shared list is changed; whatever else stands under `allOf` is copied or refused.
  have hstate : P (e.inherit own t c).2 := by
    obtain ⟨-, hrun⟩ | ⟨hbare, ⟨xs, -, hrun⟩ | ⟨number, -, hrun⟩ | ⟨-, hrun⟩⟩ :=
      e.inherit_cases own t c
    · rwa [hrun]
    · rwa [hrun]
    · rw [hrun]
      exact hp.append number hbare.2 hbare.1 hc
    · rw [hrun]
      exact hfail _
  have hsurvey := inherit_survey (e := e) own t c
  unfold Meets
  rcases hrun : e.inherit own t c with ⟨f | body, d⟩
  · rw [hrun] at hstate
    exact hstate
  · rw [hrun] at hstate hsurvey
    refine ⟨hsurvey, hstate, ?_⟩
    rw [hsurvey]
    exact inherit_takes hrun

/-- What is preserved holds behind settling a node. -/
theorem Preserved.settle (hp : Preserved e.target P) (hoverride : e.override = none) (links : Nat)
    (n : NodeId) (hc : P c) : P (e.settle links n c).2 := by
  induction links generalizing n c with
  | zero => exact hc
  | succ links ih =>
    refine Meets.state (settle_meets hoverride (fun _ => hc) (fun _ _ => hp.mark n hc) ?_)
    intro v t hv hfresh htarget
    -- the visit is marked, so that settling the target leaves it alone
    refine .bind (meets_of_state (P := fun f : Conversion => P f ∧
      f.survey.visit? n = some { v with merged := true }) ⟨ih t (hp.mark n hc), ?_⟩ |>.mono
      (fun _ _ h => h) fun _ h => h.1) ?_
    · exact (settle_advances links t (marked c n)).finished (visit?_marked_self hv) rfl
    · rintro _ f ⟨hf, hown⟩
      refine .bind (hp.inherit v.body t hf) ?_
      rintro body g ⟨hsurvey, hg, htakes⟩
      exact hp.body hc hv hfresh htarget hg (by rw [hsurvey]; exact hown) htakes

/-- What is preserved holds behind settling several nodes. -/
theorem Preserved.settleAll (hp : Preserved e.target P) (hoverride : e.override = none)
    (links : Nat) (ns : List NodeId) (hc : P c) : P (e.settleAll links ns c).2 := by
  induction ns generalizing c with
  | nil => exact hc
  | cons n rest ih =>
    refine Meets.state (.bind (meets_of_state (hp.settle hoverride links n hc)) fun _ d hd => ?_)
    exact meets_of_state (ih hd)

/-- **Invariants of settling.** What is preserved holds behind settling, whatever comes of it. -/
theorem Preserved.settled (hp : Preserved e.target P) (hoverride : e.override = none) (hc : P c) :
    P (e.settleVisits c).2 := by
  unfold Emission.settleVisits
  rw [run_bind, run_get]
  exact hp.settleAll hoverride _ _ hc

/-- A property that every change preserves is preserved by settling. -/
theorem Preserved.settleVisits (hp : Preserved e.target P) (hoverride : e.override = none)
    (h : Returns e.settleVisits c () d) (hc : P c) : P d := by
  have hstate := hp.settled hoverride hc
  rwa [show e.settleVisits c = (.ok (), d) from h] at hstate

/-- A change to one visit that keeps a property of visits. -/
theorem forall_visit?_modify {Q : NodeId → Visit → Prop} {s : Survey} {n : NodeId}
    {f : Visit → Visit} (h : ∀ m v, s.visit? m = some v → Q m v)
    (hf : ∀ v, s.visit? n = some v → Q n (f v)) :
    ∀ m v, (s.modify n f).visit? m = some v → Q m v := by
  intro m v hv
  obtain ⟨rfl, w, hw, rfl⟩ | ⟨-, hv⟩ := Survey.visit?_modify_cases hv
  · exact hf w hw
  · exact h m v hv

/-! ### References of nodes -/

/-- Some nodes are references. -/
def Referring (among : NodeId → Prop) (c : Conversion) : Prop :=
  ∀ n v, c.survey.visit? n = some v → among n → v.isReference = true

/-- A reference that takes over content stays one, as a body keeps its own keywords. -/
theorem Takes.isReference {v : Visit} {t : NodeId} {below body : Entries}
    (h : Takes target v.body t below body) (hv : v.isReference = true) :
    (({ v with merged := true } : Visit).withBody body).isReference = true := by
  -- The body is the definition, beside which the reference stands, or it holds the reference.
  cases hsome : v.definition.isSome with
  | true =>
    unfold Visit.isReference
    rw [Visit.fragment_withBody (show ({ v with merged := true } : Visit).definition.isSome from hsome)]
    exact hv
  | false =>
    have hown : v.body.has Visit.refKey = true := by
      rw [Visit.body, Option.isNone_iff_eq_none.mp (Option.isSome_eq_false_iff.mp hsome)]
      exact hv
    have hfragment : (({ v with merged := true } : Visit).withBody body).fragment = body := by
      unfold Visit.withBody
      rw [hsome]
      rfl
    unfold Visit.isReference
    rw [hfragment]
    rcases h.cases with rfl | ⟨x, rfl⟩ | rfl
    · exact hown
    · exact Entries.has_set hown _ _
    · exact Entries.has_update (Entries.has_update hown _) _

/-- References stay references. -/
theorem referring_preserved (target : Target) (among : NodeId → Prop) :
    Preserved target (Referring among) where
  events _ hsame hc n v hv := hc n v (by rw [← hsame]; exact hv)
  append _ _ _ _ hc := hc
  mark n hc := forall_visit?_modify hc fun v hv => hc n v hv
  body {c d n v t body} hc hv _ _ hd hself htakes := by
    refine forall_visit?_modify hd fun u hu hn => ?_
    obtain rfl := Option.some.inj (hself.symm.trans hu)
    exact htakes.isReference (hc n v hv hn)

end Emission

/-! ### Well-formed visits -/

/-- The fragment and the body of a visit are well formed. -/
structure Visit.Formed (v : Visit) : Prop where
  fragment : v.fragment.Formed
  body : v.body.Formed

/-- All visits are well formed. -/
def Conversion.Formed (c : Conversion) : Prop :=
  ∀ n v, c.survey.visit? n = some v → v.Formed

/-- Fragments of formed conversions are formed. -/
theorem Conversion.Formed.fragment {c : Conversion} (h : c.Formed) (n : NodeId) :
    (c.survey.fragment n).Formed := by
  unfold Survey.fragment
  cases hv : c.survey.visit? n with
  | none => exact .nil
  | some v => exact (h n v hv).fragment

/-- A visit stays formed with a formed body. -/
theorem Visit.Formed.withBody {v : Visit} (h : v.Formed) {body : Entries} (hb : body.Formed) :
    (v.withBody body).Formed where
  fragment := by
    unfold Visit.withBody
    split
    · exact h.fragment
    · exact hb
  body := by
    rw [Visit.body_withBody]
    exact hb

namespace Emission

/-- What is settled stays well formed. -/
theorem formed_preserved (target : Target) : Preserved target Conversion.Formed where
  events _ hsame hc n v hv := hc n v (by rw [← hsame]; exact hv)
  append _ _ _ _ hc := hc
  mark n hc := forall_visit?_modify hc fun v hv => ⟨(hc n v hv).fragment, (hc n v hv).body⟩
  body {c d n v t body} hc hv _ _ hd _ htakes := by
    have hown := (hc n v hv).body
    have hbody : body.Formed := by
      rcases htakes.cases with rfl | ⟨x, rfl⟩ | rfl
      · exact hown
      · exact hown.set "allOf" x
      · exact (hown.update (hd.fragment t).texts).update hown.texts
    exact forall_visit?_modify hd fun u hu => (hd n u hu).withBody hbody

/-- Hoisting keeps visits well formed. -/
theorem Hoists.formed {e : Emission} {c d : Conversion} (h : Hoists e c d) (hc : c.Formed) :
    d.Formed := by
  intro n w hw
  obtain ⟨v, hv⟩ := Survey.visit?_of_has
    ((h.rewrites.has n).symm.trans (Survey.has_of_visit? hw))
  rcases h.visits hv with hsame | ⟨-, ref, id, -, hdefined⟩
  · obtain rfl := Option.some.inj (hw.symm.trans hsame)
    exact hc n w hv
  · obtain rfl := Option.some.inj (hw.symm.trans hdefined)
    refine ⟨⟨fun p hp => ⟨"$ref", ?_⟩, List.pairwise_singleton _ _⟩, (hc n v hv).fragment⟩
    rw [List.mem_singleton.mp hp]
    rfl

end Emission

end SchemaGraph
