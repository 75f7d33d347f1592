import SchemaGraph.Proofs.Document.Again
import SchemaGraph.Proofs.Document.Roots
import SchemaGraph.Proofs.Document.Untouched

namespace SchemaGraph

open SchemaGraph.Action Conversion

/-!
# Portions of a survey

A survey may hold what another one holds, and more.  If in both the same nodes become definitions,
one after the other, they get the same references and ids.  Settling finishes the nodes that the
surveys have in common in the same way, whatever the order is, unless their content is passed on in
a circle on which some node is no definition.  So both list the same definitions.

* `Emission.hoisted`    — the nodes that become definitions
* `Conversion.Covers`   — the one survey holds what the other one does
* `Conversion.Covers.hoist`    — hoisting the same nodes comes to the same
* `Emission.settleVisits_secures` — what keeps settling from failing
* `Conversion.Covers.settle`   — settling comes to the same
* `Survey.definitions_congr`     — the same definitions are listed
-/

/-! ### Hoisted nodes -/

namespace Emission

variable {e : Emission} {c d : Conversion}

/-- Whether a visited node becomes a definition. -/
def hoists (e : Emission) (c : Conversion) (n : NodeId) : Bool :=
  match c.survey.visit? n with
  | some v => e.isHoisted c.store c.linkage n v
  | none => false

/-- The visited nodes that become definitions, in order. -/
def hoisted (e : Emission) (c : Conversion) : List NodeId := c.survey.order.filter (e.hoists c)

/-- Makes definitions of nodes in order. -/
def extractEach (e : Emission) : List NodeId → Action Conversion Unit
  | [] => pure ()
  | n :: rest => do
    e.extract n
    extractEach e rest

/-- The same nodes become definitions behind some hoisting. -/
theorem hoists_eq (h : Hoists e c d) : e.hoists d = e.hoists c := by
  funext n
  unfold hoists
  cases hv : c.survey.visit? n with
  | none =>
    have hhas := h.rewrites.has n
    unfold Survey.has at hhas
    rw [hv] at hhas
    rw [Option.isNone_iff_eq_none.mp (Option.isSome_eq_false_iff.mp hhas)]
  | some v =>
    rcases h.visits hv with hd | ⟨-, ref, id, -, hd⟩
    · rw [hd]
      exact isHoisted_eq h.rewrites n v
    · rw [hd]
      exact isHoisted_eq h.rewrites n (v.defined ref id)

/-- Nodes that exist are hoisted where they are to be. -/
theorem hoistAll_eq {ns : List NodeId} (hns : ∀ n ∈ ns, c.survey.has n = true ∧ n ≠ .gap) :
    e.hoistAll ns c = e.extractEach (ns.filter (e.hoists c)) c := by
  induction ns generalizing c with
  | nil => rfl
  | cons n rest ih =>
    obtain ⟨⟨hn, hgap⟩, hrest⟩ := List.forall_mem_cons.mp hns
    obtain ⟨v, hv⟩ := Survey.visit?_of_has hn
    -- Whether `n` is hoisted is asked before its turn; nothing that comes first changes the answer.
    have hhoists : e.hoists c n = e.isHoisted c.store c.linkage n v := by
      unfold hoists
      rw [hv]
    rw [hoistAll_cons e rest hv, if_neg fun h => hgap h.2.2, List.filter_cons, hhoists]
    split
    · unfold extractEach
      rw [run_bind, run_bind]
      have hstep := (extract_hoists (e := e) hn).state_of_and
      rcases hextract : e.extract n c with ⟨f | _, d⟩
      · rfl
      · rw [hextract] at hstep
        rw [← hoists_eq hstep]
        refine ih fun m hm => ⟨?_, (hrest m hm).2⟩
        rw [hstep.rewrites.has]
        exact (hrest m hm).1
    · exact ih hrest

/-- The reference to the definition of a node in a document that stands alone: it depends on the
    fragment of the node and on how many ids were made. -/
theorem referenceFor_alone (e : Emission) (n : NodeId) (fragment : Entries) (counter : Nat) :
    ∃ choice behind, ∀ v c, v.fragment = fragment → c.linkage = none →
      c.survey.counter = counter → e.referenceFor n v c =
        (.ok choice, { c with survey := { c.survey with counter := behind } }) := by
  by_cases hroot : n = e.root
  · refine ⟨("#", none), counter, ?_⟩
    rintro v ⟨store, survey, _, shown⟩ - rfl rfl
    unfold referenceFor
    rw [run_bind, run_get]
    dsimp only
    rw [if_pos hroot]
    rfl
  · let given := (fragment.get? "id").getD .null
    let id : Value := if given.isTruthy then given else .str ("__schema" ++ toString counter)
    refine ⟨(definitionAddress e.target "" id, some id),
      if given.isTruthy then counter else counter + 1, ?_⟩
    rintro v ⟨store, survey, _, shown⟩ rfl rfl rfl
    unfold referenceFor
    rw [run_bind, run_get]
    dsimp only
    rw [if_neg hroot, run_bind]
    unfold chooseId
    rw [if_neg (by decide)]
    -- The id is read off the fragment, which is the same for all such visits.
    by_cases hid : (fragmentId v).isTruthy
    · have hgiven : given.isTruthy = true := hid
      simp only [hid, hgiven, if_true, id]
      rfl
    · have hgiven : given.isTruthy = false := Bool.eq_false_iff.mpr hid
      simp only [hid, hgiven, id]
      rfl

/-- Making a definition for a document that stands alone. -/
theorem extract_alone (e : Emission) (n : NodeId) (fragment : Entries) (counter : Nat) :
    ∃ ref id behind, ∀ {c v}, c.survey.visit? n = some v → v.isReference = false →
      v.fragment = fragment → c.linkage = none → c.survey.counter = counter →
      ∃ events, e.extract n c = (.ok (), { c with
        store := { c.store with events }
        survey := { c.survey with counter := behind }.modify n fun v => define v ref id }) := by
  obtain ⟨⟨ref, id⟩, behind, hchoice⟩ := e.referenceFor_alone n fragment counter
  refine ⟨ref, id, behind, fun {c v} hv hfresh hfragment hl hcounter => ?_⟩
  refine ⟨c.store.events ++ [e.event "definition_hoisted" [("ref", .str ref),
    ("def_id", id.getD .null)]], ?_⟩
  unfold extract
  rw [run_bind, run_visitOf, hv]
  dsimp only [Option.getD_some]
  rw [hfresh, if_neg Bool.false_ne_true, run_bind, hchoice v c hfragment hl hcounter]
  rfl

end Emission

/-! ### Surveys that hold what others do -/

/-- A visit but for the marks of the ways on which its node was reached. -/
def Visit.unmarked (v : Visit) : Visit := { v with count := 1, cycle := none, isSource := false }

namespace Conversion

variable {e : Emission} {c d c' d' : Conversion}

/-- The conversions are about documents that stand alone.  What the second one has visited, the
    first one has, and found the same. -/
structure Covers (c d : Conversion) : Prop where
  alone : c.linkage = none
  alone' : d.linkage = none
  counter : d.survey.counter = c.survey.counter
  visits : ∀ {n w}, d.survey.visit? n = some w →
    ∃ v, c.survey.visit? n = some v ∧ v.unmarked = w.unmarked

namespace Covers

/-- A change of the same visit on both sides, that does not see marks. -/
theorem modify (h : Covers c d) (n : NodeId) {f : Visit → Visit}
    (hf : ∀ v, (f v).unmarked = f v.unmarked) :
    Covers { c with survey := c.survey.modify n f } { d with survey := d.survey.modify n f } where
  alone := h.alone
  alone' := h.alone'
  counter := h.counter
  visits {m w} hw := by
    have hw : (d.survey.modify n f).visit? m = some w := hw
    show ∃ v, (c.survey.modify n f).visit? m = some v ∧ _
    by_cases hm : m = n
    · subst hm
      rw [Survey.visit?_modify_self] at hw ⊢
      obtain ⟨w', hw', rfl⟩ := Option.map_eq_some_iff.mp hw
      obtain ⟨v, hv, hsame⟩ := h.visits hw'
      refine ⟨f v, by rw [hv]; rfl, ?_⟩
      rw [hf, hf, hsame]
    · rw [Survey.visit?_modify_of_ne hm] at hw ⊢
      exact h.visits hw

/-- Making the same definition comes to the same, and leaves other visits alone. -/
theorem extract (h : Covers c d) {n : NodeId} (hn : d.survey.has n = true) :
    ∃ c' d', Returns (e.extract n) c () c' ∧ Returns (e.extract n) d () d' ∧ Covers c' d' ∧
      d'.survey.order = d.survey.order ∧
      ∀ m, m ≠ n → c'.survey.visit? m = c.survey.visit? m := by
  obtain ⟨w, hw⟩ := Survey.visit?_of_has hn
  obtain ⟨v, hv, hsame⟩ := h.visits hw
  have hfragment : v.fragment = w.fragment := congrArg (·.fragment) hsame
  have hreference : v.isReference = w.isReference := by
    unfold Visit.isReference
    rw [hfragment]
  cases href : w.isReference with
  | true =>
    exact ⟨c, d, Emission.extract_idle hv (hreference.trans href), Emission.extract_idle hw href,
      h, rfl, fun _ _ => rfl⟩
  | false =>
    -- The fragment and the counter tell the reference, and both are the same here and there.
    obtain ⟨ref, id, counter, hrun⟩ := e.extract_alone n w.fragment c.survey.counter
    obtain ⟨events, hc⟩ := hrun hv (hreference.trans href) hfragment h.alone rfl
    obtain ⟨events', hd⟩ := hrun hw href rfl h.alone' h.counter
    refine ⟨_, _, hc, hd, ?_, Survey.order_modify _ n _, fun m hm => ?_⟩
    · have hcounted : Covers
          { c with store := { c.store with events }, survey := { c.survey with counter } }
          { d with store := { d.store with events := events' },
                   survey := { d.survey with counter } } :=
        { alone := h.alone, alone' := h.alone', counter := rfl, visits := h.visits }
      exact hcounted.modify n fun _ => rfl
    · exact Survey.visit?_modify_of_ne hm _ _

/-- Where one conversion covers another, both make the same definitions: induction on the nodes. -/
theorem extractEach (h : Covers c d) (ns : List NodeId) (hns : ∀ n ∈ ns, d.survey.has n = true) :
    ∃ c' d', Returns (e.extractEach ns) c () c' ∧ Returns (e.extractEach ns) d () d' ∧
      Covers c' d' ∧ ∀ m, m ∉ ns → c'.survey.visit? m = c.survey.visit? m := by
  induction ns generalizing c d with
  | nil => exact ⟨c, d, rfl, rfl, h, fun _ _ => rfl⟩
  | cons n rest ih =>
    obtain ⟨hn, hrest⟩ := List.forall_mem_cons.mp hns
    obtain ⟨c₁, d₁, hc₁, hd₁, h₁, horder, hothers₁⟩ := h.extract (e := e) hn
    obtain ⟨c', d', hc', hd', h', hothers⟩ := ih h₁ fun m hm => by
      rw [Survey.has_iff, horder, ← Survey.has_iff]
      exact hrest m hm
    refine ⟨c', d', returns_bind.mpr ⟨_, _, hc₁, hc'⟩, returns_bind.mpr ⟨_, _, hd₁, hd'⟩, h',
      fun m hm => ?_⟩
    rw [List.mem_cons, not_or] at hm
    exact (hothers m hm.2).trans (hothers₁ m hm.1)

/-- **Hoisting.** If the same nodes become definitions, in the same order, they become the same
    definitions. -/
theorem hoist (h : Covers c d) (hgap : ∀ n, c.survey.has n = true → n ≠ .gap)
    (hsame : e.hoisted d = e.hoisted c) :
    ∃ c' d', Returns e.hoist c () c' ∧ Returns e.hoist d () d' ∧ Covers c' d' ∧
      ∀ n, n ∉ e.hoisted c → c'.survey.visit? n = c.survey.visit? n := by
  have hcovered : ∀ n, d.survey.has n = true → c.survey.has n = true := by
    intro n hn
    obtain ⟨w, hw⟩ := Survey.visit?_of_has hn
    obtain ⟨v, hv, -⟩ := h.visits hw
    exact Survey.has_of_visit? hv
  -- Hoisting is one extraction after the other, in the order of visits.
  have hhoist : ∀ b : Conversion, (∀ n, b.survey.has n = true → n ≠ .gap) →
      e.hoist b = e.extractEach (e.hoisted b) b := by
    intro b hb
    unfold Emission.hoist
    rw [run_bind, run_get]
    refine Emission.hoistAll_eq fun n hn => ?_
    rw [← Survey.has_iff] at hn
    exact ⟨hn, hb n hn⟩
  obtain ⟨c', d', hc, hd, h', hothers⟩ := h.extractEach (e := e) (e.hoisted c) fun n hn => by
    rw [← hsame] at hn
    exact (Survey.has_iff _ _).mpr (List.mem_of_mem_filter hn)
  refine ⟨c', d', (hhoist c hgap).trans hc, ?_, h', hothers⟩
  refine (hhoist d fun n hn => hgap n (hcovered n hn)).trans ?_
  rw [hsame]
  exact hd

end Covers

end Conversion

/-! ### Settling does not fail -/

namespace Emission

variable {e : Emission} {c d : Conversion} {target : Target} {refs : NodeId → Prop} {s : Store}

/-- In the dialect that puts references under `allOf`, only some nodes are references, and what
    passes the content of these on and is still to be finished leaves that keyword to it. -/
structure Heedful (target : Target) (refs : NodeId → Prop) (s : Store) (c : Conversion) : Prop where
  store : c.store = s
  references : target = .draft7 → ∀ n v, c.survey.visit? n = some v → v.isReference = true → refs n
  asks : target = .draft7 → ∀ n v, c.survey.visit? n = some v → v.merged = false →
    ∀ t, v.target = some t → refs t → v.body.get? allOfKey = none

/-- A change of a visit that is finished, and refers to another place if that is to be expected. -/
theorem Heedful.modify (h : Heedful target refs s c) {n : NodeId} {f : Visit → Visit}
    (hf : ∀ v, c.survey.visit? n = some v → (f v).merged = true ∧
      (target = .draft7 → (f v).isReference = true → refs n)) :
    Heedful target refs s { c with survey := c.survey.modify n f } where
  store := h.store
  references ht := forall_visit?_modify (Q := fun n v => v.isReference = true → refs n)
    (h.references ht) fun v hv => (hf v hv).2 ht
  asks ht := by
    refine forall_visit?_modify (h.asks ht) fun v hv hwaits => ?_
    rw [(hf v hv).1] at hwaits
    cases hwaits

/-- In the dialect that puts references under `allOf` no reference is taken over. -/
theorem has_refKey_inherited {own below : Entries} {t : NodeId}
    (h : (inherited .draft7 own t below).has Visit.refKey = true) : own.has Visit.refKey = true := by
  unfold inherited Entries.has at h
  unfold Entries.has
  split at h
  · rw [Entries.get?_set_of_ne (by decide)] at h
    exact h
  · rename_i hbare
    have hbelow : below.get? Visit.refKey = none := by
      simpa [Entries.has] using hbare
    cases hown : own.get? Visit.refKey with
    | some x => rfl
    | none =>
      rw [mergeBelow, Entries.get?_update_none (Entries.get?_update_none hown hbelow) hown] at h
      cases h

/-- A visit that takes content over is a reference if it has been one. -/
theorem isReference_of_inherited {v : Visit} {below : Entries} {t : NodeId}
    (h : (({ v with merged := true } : Visit).withBody
      (inherited .draft7 v.body t below)).isReference = true) : v.isReference = true := by
  unfold Visit.withBody at h
  split at h
  · exact h
  · rename_i hsome
    have hown : v.body = v.fragment := by
      rw [Visit.body, Option.not_isSome_iff_eq_none.mp hsome]
      rfl
    have hreference := has_refKey_inherited h
    rwa [hown] at hreference

/-- Settling a node heeds what is still to come. -/
theorem settle_secures (hoverride : e.override = none) (links : Nat) (n : NodeId) :
    Secures (Heedful e.target refs s) (e.settle links n) := by
  induction links generalizing n with
  | zero => exact secures_pure _
  | succ links ih =>
    intro c hc
    have hmarked : Heedful e.target refs s (marked c n) :=
      hc.modify fun v hv => ⟨rfl, fun ht href => hc.references ht n v hv href⟩
    refine settle_meets hoverride (fun _ => hc) (fun _ _ => hmarked) fun v t hv hfresh htarget => ?_
    obtain ⟨_, f, hrun, hf⟩ := (ih t (marked c n) hmarked).returns
    -- the visit is marked, and so left alone
    have hown := ((settle_advances links t).of_returns hrun).finished (visit?_marked_self hv) rfl
    have hinherit : e.inherit v.body t f =
        (.ok (inherited e.target v.body t (f.survey.fragment t)), f) := by
      refine run_inherit fun ht href => ?_
      obtain ⟨u, hu, href⟩ := Survey.isReference_iff.mp href
      exact hc.asks ht n v hv hfresh t htarget (hf.references ht t u hu href)
    refine .bind (P := fun _ g => f = g) ?_ ?_
    · unfold Meets
      rw [show e.settle links t (marked c n) = (.ok (), f) from hrun]
    rintro _ _ rfl
    refine .bind (P := fun body g => body = inherited e.target v.body t
      (f.survey.fragment t) ∧ f = g) ?_ ?_
    · unfold Meets
      rw [hinherit]
      exact ⟨rfl, rfl⟩
    rintro _ _ ⟨rfl, rfl⟩
    refine hf.modify fun u hu => ?_
    obtain rfl := Option.some.inj (hown.symm.trans hu)
    refine ⟨Visit.merged_withBody _ _, fun ht href => hc.references ht n v hv ?_⟩
    rw [ht] at href
    exact isReference_of_inherited href

/-- **Settling does not fail** and leaves the store alone, unless an annotation stands where a
    reference belongs. -/
theorem settleVisits_secures (hoverride : e.override = none) :
    Secures (Heedful e.target refs s) e.settleVisits := by
  refine secures_read fun c => ?_
  dsimp only
  generalize c.survey.order.reverse = ns
  induction ns with
  | nil => exact secures_pure _
  | cons n rest ih => exact (settle_secures hoverride _ n).bind fun _ => ih

/-- What a body becomes that takes content over is determined. -/
theorem Takes.unique {own below body body' : Entries} {t : NodeId}
    (h : Takes target own t below body) (h' : Takes target own t below body') : body = body' := by
  unfold Takes at h h'
  split at h
  · rename_i hbare
    rw [if_pos hbare] at h'
    split at h <;> rename_i hget <;> simp only [hget] at h' <;> exact h.trans h'.symm
  · rename_i hbare
    rw [if_neg hbare] at h'
    exact h.trans h'.symm

end Emission

/-! ### Settling the same nodes -/

/-- The same nodes are definitions behind what persists. -/
theorem Conversion.Persists.defines {c d : Conversion} (h : Persists c d) (n : NodeId) :
    d.survey.defines n = c.survey.defines n := by
  unfold Survey.defines
  cases hv : c.survey.visit? n with
  | some v =>
    obtain ⟨w, hw, hvw⟩ := h.visits hv
    rw [hw]
    exact hvw.hoisted
  | none =>
    have hhas := h.has n
    unfold Survey.has at hhas
    rw [hv] at hhas
    rw [Option.isNone_iff_eq_none.mp (Option.isSome_eq_false_iff.mp hhas)]

/-- The visits show the same in documents. -/
structure Visit.Shows (v w : Visit) : Prop where
  fragment : v.fragment = w.fragment
  definition : v.definition = w.definition
  definitionId : v.definitionId = w.definitionId

namespace Conversion.Covers

variable {e : Emission} {c d c' d' : Conversion}

/-- The same nodes are definitions on both sides. -/
theorem defines (h : Covers c d) {n : NodeId} (hn : d.survey.has n = true) :
    c.survey.defines n = d.survey.defines n := by
  obtain ⟨w, hw⟩ := Survey.visit?_of_has hn
  obtain ⟨v, hv, hsame⟩ := h.visits hw
  have hdefinition : v.definition = w.definition := congrArg (·.definition) hsame
  simp [Survey.defines, hv, hw, hdefinition]

/-- What covers a conversion passes content on as it does. -/
theorem next (h : Covers c d) {n m : NodeId} (hnext : d.Next n m) : c.Next n m := by
  obtain ⟨w, hw, hm⟩ := hnext
  obtain ⟨v, hv, hsame⟩ := h.visits hw
  have htarget : v.target = w.target := congrArg (·.target) hsame
  exact ⟨v, hv, htarget.trans hm⟩

/-- A node that is passed on in a circle passes a node on that is on the circle, too. -/
theorem loop_next {n t : NodeId} (hnext : c.Next n t) (hloop : Relation.TransGen c.Next n n) :
    Relation.TransGen c.Next t t := by
  obtain ⟨m, hm, hback⟩ := Relation.TransGen.head'_iff.mp hloop
  obtain ⟨v, hv, ht⟩ := id hnext
  obtain ⟨v', hv', hm'⟩ := hm
  obtain rfl := Option.some.inj (hv.symm.trans hv')
  obtain rfl := Option.some.inj (ht.symm.trans hm')
  exact Relation.TransGen.tail' hback hnext

/-! The visits of a node behind settling, with what they have been before. -/

section Settling

variable (h : Covers c d) (hc : Persists c c') (hd : Persists d d') {n : NodeId} {v w : Visit}
include h hc hd

/-- Visits behind hoisting and settling were made, with the same content, before. -/
theorem before (hv : c'.survey.visit? n = some v) (hw : d'.survey.visit? n = some w) :
    ∃ v₀ w₀, c.survey.visit? n = some v₀ ∧ d.survey.visit? n = some w₀ ∧
      v₀.unmarked = w₀.unmarked ∧ v₀.Persists v ∧ w₀.Persists w := by
  obtain ⟨v₀, hv₀, hvs⟩ := hc.back hv
  obtain ⟨w₀, hw₀, hws⟩ := hd.back hw
  obtain ⟨v₁, hv₁, hsame⟩ := h.visits hw₀
  obtain rfl := Option.some.inj (hv₀.symm.trans hv₁)
  exact ⟨v₀, w₀, hv₀, hw₀, hsame, hvs, hws⟩

/-- A node that was visited before has a visit behind hoisting and settling in both. -/
theorem behind (hn : d.survey.has n = true) :
    ∃ v w, c'.survey.visit? n = some v ∧ d'.survey.visit? n = some w := by
  obtain ⟨w₀, hw₀⟩ := Survey.visit?_of_has hn
  obtain ⟨w, hw, -⟩ := hd.visits hw₀
  obtain ⟨v₀, hv₀, -⟩ := h.visits hw₀
  obtain ⟨v, hv, -⟩ := hc.visits hv₀
  exact ⟨v, w, hv, hw⟩

/-- A definition keeps its reference; where there is none, the fragment is the body. -/
theorem fragment_eq (hv : c'.survey.visit? n = some v) (hw : d'.survey.visit? n = some w)
    (hbody : d.survey.defines n = false → v.body = w.body) : v.fragment = w.fragment := by
  obtain ⟨v₀, w₀, hv₀, hw₀, hsame, hvs, hws⟩ := h.before hc hd hv hw
  have hdefinition : v₀.definition = w₀.definition := congrArg (·.definition) hsame
  cases hsome : w₀.definition with
  | some body =>
    rw [hvs.fragment (by rw [hdefinition, hsome]; rfl), hws.fragment (by rw [hsome]; rfl)]
    exact congrArg (·.fragment) hsame
  | none =>
    have hv_none : v.definition = none := Option.isNone_iff_eq_none.mp
      (Option.isSome_eq_false_iff.mp (by rw [hvs.hoisted, hdefinition, hsome]; rfl))
    have hw_none : w.definition = none := Option.isNone_iff_eq_none.mp
      (Option.isSome_eq_false_iff.mp (by rw [hws.hoisted, hsome]; rfl))
    have hundefined : d.survey.defines n = false := by simp [Survey.defines, hw₀, hsome]
    have hbodies := hbody hundefined
    unfold Visit.body at hbodies
    rwa [hv_none, hw_none] at hbodies

/-- What has the same body shows the same. -/
theorem shows (hv : c'.survey.visit? n = some v) (hw : d'.survey.visit? n = some w)
    (hbody : v.body = w.body) : v.Shows w := by
  refine ⟨h.fragment_eq hc hd hv hw fun _ => hbody, ?_, ?_⟩
  all_goals obtain ⟨v₀, w₀, hv₀, hw₀, hsame, hvs, hws⟩ := h.before hc hd hv hw
  · have hdefinition : v₀.definition = w₀.definition := congrArg (·.definition) hsame
    have hhoisted : v.definition.isSome = w.definition.isSome := by
      rw [hvs.hoisted, hws.hoisted, hdefinition]
    unfold Visit.body at hbody
    cases hx : v.definition with
    | none =>
      rw [hx] at hhoisted
      exact (Option.isNone_iff_eq_none.mp (Option.isSome_eq_false_iff.mp hhoisted.symm)).symm
    | some body =>
      obtain ⟨body', hy⟩ := Option.isSome_iff_exists.mp (hhoisted.symm.trans (by rw [hx]; rfl))
      rw [hx, hy] at hbody
      rw [hy]
      exact congrArg some hbody
  · rw [hvs.id, hws.id]
    exact congrArg (·.definitionId) hsame

end Settling

/-- What two visits become that were the same and have taken over the same. -/
theorem unfolds_unique {target : Target} {n : NodeId} {v w : Visit} {body body' : Entries}
    (hsame : v.unmarked = w.unmarked) (hv : Emission.Unfolds target c c' n v body)
    (hw : Emission.Unfolds target d d' n w body')
    (htarget : ∀ t, v.target = some t →
      (c'.survey.defines t = true ∨ ¬ Relation.TransGen c.Next n n) ∧
      (d'.survey.defines t = true ∨ ¬ Relation.TransGen d.Next n n) ∧
      c'.survey.fragment t = d'.survey.fragment t) : body = body' := by
  have hbody : v.body = w.body := congrArg (·.body) hsame
  have htargets : v.target = w.target := congrArg (·.target) hsame
  have hmerged : v.merged = w.merged := congrArg (·.merged) hsame
  unfold Emission.Unfolds at hv hw
  rw [← hmerged, ← htargets, ← hbody] at hw
  cases hdone : v.merged with
  | true =>
    rw [hdone] at hv hw
    exact hv.trans hw.symm
  | false =>
    rw [hdone] at hv hw
    cases ht : v.target with
    | none =>
      rw [ht] at hv hw
      exact hv.trans hw.symm
    | some t =>
      rw [ht] at hv hw
      obtain ⟨hfinal, hfinal', hfragment⟩ := htarget t ht
      obtain ⟨below, htakes, hbelow⟩ := hv
      obtain ⟨below', htakes', hbelow'⟩ := hw
      rw [hbelow hfinal, hfragment] at htakes
      rw [hbelow' hfinal'] at htakes'
      exact htakes.unique htakes'

/-- **Settling.** Where content is passed on in a circle of definitions only, settling makes the
    same of the same nodes. -/
theorem settle (h : Covers c d) (hoverride : e.override = none)
    (hc : Returns e.settleVisits c () c') (hd : Returns e.settleVisits d () d')
    (hnext : ∀ n m, d.Next n m → d.survey.has m = true)
    (hloops : ∀ n, d.survey.has n = true → Relation.TransGen c.Next n n →
      d.survey.defines n = true) {n : NodeId} {w : Visit} (hw : d'.survey.visit? n = some w) :
    ∃ v, c'.survey.visit? n = some v ∧ v.Shows w := by
  have hpersists := Emission.settleVisits_persists.of_returns hc
  have hpersists' := Emission.settleVisits_persists.of_returns hd
  have hloop_d : ∀ {n}, Relation.TransGen d.Next n n → Relation.TransGen c.Next n n :=
    fun {n} => Relation.TransGen.mono (fun _ _ => h.next) n n
  have hacyclic : ∀ n, ¬ Relation.TransGen
      (fun n m => d.Next n m ∧ d.survey.defines m = false) n n := by
    intro n hloop
    obtain ⟨m, -, hlast, hundefined⟩ := Relation.TransGen.tail'_iff.mp hloop
    have hdefined := hloops n (hnext m n hlast)
      (Relation.TransGen.mono (fun _ _ hstep => h.next hstep.1) n n hloop)
    rw [hundefined] at hdefined
    cases hdefined
  -- along the content passed on, as far as it is that of no definition
  have hbodies : ∀ n ∈ d.survey.order, ∀ v w, c'.survey.visit? n = some v →
      d'.survey.visit? n = some w → v.body = w.body := by
    refine forall_mem_of_acyclic hacyclic fun n hn ih v w hv hw => ?_
    obtain ⟨v₀, w₀, hv₀, hw₀, hsame, -, -⟩ := h.before hpersists hpersists' hv hw
    obtain ⟨v₁, hv₁, hunfolds⟩ := Emission.settleVisits_unfolds hoverride hc hv₀
    obtain rfl := Option.some.inj (hv.symm.trans hv₁)
    obtain ⟨w₁, hw₁, hunfolds'⟩ := Emission.settleVisits_unfolds hoverride hd hw₀
    obtain rfl := Option.some.inj (hw.symm.trans hw₁)
    refine unfolds_unique hsame hunfolds hunfolds' fun t ht => ?_
    have hnext_c : c.Next n t := ⟨v₀, hv₀, ht⟩
    have hnext_d : d.Next n t := ⟨w₀, hw₀, (congrArg (·.target) hsame).symm.trans ht⟩
    have ht_has := hnext n t hnext_d
    obtain ⟨x, y, hx, hy⟩ := h.behind hpersists hpersists' ht_has
    have hfinal : Relation.TransGen c.Next n n →
        c'.survey.defines t = true ∧ d'.survey.defines t = true := by
      intro hloop
      have hdefined := hloops t ht_has (loop_next hnext_c hloop)
      rw [hpersists.defines, hpersists'.defines, h.defines ht_has]
      exact ⟨hdefined, hdefined⟩
    refine ⟨?_, ?_, ?_⟩
    · by_cases hloop : Relation.TransGen c.Next n n
      · exact .inl (hfinal hloop).1
      · exact .inr hloop
    · by_cases hloop : Relation.TransGen d.Next n n
      · exact .inl (hfinal (hloop_d hloop)).2
      · exact .inr hloop
    · rw [Survey.fragment, Survey.fragment, hx, hy]
      exact h.fragment_eq hpersists hpersists' hx hy fun hundefined =>
        ih t ((Survey.has_iff _ _).mp ht_has) ⟨hnext_d, hundefined⟩ x y hx hy
  have hn : d.survey.has n = true := (hpersists'.has n).symm.trans (Survey.has_of_visit? hw)
  obtain ⟨v, w', hv, hw'⟩ := h.behind hpersists hpersists' hn
  obtain rfl := Option.some.inj (hw.symm.trans hw')
  exact ⟨v, hv, h.shows hpersists hpersists' hv hw
    (hbodies n ((Survey.has_iff _ _).mp hn) v w hv hw)⟩

/-- What is heeded in a survey is heeded in one that holds less. -/
theorem heedful (h : Covers c d) {target : Target} {refs : NodeId → Prop} {s : Store}
    (hc : Emission.Heedful target refs s c) : Emission.Heedful target refs d.store d where
  store := rfl
  references ht n w hw href := by
    obtain ⟨v, hv, hsame⟩ := h.visits hw
    have hfragment : v.fragment = w.fragment := congrArg (·.fragment) hsame
    refine hc.references ht n v hv ?_
    unfold Visit.isReference at href ⊢
    rwa [hfragment]
  asks ht n w hw hwaits t htarget hrefs := by
    obtain ⟨v, hv, hsame⟩ := h.visits hw
    have hbody : v.body = w.body := congrArg (·.body) hsame
    have hmerged : v.merged = w.merged := congrArg (·.merged) hsame
    have htargets : v.target = w.target := congrArg (·.target) hsame
    rw [← hbody]
    exact hc.asks ht n v hv (hmerged.trans hwaits) t (htargets.trans htarget) hrefs

end Conversion.Covers

/-! ### Listing the same definitions -/

namespace Emission

/-- A visit as a listing sees it: it counts only as a definition, and under its id. -/
def definitionOf (n : NodeId) (v : Visit) : Option (NodeId × Value) :=
  if v.definition.isSome then some (n, v.definitionId) else none

/-- The definitions among visits, with their ids. -/
def definitions (visits : List (NodeId × Visit)) : List (NodeId × Value) :=
  visits.filterMap fun p => definitionOf p.1 p.2

/-- What is listed depends on the definitions and their ids. -/
theorem listed_congr {visits visits' : List (NodeId × Visit)}
    (h : definitions visits' = definitions visits) (table : List (Value × NodeId)) :
    listed visits' table = listed visits table := by
  have hplain : ∀ visits table, listed visits table = listed ((definitions visits).map
      fun p => (p.1, ({ definition := some [], definitionId := p.2 } : Visit))) table := by
    intro visits
    induction visits with
    | nil => exact fun _ => rfl
    | cons p rest ih =>
      obtain ⟨n, v⟩ := p
      intro table
      cases hsome : v.definition.isSome with
      | true =>
        have hdefinitions : definitions ((n, v) :: rest) =
            (n, v.definitionId) :: definitions rest := by
          simp [definitions, definitionOf, hsome]
        rw [hdefinitions, List.map_cons]
        unfold listed
        simp only [hsome, Option.isSome_some, true_and]
        split
        · split
          · exact ih _
          · rfl
        · exact ih _
      | false =>
        have hdefinitions : definitions ((n, v) :: rest) = definitions rest := by
          simp [definitions, definitionOf, hsome]
        rw [hdefinitions, ← ih]
        conv_lhs => unfold listed
        rw [if_neg (by simp [hsome])]
  rw [hplain visits', h, ← hplain]

end Emission

namespace Survey

variable {s t : Survey}

/-- The visits are those of the visited nodes in order. -/
theorem filterMap_visits {α : Type} (hnodup : s.order.Nodup) (f : NodeId → Visit → Option α) :
    s.visits.filterMap (fun p => f p.1 p.2) =
      s.order.filterMap fun n => (s.visit? n).bind (f n) := by
  unfold order visit? at *
  generalize s.visits = visits at hnodup ⊢
  induction visits with
  | nil => rfl
  | cons p rest ih =>
    obtain ⟨m, v⟩ := p
    rw [List.map_cons] at hnodup
    obtain ⟨hfresh, hrest⟩ := List.nodup_cons.mp hnodup
    have hself : find? m ((m, v) :: rest) = some v := by simp [find?]
    have htail : (rest.map (·.1)).filterMap (fun n => (find? n ((m, v) :: rest)).bind (f n)) =
        (rest.map (·.1)).filterMap fun n => (find? n rest).bind (f n) := by
      refine List.filterMap_congr fun n hn => ?_
      have hne : m ≠ n := fun hsame => hfresh (hsame ▸ hn)
      simp [find?, hne]
    rw [List.map_cons, List.filterMap_cons, List.filterMap_cons, hself, htail, ih hrest]
    rfl

/-- The definitions of a survey stand in the order of nodes among which all definitions are. -/
theorem definitions_eq (hnodup : s.order.Nodup) {p : NodeId → Bool}
    (hp : ∀ n v, s.visit? n = some v → v.definition.isSome → p n = true) :
    Emission.definitions s.visits = (s.order.filter p).filterMap
      fun n => (s.visit? n).bind (Emission.definitionOf n) := by
  unfold Emission.definitions
  rw [filterMap_visits hnodup, List.filterMap_filter]
  refine List.filterMap_congr fun n _ => ?_
  cases hn : p n with
  | true => rfl
  | false =>
    cases hv : s.visit? n with
    | none => rfl
    | some v =>
      cases hsome : v.definition.isSome with
      | false => simp [Emission.definitionOf, hsome]
      | true =>
        have htrue := hp n v hv hsome
        rw [hn] at htrue
        cases htrue

/-- **Listing.** Surveys list the same definitions, if their definitions are among the same nodes and
    show the same. -/
theorem definitions_congr (hs : s.order.Nodup) (ht : t.order.Nodup) {p q : NodeId → Bool}
    (hp : ∀ n v, s.visit? n = some v → v.definition.isSome → p n = true)
    (hq : ∀ n w, t.visit? n = some w → w.definition.isSome → q n = true)
    (hsame : t.order.filter q = s.order.filter p)
    (hshows : ∀ n w, t.visit? n = some w → ∃ v, s.visit? n = some v ∧ v.Shows w) :
    Emission.definitions t.visits = Emission.definitions s.visits := by
  rw [definitions_eq hs hp, definitions_eq ht hq, ← hsame]
  refine List.filterMap_congr fun n hn => ?_
  obtain ⟨w, hw⟩ := visit?_of_has ((has_iff t n).mpr (List.mem_of_mem_filter hn))
  obtain ⟨v, hv, hvw⟩ := hshows n w hw
  rw [hv, hw]
  simp [Emission.definitionOf, hvw.definition, hvw.definitionId]

end Survey

namespace Emission

variable {e : Emission} {s t : Survey}

/-- Documents that list the same definitions of nodes that show the same have the same keywords. -/
theorem assemble_congr (hroot : t.has e.root = true)
    (hlisted : listed s.visits [] = listed t.visits [])
    (hshows : ∀ n w, t.visit? n = some w → ∃ v, s.visit? n = some v ∧ v.Shows w) :
    e.assemble s (listed s.visits []).1 = e.assemble t (listed t.visits []).1 := by
  have hdefinition : ∀ n, t.has n = true → s.definition n = t.definition n := by
    intro n hn
    obtain ⟨w, hw⟩ := Survey.visit?_of_has hn
    obtain ⟨v, hv, hvw⟩ := hshows n w hw
    simp [Survey.definition, hv, hw, hvw.definition]
  have htable : tableEntries s (listed t.visits []).1 = tableEntries t (listed t.visits []).1 := by
    unfold tableEntries
    refine List.map_congr_left fun p hp => ?_
    obtain ⟨v, hv, -⟩ := (mem_listed hp).resolve_left List.not_mem_nil
    have hn : t.has p.2 = true := (Survey.has_iff _ _).mpr (List.mem_map_of_mem hv)
    show (p.1, Value.dict (s.definition p.2)) = (p.1, Value.dict (t.definition p.2))
    rw [hdefinition p.2 hn]
  unfold assemble
  rw [hlisted, htable, hdefinition e.root hroot]

end Emission

end SchemaGraph
