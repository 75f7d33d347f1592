import SchemaGraph.Proofs.Document.Breaking
import SchemaGraph.Proofs.Document.Cutting
import SchemaGraph.Proofs.Document.Portions
import SchemaGraph.Proofs.Document.Retaining
import SchemaGraph.Proofs.Document.Untouched

namespace SchemaGraph

open SchemaGraph.Action Conversion Emission

/-!
# What wrappers ask for

In the dialect that ignores all keywords beside a reference, a node whose target is a definition
asks for the reference besides, behind all that it asks for itself.  A node above it that asks for
nothing itself takes this over, and so on along the chain of nodes that pass content on.

* `Store.demands?`      — what a body asks for besides
* `Conversion.Demands`  — a body asks for the fragment of a node
* `Conversion.Wraps`    — a chain of nodes that pass on content, and a reference with it
* `Emission.settleVisits_demands` — what heads of chains ask for in the end
* `Converter.Desk.references_kept` — which references are kept, and what else is asked for
-/

/-- What a body asks for besides: the elements of its list, or those of the list of annotations that
    it holds, as they are now. -/
def Store.demands? (s : Store) (body : Entries) : Option (List Value) :=
  match body.get? allOfKey with
  | some (.items .list xs) => some xs
  | some (.shared number) => s.lists[number]?
  | _ => none

namespace Conversion

variable {c d : Conversion} {body : Entries} {n t : NodeId} {v : Visit}

/-- A body asks for the fragment of a node. -/
def Demands (c : Conversion) (body : Entries) (n : NodeId) : Prop :=
  ∃ xs, c.store.demands? body = some xs ∧
    ∃ x ∈ xs, x = .fragment n ∨ x = .borrowed c.survey.number n

/-- The list of annotations that a body holds is there, if it holds one. -/
def Attached (c : Conversion) (body : Entries) : Prop :=
  ∀ number, body.get? allOfKey = some (.shared number) → (c.store.lists[number]?).isSome

/-- What is asked for is never taken away. -/
theorem demands?_grows (h : Store.Grows c.store d.store) {body' : Entries} {x y : Value}
    (hx : body.get? allOfKey = some x) (hy : body'.get? allOfKey = some y) (hxy : x.Lengthens y)
    {xs : List Value} (hxs : c.store.demands? body = some xs) :
    ∃ more, d.store.demands? body' = some (xs ++ more) := by
  unfold Store.demands? at hxs ⊢
  rw [hx] at hxs
  rw [hy]
  rcases hxy with rfl | ⟨ys, more, rfl, rfl⟩
  · split at hxs
    · rename_i ys hys
      obtain rfl := Option.some.inj hys
      obtain rfl := Option.some.inj hxs
      exact ⟨[], by rw [List.append_nil]⟩
    · rename_i number hnumber
      obtain rfl := Option.some.inj hnumber
      exact h.lists hxs
    · cases hxs
  · obtain rfl := Option.some.inj hxs
    exact ⟨more, rfl⟩

/-- A body that asks for something besides holds it under `allOf`. -/
theorem exists_of_demands? {s : Store} {xs : List Value} (h : s.demands? body = some xs) :
    ∃ x, body.get? allOfKey = some x := by
  cases hx : body.get? allOfKey with
  | none =>
    unfold Store.demands? at h
    rw [hx] at h
    cases h
  | some x => exact ⟨x, rfl⟩

/-- A body goes on asking for a fragment while lists only become longer. -/
theorem Demands.grows (h : c.Demands body n) (hstore : Store.Grows c.store d.store)
    (hnumber : d.survey.number = c.survey.number) {body' : Entries}
    (hasked : ∀ x, body.get? allOfKey = some x →
      ∃ y, body'.get? allOfKey = some y ∧ x.Lengthens y) : d.Demands body' n := by
  obtain ⟨xs, hxs, x, hx, hmeans⟩ := h
  obtain ⟨y, hy⟩ := exists_of_demands? hxs
  obtain ⟨z, hz, hyz⟩ := hasked y hy
  obtain ⟨more, hmore⟩ := demands?_grows hstore hy hz hyz hxs
  exact ⟨_, hmore, x, List.mem_append_left _ hx, hnumber ▸ hmeans⟩

/-- The same body asks for the same as before. -/
theorem Demands.same (h : c.Demands body n) (hstore : Store.Grows c.store d.store)
    (hnumber : d.survey.number = c.survey.number) : d.Demands body n :=
  h.grows hstore hnumber fun x hx => ⟨x, hx, .inl rfl⟩

/-- A list of annotations that is there stays there. -/
theorem Attached.grows (h : c.Attached body) (hstore : Store.Grows c.store d.store) :
    d.Attached body := by
  intro number hnumber
  obtain ⟨xs, hxs⟩ := Option.isSome_iff_exists.mp (h number hnumber)
  obtain ⟨more, hmore⟩ := hstore.lists hxs
  rw [hmore]
  rfl

/-- What calls retain, they retain of demands. -/
theorem Remains.demands? (h : Remains c d) (hs : c.store.Closed) (hv : c.survey.visit? n = some v)
    {xs : List Value} (hxs : c.store.demands? v.body = some xs) :
    ∃ w more, d.survey.visit? n = some w ∧ d.store.demands? w.body = some (xs ++ more) := by
  obtain ⟨w, hw, hvw⟩ := h.visits hv
  obtain ⟨x, hx⟩ := exists_of_demands? hxs
  obtain ⟨y, hy, hxy⟩ := hvw.asked x hx
  obtain ⟨more, hmore⟩ := demands?_grows (h.store hs).1 hx hy hxy hxs
  exact ⟨w, more, hw, hmore⟩

/-- The fragments of definitions are references. -/
def Cited (c : Conversion) : Prop :=
  ∀ t, c.survey.defines t = true → (c.survey.fragment t).has Visit.refKey = true

/-- A kempt conversion refers to its definitions. -/
theorem Kempt.cited (h : c.Kempt) : c.Cited := by
  intro t ht
  obtain ⟨v, hv, hdefined⟩ := Survey.visit?_of_defines ht
  obtain ⟨ref, hbare⟩ := h.bare t v hv hdefined
  unfold Survey.fragment
  rw [hv]
  exact (congrArg (Entries.has Visit.refKey) hbare).trans rfl

/-- References to definitions persist. -/
theorem Cited.persists (h : c.Cited) (hd : Persists c d) : d.Cited := by
  intro t ht
  have ht : c.survey.defines t = true := (hd.defines t).symm.trans ht
  obtain ⟨v, hv, hdefined⟩ := Survey.visit?_of_defines ht
  obtain ⟨w, hw, hvw⟩ := hd.visits hv
  have href := h t ht
  unfold Survey.fragment at href ⊢
  rw [hv] at href
  rw [hw]
  exact (congrArg (Entries.has Visit.refKey) (hvw.fragment hdefined)).trans href

/-- A chain of nodes that pass content on, up to a definition.  The last one may ask for something
    itself.  Those above it ask for nothing and do not pass content on in a circle, and each has a
    target that is neither a definition nor refers to another place itself. -/
inductive Wraps (c : Conversion) (defined : NodeId → Prop) : NodeId → NodeId → Prop
  | bound {m n : NodeId} {v : Visit} (hv : c.survey.visit? m = some v) (hwaits : v.merged = false)
      (htarget : v.target = some n) (hown : c.Attached v.body) (hn : defined n) :
      Wraps c defined m n
  | link {m t n : NodeId} {v : Visit} (hv : c.survey.visit? m = some v) (hwaits : v.merged = false)
      (htarget : v.target = some t) (hown : v.body.get? allOfKey = none)
      (hloop : ¬ Relation.TransGen c.Next m m) (ht : ¬ defined t)
      (hplain : (c.survey.body t).has Visit.refKey = false) (h : Wraps c defined t n) :
      Wraps c defined m n

/-- The head of a chain waits to be finished. -/
theorem Wraps.waits {defined : NodeId → Prop} {m : NodeId} (h : c.Wraps defined m n) :
    ∃ v, c.survey.visit? m = some v ∧ v.merged = false := by
  cases h with
  | bound hv hwaits => exact ⟨_, hv, hwaits⟩
  | link hv hwaits => exact ⟨_, hv, hwaits⟩

/-- What ends a chain is a definition. -/
theorem Wraps.defined {defined : NodeId → Prop} {m : NodeId} (h : c.Wraps defined m n) :
    defined n := by
  induction h with
  | bound _ _ _ _ hn => exact hn
  | link _ _ _ _ _ _ _ _ ih => exact ih

/-- The same nodes were visited, and have the same bodies and the same targets. -/
structure SameBodies (c d : Conversion) : Prop where
  store : Store.Grows c.store d.store
  has : ∀ n, d.survey.has n = c.survey.has n
  visits : ∀ {n v}, c.survey.visit? n = some v → ∃ w, d.survey.visit? n = some w ∧
    w.body = v.body ∧ w.merged = v.merged ∧ w.target = v.target

/-- The bodies are the same if the visits are. -/
theorem SameBodies.of_visits (hstore : Store.Grows c.store d.store)
    (hvisits : d.survey.visits = c.survey.visits) : SameBodies c d where
  store := hstore
  has n := Survey.has_of_visits hvisits n
  visits hv := ⟨_, (Survey.visit?_of_visits hvisits _).trans hv, rfl, rfl, rfl⟩

/-- Content is passed on to the same nodes. -/
theorem SameBodies.next (h : SameBodies c d) {m : NodeId} (hm : d.Next m n) : c.Next m n := by
  obtain ⟨w, hw, ht⟩ := hm
  obtain ⟨v, hv⟩ := Survey.visit?_of_has ((h.has m).symm.trans (Survey.has_of_visit? hw))
  obtain ⟨w', hw', -, -, htarget⟩ := h.visits hv
  obtain rfl := Option.some.inj (hw.symm.trans hw')
  exact ⟨v, hv, htarget.symm.trans ht⟩

/-- Chains depend on bodies and targets alone. -/
theorem Wraps.sameBodies {defined : NodeId → Prop} {m : NodeId} (h : c.Wraps defined m n)
    (hd : SameBodies c d) : d.Wraps defined m n := by
  induction h with
  | bound hv hwaits htarget hown hn =>
    obtain ⟨w, hw, hbody, hmerged, hsame⟩ := hd.visits hv
    exact .bound hw (hmerged.trans hwaits) (hsame.trans htarget) (hbody ▸ hown.grows hd.store) hn
  | @link m t n v hv hwaits htarget hown hloop ht hplain hbelow ih =>
    obtain ⟨w, hw, hbody, hmerged, hsame⟩ := hd.visits hv
    refine .link hw (hmerged.trans hwaits) (hsame.trans htarget) (hbody ▸ hown)
      (fun h => hloop (Relation.TransGen.mono (fun _ _ => hd.next) m m h)) ht ?_ ih
    obtain ⟨u, hu, -⟩ := hbelow.waits
    obtain ⟨x, hx, hbody', -⟩ := hd.visits hu
    unfold Survey.body at hplain ⊢
    rw [hu] at hplain
    rw [hx, Option.map_some, hbody']
    exact hplain

/-- A chain is a chain whatever the definitions are called. -/
theorem Wraps.mono {defined more : NodeId → Prop} {m : NodeId} (h : c.Wraps defined m n)
    (hsame : ∀ k, defined k ↔ more k) : c.Wraps more m n := by
  obtain rfl : defined = more := funext fun k => propext (hsame k)
  exact h

end Conversion

namespace Emission

variable {e : Emission} {b c d f : Conversion} {n t : NodeId} {v : Visit}

/-! ### Settling -/

/-- A body whose target is a reference asks for it behind all that it asks for itself. -/
theorem inherit_demands (htarget : e.target = .draft7) {own body : Entries}
    (hown : c.Attached own) (href : (c.survey.fragment t).has Visit.refKey = true)
    (h : Returns (e.inherit own t) c body d) : d.Demands body t := by
  unfold Returns at h
  obtain ⟨hbare, -⟩ | ⟨-, hrun⟩ := e.inherit_cases own t c
  · exact absurd ⟨href, htarget⟩ hbare
  obtain ⟨xs, -, hrun⟩ | ⟨number, hnumber, hrun⟩ | ⟨-, hrun⟩ := hrun
  · -- a list that only the body holds gets the reference as its last element
    cases hrun.symm.trans h
    refine ⟨xs ++ [.fragment t], ?_, .fragment t,
      List.mem_append_right _ (List.mem_singleton_self _), .inl rfl⟩
    unfold Store.demands?
    rw [Entries.get?_set_self]
  · -- the list of its annotation grows where it stands
    cases hrun.symm.trans h
    obtain ⟨xs, hxs⟩ := Option.isSome_iff_exists.mp (hown number hnumber)
    refine ⟨xs ++ [.borrowed c.survey.number t], ?_, _,
      List.mem_append_right _ (List.mem_singleton_self _), .inr rfl⟩
    unfold Store.demands?
    rw [hnumber]
    show (c.store.lists.modify number _)[number]? = _
    simp [hxs]
  · exact absurd (hrun.symm.trans h) not_returns_fail

/-- What is finished in between asks for the definition that is its target. -/
def Charges (c d : Conversion) : Prop :=
  ∀ n v t, c.survey.visit? n = some v → v.merged = false → v.target = some t →
    c.survey.defines t = true → c.Attached v.body →
    d.survey.visit? n = some v ∨
      ∃ w, d.survey.visit? n = some w ∧ w.merged = true ∧ d.Demands w.body t

/-- How far settling has come, with what is asked for by what it has finished. -/
structure Settles (c d : Conversion) : Prop where
  advances : Advances c d
  persists : Persists c d
  number : d.survey.number = c.survey.number
  charges : Charges c d

/-- At first nothing is settled. -/
theorem Settles.refl (c : Conversion) : Settles c c where
  advances := .of_survey rfl
  persists := .refl c
  number := rfl
  charges _ _ _ hv _ _ _ _ := .inl hv

/-- What is settled twice is settled. -/
theorem Settles.trans (h₁ : Settles c d) (h₂ : Settles d f) : Settles c f where
  advances := h₁.advances.trans h₂.advances
  persists := h₁.persists.trans h₂.persists
  number := h₂.number.trans h₁.number
  charges n v t hv hwaits htarget hdefined hown := by
    rcases h₁.charges n v t hv hwaits htarget hdefined hown with hd | ⟨w, hw, hmerged, hdemands⟩
    · exact h₂.charges n v t hd hwaits htarget ((h₁.persists.defines t).trans hdefined)
        (hown.grows h₁.persists.store)
    · exact .inr ⟨w, h₂.advances.finished hw hmerged, hmerged,
        hdemands.same h₂.persists.store h₂.number⟩

/-- A node that takes over a definition asks for it. -/
theorem demands_withBody (htarget : e.target = .draft7) {f g : Conversion} {body : Entries}
    (hv : f.survey.visit? n = some v) (hown : f.Attached v.body)
    (href : (f.survey.fragment t).has Visit.refKey = true)
    (hinherit : Returns (e.inherit v.body t) f body g) :
    ∃ w, (g.survey.modify n fun v => v.withBody body).visit? n = some w ∧ w.merged = v.merged ∧
      g.Demands w.body t := by
  have hsurvey := survey_of_inherit hinherit
  refine ⟨v.withBody body, Survey.visit?_modify_of_visit? (hsurvey ▸ hv) _,
    Visit.merged_withBody v body, ?_⟩
  rw [Visit.body_withBody]
  exact inherit_demands htarget hown href hinherit

/-- **Settling a node.** What it finishes asks for the definition that is its target. -/
theorem settle_charges (hoverride : e.override = none) (htarget : e.target = .draft7)
    (links : Nat) (m : NodeId) (hcited : c.Cited) (h : Returns (e.settle links m) c () d) :
    Settles c d := by
  -- Induction on the links: below the node, settling charges all it finishes; then the node itself
  -- is charged with its target.
  induction links generalizing m c d with
  | zero =>
    obtain ⟨-, rfl⟩ := returns_pure.mp h
    exact .refl _
  | succ links ih =>
    have hnumber := (bears_rests.settle (links + 1) m).of_returns h |>.number
    refine ⟨(settle_advances (links + 1) m).of_returns h,
      (bears_persists.settle (links + 1) m).of_returns h, hnumber,
      fun n v t hv hwaits ht hdefined hown => ?_⟩
    cases settle_settlesAs hoverride h with
    | finished => exact .inl hv
    | plain hnone =>
      refine .inl ((visit?_marked_of_ne ?_).trans hv)
      rintro rfl
      rw [hv, Option.getD_some, ht] at hnone
      cases hnone
    | @passing u t' f g body hu _ ht' hsettle hinherit =>
      have hmarked : Persists c (marked c m) := marked_persists c m
      have hbelow : Settles (marked c m) f := ih t' (hcited.persists hmarked) hsettle
      have hf : Persists c f := hmarked.trans hbelow.persists
      have hsurvey := survey_of_inherit hinherit
      by_cases hn : n = m
      · -- the node itself asks for its target behind what it asked for before
        subst hn
        obtain rfl := Option.some.inj (hv.symm.trans hu)
        obtain rfl := Option.some.inj (ht.symm.trans ht')
        have href := hcited.persists hf t ((hf.defines t).trans hdefined)
        obtain ⟨w, hw, hmerged, hdemands⟩ := demands_withBody htarget
          (hbelow.advances.finished (visit?_marked_self hv) rfl) (hown.grows hf.store) href hinherit
        exact .inr ⟨w, hw, hmerged, hdemands⟩
      · have hsame : (g.survey.modify m fun v => v.withBody body).visit? n = f.survey.visit? n := by
          rw [Survey.visit?_modify_of_ne hn, hsurvey]
        refine (hbelow.charges n v t ((visit?_marked_of_ne hn).trans hv) hwaits ht
          ((hmarked.defines t).trans hdefined) (hown.grows hmarked.store)).imp hsame.trans ?_
        rintro ⟨w, hw, hmerged, hdemands⟩
        refine ⟨w, hsame.trans hw, hmerged, hdemands.same ?_ (congrArg (·.number) hsurvey)⟩
        exact ((bears_persists.inherit _ t').of_returns hinherit).store

/-- In the older dialect settling charges all that it finishes: induction on the nodes. -/
theorem settleAll_charges (hoverride : e.override = none) (htarget : e.target = .draft7)
    (links : Nat) (ns : List NodeId) (hcited : c.Cited)
    (h : Returns (e.settleAll links ns) c () d) : Settles c d := by
  induction ns generalizing c with
  | nil =>
    obtain ⟨-, rfl⟩ := returns_pure.mp h
    exact .refl _
  | cons n rest ih =>
    obtain ⟨_, c', hfirst, hrest⟩ := returns_bind.mp h
    have hstep := settle_charges hoverride htarget links n hcited hfirst
    exact hstep.trans (ih (hcited.persists hstep.persists) hrest)

/-- When everything is settled, whatever waited asks for the definition that is its target. -/
theorem settleVisits_charges (hoverride : e.override = none) (htarget : e.target = .draft7)
    (hcited : c.Cited) (h : Returns e.settleVisits c () d) (hv : c.survey.visit? n = some v)
    (hwaits : v.merged = false) (ht : v.target = some t) (hdefined : c.survey.defines t = true)
    (hown : c.Attached v.body) :
    ∃ w, d.survey.visit? n = some w ∧ d.Demands w.body t := by
  have hall := h
  obtain ⟨_, _, hget, hrun⟩ := returns_bind.mp hall
  obtain ⟨rfl, rfl⟩ := returns_get.mp hget
  rcases (settleAll_charges hoverride htarget _ _ hcited hrun).charges n v t hv hwaits ht hdefined
    hown with hsame | ⟨w, hw, -, hdemands⟩
  · rw [settleVisits_merges h hsame] at hwaits
    cases hwaits
  · exact ⟨w, hw, hdemands⟩

/-- A body that takes over what asks for nothing else asks for what that asks for. -/
theorem Takes.demands {own below body : Entries} (h : Takes .draft7 own t below body)
    (hown : own.get? allOfKey = none) (hdistinct : own.Distinct) (hbelow : below.Distinct)
    (hplain : below.has Visit.refKey = false) (hn : d.Demands below n) : d.Demands body n := by
  unfold Takes at h
  rw [if_neg (by simp [hplain])] at h
  obtain ⟨xs, hxs, hx⟩ := hn
  refine ⟨xs, ?_, hx⟩
  unfold Store.demands? at hxs ⊢
  rw [h, get?_mergeBelow hdistinct hbelow, hown, Option.none_or]
  exact hxs

/-- In the dialect that ignores all keywords beside a reference, what waited refers to no other
    place in the end, if it has referred to none before. -/
theorem settleVisits_spared (hoverride : e.override = none) (htarget : e.target = .draft7)
    (h : Returns e.settleVisits c () d) (hv : c.survey.visit? n = some v)
    (hwaits : v.merged = false) (hown : v.body.has Visit.refKey = false) :
    ∃ w, d.survey.visit? n = some w ∧ w.body.has Visit.refKey = false := by
  obtain ⟨w, hw, ⟨-, htaken⟩, -⟩ := settleVisits_fulfils hoverride h hv hwaits
  refine ⟨w, hw, ?_⟩
  split at htaken
  · rw [htaken]
    exact hown
  · obtain ⟨below, htakes, -⟩ := htaken
    exact (htarget ▸ htakes).spared hown

/-- **References on the way.** In the dialect that ignores all keywords beside a reference, the head
    of a chain asks for the definition at its end, when everything is settled. -/
theorem settleVisits_demands (hoverride : e.override = none) (htarget : e.target = .draft7)
    (hc : c.Kempt) (h : Returns e.settleVisits c () d) {m : NodeId}
    (hwraps : c.Wraps (fun k => c.survey.defines k = true) m n) :
    ∃ w, d.survey.visit? m = some w ∧ d.Demands w.body n := by
  have hd : d.Kempt := ((upkeeps_preserved e.target c).settleVisits hoverride h
    ⟨hc, .of_visits (.refl _) rfl fun _ => rfl⟩).1
  have hpersists := settleVisits_persists.of_returns h
  induction hwraps with
  | bound hv hwaits ht hown hn =>
    exact settleVisits_charges hoverride htarget hc.cited h hv hwaits ht hn hown
  | @link m t n v hv hwaits ht hown hloop hinner hplain hbelow ih =>
    obtain ⟨x, hx, hdemands⟩ := ih
    obtain ⟨u, hu, hu'⟩ := hbelow.waits
    have hspared : x.body.has Visit.refKey = false := by
      have hplain : u.body.has Visit.refKey = false := by
        unfold Survey.body at hplain
        rwa [hu] at hplain
      obtain ⟨x', hx', hspared⟩ := settleVisits_spared hoverride htarget h hu hu' hplain
      rwa [Option.some.inj (hx.symm.trans hx')]
    -- what is no definition shows its body to the node above it
    have hfragment : d.survey.fragment t = x.body := by
      have hnone := (hpersists.defines t).trans (Bool.eq_false_iff.mpr hinner)
      unfold Survey.defines at hnone
      rw [hx] at hnone
      have hnone : x.definition = none := by simpa using hnone
      unfold Survey.fragment Visit.body
      rw [hx, hnone]
      rfl
    obtain ⟨w, hw, -, hfulfilled⟩ := settleVisits_fulfils hoverride h hv hwaits
    have htakes := (hfulfilled hloop).2
    rw [ht, htarget] at htakes
    dsimp only at htakes
    rw [hfragment] at htakes
    exact ⟨w, hw,
      htakes.2.demands hown (hc.tidy m v hv).body (hd.tidy t x hx).body hspared hdemands⟩

/-- Hoisting leaves bodies what they are: a definition holds the body that its fragment was. -/
theorem Hoists.sameBodies (h : Hoists e c d) (hc : c.Kempt) : SameBodies c d where
  store := h.rewrites.grows
  has := h.rewrites.has
  visits hv := by
    obtain ⟨w, hw, hbody, hmerged, htarget, -⟩ := h.body hc hv
    exact ⟨w, hw, hbody, hmerged, htarget⟩

/-- **References in documents.** Behind an emission that returns, the head of a chain asks for the
    definition at its end. -/
theorem document_demands (hoverride : e.override = none) (htarget : e.target = .draft7)
    (hc : c.Kempt) {doc : Json} (h : Returns e.document c doc d) {m : NodeId}
    (hwraps : c.Wraps (fun k => d.survey.defines k = true) m n) :
    ∃ w, d.survey.visit? m = some w ∧ d.Demands w.body n := by
  obtain ⟨entries, f, -, hcompose, -, hrewrites, hsurvey⟩ := document_returns h
  obtain ⟨p, g, hclaim, hdone, hlist⟩ := compose_returns hcompose
  obtain ⟨-, rfl, -⟩ := listDefinitions_returns hlist
  obtain ⟨_, q, hhoist, hsettle⟩ := returns_bind.mp hdone
  have hclaimed := claim_returns hclaim
  have hp : Upkeeps c p := .of_visits (fun hs => ⟨hclaimed.1.grows, hclaimed.1.closed hs⟩)
    hclaimed.1.number fun k => Survey.visit?_of_visits hclaimed.2 k
  have hhoists := ((hoist_hoists p).of_returns hhoist).1
  have hpersists := settleVisits_persists.of_returns hsettle
  have hq : q.Wraps (fun k => q.survey.defines k = true) m n := by
    refine ((hwraps.sameBodies (.of_visits hclaimed.1.grows hclaimed.2)).sameBodies
      (hhoists.sameBodies (hp hc).1)).mono fun k => ?_
    rw [hsurvey, ← hpersists.defines k]
  obtain ⟨w, hw, hdemands⟩ :=
    settleVisits_demands hoverride htarget (hhoists.upkeeps (hp hc).1).1 hsettle hq
  exact ⟨w, hsurvey ▸ hw, hdemands.same hrewrites.grows hrewrites.number⟩

end Emission

/-! ### Sessions -/

/-- A node that passes content on asks for what its annotation asks for. -/
theorem Store.get?_contents?_allOf {s : Store} {guide : Guide} {links : Nat} {n : NodeId}
    {v : Visit} (hv : s.contents? guide links n = some v) (hsome : v.target.isSome) :
    v.fragment.get? allOfKey = (s.supplied guide.catalog n).get? allOfKey := by
  obtain ⟨m, hm⟩ := Option.isSome_iff_exists.mp hsome
  obtain ⟨node, lead, hn, hlead, -⟩ := passes_of_contents? hv hm
  have hlowering : node.lowering = .null := by
    unfold Node.passes? at hlead
    split at hlead
    · cases hlead
    · rename_i h
      exact not_not.mp h
  obtain ⟨node', w, hn', hw, rfl⟩ := contents?_eq_some.mp hv
  obtain rfl := Option.some.inj (hn.symm.trans hn')
  -- A node that passes content on has a recipe that never writes `allOf`.
  have hrecipe : w.fragment.get? allOfKey = node.lowered.get? allOfKey := by
    rw [allOfKey, Step.get?_replayAll (fun step hstep => spares_allOf_recipe hlead hstep) hw,
      Node.lowered, hlowering]
    rfl
  rw [allOfKey, Visit.get?_settled_of_ne (by decide) (by decide), supplied, hn]
  cases (s.catalog guide.catalog).get? n with
  | none => exact hrecipe
  | some notes => exact Entries.get?_update_congr hrecipe notes

/-- The fragment of a node whose fragment is a bare reference is shown as the reference. -/
theorem Conversion.settle_of_bare {c : Conversion} {n : NodeId} {ref : String} {x : Value}
    (hbare : c.survey.fragment n = [(Visit.refKey, .str ref)])
    (hx : x = .fragment n ∨ x = .borrowed c.survey.number n) :
    c.view.settle x = .dict [(Visit.refKey, .str ref)] := by
  have henter : c.view.enter (fun _ => false) (c.view.size + 1) [] (.fragment c.survey.number n)
      = .dict [(Visit.refKey, .str ref)] := by
    have hfound : c.view.fragment c.survey.number n = [(Visit.refKey, .str ref)] := by
      show c.fragmentOf c.survey.number n = _
      rw [fragmentOf, if_pos rfl]
      exact hbare
    unfold View.enter View.content
    simp only [List.not_mem_nil, decide_false, Bool.or_false, Bool.false_eq_true, if_false]
    rw [hfound]
    rfl
  rcases hx with rfl | rfl <;> exact henter

namespace Converter.Desk

variable {conv : Converter} {desk : Desk}

/-- What passes content on, and was entered by a visit that has returned, asks for what its
    annotation asks for, until it is finished. -/
theorem allOf_entered (hs : desk.conversion.store.Closed) {root : NodeId}
    (hok : ((Call.process root).run conv desk).1.isOk = true) {n : NodeId}
    (hnew : desk.conversion.survey.has n = false)
    (hn : ((Call.process root).run conv desk).2.conversion.survey.has n = true)
    {behind : Conversion}
    (hbehind : Remains ((Call.process root).run conv desk).2.conversion behind) {w : Visit}
    (hw : behind.survey.visit? n = some w) (hwaits : w.merged = false) (hsome : w.target.isSome) :
    w.body.get? allOfKey
      = (((Call.process root).run conv desk).2.conversion.store.supplied conv.guide.catalog n).get?
          allOfKey := by
  obtain ⟨v, hv⟩ := Survey.visit?_of_has hn
  obtain ⟨w', hw', hvw⟩ := hbehind.visits hv
  obtain rfl := Option.some.inj (hw'.symm.trans hw)
  obtain ⟨_, hreturns⟩ := exists_returns (isOk_of_map (f := fun _ : Unit => (none : Option Json))
    (r := (conv.process root desk.conversion).1) hok)
  -- the node contributes what can be told from the store, and is no definition yet
  obtain ⟨hexplores, -⟩ := process_explores hs hreturns
  obtain ⟨links, u, hu, hcontent⟩ := hexplores.contents hnew hv
  have hfresh : v.definition = none := congrArg (·.1) (hexplores.descends.entered
    (by simpa [Survey.has] using hnew) hv)
  rw [hvw.waits hwaits, Visit.body, hfresh, Option.getD_none,
    ← show u.fragment = v.fragment from congrArg (·.1) hcontent]
  refine Store.get?_contents?_allOf hu ?_
  rw [show u.target = v.target from congrArg (·.2.1) hcontent, ← hvw.target]
  exact hsome

/-- The head of a chain asks for the definition at its end, behind an emission that returns and all
    that leaves this as it is. -/
theorem reference_emitted (hoverride : conv.override = none)
    (htarget : conv.guide.settings.target = .draft7) (hkempt : desk.conversion.Kempt)
    {external : Option Nat} {policy : EmissionSettings} {root : NodeId}
    (hok : ((Call.emit external policy root).run conv desk).1.isOk = true)
    (hclosed : ((Call.emit external policy root).run conv desk).2.conversion.store.Closed)
    {behind : Conversion} (hbehind : behind.Kempt)
    (hafter : Remains ((Call.emit external policy root).run conv desk).2.conversion behind)
    {m n : NodeId} (hwraps : desk.conversion.Wraps (fun k =>
      ((Call.emit external policy root).run conv desk).2.conversion.survey.defines k = true) m n) :
    ∃ ref w xs, behind.survey.fragment n = [(Visit.refKey, .str ref)] ∧
      behind.survey.visit? m = some w ∧ behind.store.demands? w.body = some xs ∧
      ∃ x ∈ xs, behind.view.settle x = .dict [(Visit.refKey, .str ref)] := by
  obtain ⟨doc, hreturns⟩ := exists_returns (isOk_of_map (f := some)
    (r := ((conv.emission policy root).document (desk.load external)).1) hok)
  have hload : desk.conversion.SameBodies (desk.load external) := .of_visits (.refl _) rfl
  have hloaded : (desk.load external).Kempt := ⟨hkempt.tidy, hkempt.bare⟩
  obtain ⟨v, hv, hdemands⟩ := Emission.document_demands hoverride htarget hloaded hreturns
    (hwraps.sameBodies hload)
  -- behind the later calls the body still asks for the definition, which has kept its reference
  obtain ⟨w, hw, hvw⟩ := hafter.visits hv
  obtain ⟨xs, hxs, x, hx, hmeans⟩ :=
    hdemands.grows (hafter.store hclosed).1 hafter.number hvw.asked
  obtain ⟨u, hu, hdefined⟩ := Survey.visit?_of_defines hwraps.defined
  obtain ⟨u', hu', huu'⟩ := hafter.visits hu
  obtain ⟨ref, hbare⟩ := hbehind.bare n u' hu' (huu'.defined hdefined).1
  have hfragment : behind.survey.fragment n = [(Visit.refKey, .str ref)] := by
    unfold Survey.fragment
    rw [hu']
    exact hbare
  exact ⟨ref, w, xs, hfragment, hw, hxs, x, hx, settle_of_bare hfragment hmeans⟩

/-- **References of wrappers.** In a session without an override, in the dialect that ignores all
    keywords beside a reference: what a body asks for is never taken away.  A node that passes
    content on, and was entered by a call that has visited a root and returned, asks for what its
    annotation asks for, until it is finished.  When an emission has returned, the head of each
    chain that ends in a definition asks for the reference to it, whatever is called later. -/
theorem references_kept (hoverride : conv.override = none)
    (htarget : conv.guide.settings.target = .draft7) {store : Store} (hs : store.Closed)
    (externals : List Linkage) (before : List Call) (call : Call) (after : List Call) :
    let here := (runAll conv before { conversion := start store, externals }).2
    let next := call.run conv here
    let behind := (runAll conv after next.2).2.conversion
    (∀ n v xs, next.2.conversion.survey.visit? n = some v →
      next.2.conversion.store.demands? v.body = some xs →
      ∃ w more, behind.survey.visit? n = some w ∧
        behind.store.demands? w.body = some (xs ++ more)) ∧
    (∀ root, call = .process root → next.1.isOk = true → ∀ n w,
      here.conversion.survey.has n = false → next.2.conversion.survey.has n = true →
      behind.survey.visit? n = some w → w.merged = false → w.target.isSome →
      w.body.get? allOfKey
        = (next.2.conversion.store.supplied conv.guide.catalog n).get? allOfKey) ∧
    ∀ external policy root, call = .emit external policy root → next.1.isOk = true → ∀ m n,
      here.conversion.Wraps (fun k => next.2.conversion.survey.defines k = true) m n →
      ∃ ref w xs, behind.survey.fragment n = [(Visit.refKey, .str ref)] ∧
        behind.survey.visit? m = some w ∧ behind.store.demands? w.body = some xs ∧
        ∃ x ∈ xs, behind.view.settle x = .dict [(Visit.refKey, .str ref)] := by
  intro here next behind
  obtain ⟨hhere, hbefore⟩ := runAll_upkeeps hoverride before
    { conversion := start store, externals } (kempt_start store)
  obtain ⟨hnext, hcall⟩ := call.run_upkeeps hoverride here hhere
  -- The session is cut into what came before, the call, and what comes after it.
  obtain ⟨hbehind, hafter⟩ := runAll_upkeeps hoverride after next.2 hnext
  have hclosed : here.conversion.store.Closed := (hbefore.store (start_closed hs)).2
  have hclosed' : next.2.conversion.store.Closed := (hcall.store hclosed).2
  refine ⟨fun n v xs hv hxs => hafter.demands? hclosed' hv hxs, ?_, ?_⟩
  · rintro root rfl hok n w hnew hn hw hwaits hsome
    exact allOf_entered hclosed hok hnew hn hafter hw hwaits hsome
  · rintro external policy root rfl hok m n hwraps
    exact reference_emitted hoverride htarget hhere hok hclosed' hbehind hafter hwraps

/-- A text with an id, the text as one that is read only and asks for a length, and that as an
    optional one. -/
def wrappedText : Store where
  nodes := [{ kind := .string }, { kind := .readonly, inner := .node 0 },
    { kind := .optional, inner := .node 1 }]
  catalogs := [("global",
    { entries := [(.node 0, [(.str "id", .str "S")]), (.node 1, [(.str "allOf", .shared 0)])]
      ids := [(.str "S", .node 0)] })]
  lists := [[.dict [(.str "minLength", .int 1)]]]

/-- A converter to the dialect that ignores all keywords beside a reference. -/
def older : Converter := { guide := { settings := { target := .draft7 } } }

/-- The optional text, when it was visited. -/
def wrappedVisited : Desk :=
  (runAll older [.process (.node 2)] { conversion := start wrappedText }).2

/-- The optional text, when its document was emitted and the text was visited again. -/
def wrappedEmitted : Conversion :=
  (runAll older [.process (.node 0)]
    ((Call.emit none {} (.node 2)).run older wrappedVisited).2).2.conversion

/-- The optional text asks for the text, behind its document and a later call. -/
theorem references_kept_wrappedText :
    older.override = none ∧ wrappedText.Closed ∧
      ∃ ref w xs, wrappedEmitted.survey.fragment (.node 0) = [(Visit.refKey, .str ref)] ∧
        wrappedEmitted.survey.visit? (.node 2) = some w ∧
        wrappedEmitted.store.demands? w.body = some xs ∧
        ∃ x ∈ xs, wrappedEmitted.view.settle x = .dict [(Visit.refKey, .str ref)] := by
  have hs : wrappedText.Closed := .of_forall (by decide) (by decide) nofun
  refine ⟨rfl, hs, ?_⟩
  have hkept := (@references_kept older rfl rfl wrappedText hs [] [.process (.node 2)]
    (.emit none {} (.node 2)) [.process (.node 0)]).2.2 none {} (.node 2) rfl (by decide +kernel)
    (.node 2) (.node 0)
  unfold wrappedEmitted wrappedVisited
  refine hkept ?_
  have hfirst : wrappedVisited.conversion.survey.visit? (.node 2)
      = some { target := some (.node 1) } := by decide +kernel
  have hsecond : wrappedVisited.conversion.survey.visit? (.node 1)
      = some { fragment := [("readOnly", .bool true), ("allOf", .shared 0)]
               target := some (.node 0) } := by decide +kernel
  refine .link (c := wrappedVisited.conversion) hfirst rfl rfl rfl ?_ (by decide +kernel)
    (by decide +kernel)
    (.bound (c := wrappedVisited.conversion) hsecond rfl rfl ?_ (by decide +kernel))
  · -- content is passed on to nodes with smaller numbers
    refine Store.acyclic_of_rank ([NodeId.node 0, .node 1, .node 2].idxOf ·) ?_ _
    rintro n m ⟨v, hv, htarget⟩
    have hn := (Survey.has_iff _ _).mp (Survey.has_of_visit? hv)
    rw [show wrappedVisited.conversion.survey.order = [.node 2, .node 1, .node 0] by
      decide +kernel] at hn
    simp only [List.mem_cons, List.not_mem_nil, or_false] at hn
    rcases hn with rfl | rfl | rfl
    · obtain rfl := Option.some.inj (hv.symm.trans hfirst)
      obtain rfl := Option.some.inj htarget
      decide
    · obtain rfl := Option.some.inj (hv.symm.trans hsecond)
      obtain rfl := Option.some.inj htarget
      decide
    · have hlast : (wrappedVisited.conversion.survey.visit? (.node 0)).bind (·.target) = none := by
        decide +kernel
      rw [hv, Option.bind_some, htarget] at hlast
      cases hlast
  · intro number hnumber
    obtain rfl : 0 = number := Value.shared.inj (Option.some.inj hnumber)
    decide +kernel

/-- The optional text as the one that asks for the length. -/
def askingWrapper : Store :=
  { wrappedText with
    catalogs := [("global",
      { entries := [(.node 0, [(.str "id", .str "S")]), (.node 2, [(.str "allOf", .shared 0)])]
        ids := [(.str "S", .node 0)] })] }

/-- The text that is read only under an id of its own. -/
def labelledWrapper : Store :=
  { wrappedText with
    catalogs := [("global",
      { entries := [(.node 0, [(.str "id", .str "S")]), (.node 1, [(.str "id", .str "W")])]
        ids := [(.str "S", .node 0), (.str "W", .node 1)] })] }

/-- A lazy node that stands for what is read only as itself, in an optional one. -/
def wrapperCircle : Store where
  nodes := [{ kind := .lazy, getter := some 0 }, { kind := .optional, inner := .node 0 },
    { kind := .readonly, inner := .node 1 }]
  names := [("t", .node 2)]
  getters := [{ owner := .node 0, source := .named "t" }]

/-- A converter with an override that takes away what is asked for. -/
def erasing : Converter :=
  { older with override := some (.ofRules [{ edits := [.erase (.str "allOf")] }]) }

/-- The calls that make the document of a node, with what they leave behind. -/
def converted (conv : Converter) (store : Store) (n : NodeId) :
    List (Except Failure (Option Json)) × Desk :=
  runAll conv [.process n, .emit none {} n] { conversion := start store }

/-- The targets of the nodes that were visited, and whether they are definitions, when a document
    was emitted. -/
def targets? (run : List (Except Failure (Option Json)) × Desk) :
    Option (List (NodeId × Option NodeId × Bool)) :=
  if run.1.all (·.isOk) then
    some (run.2.conversion.survey.visits.map fun (n, v) => (n, v.target, v.definition.isSome))
  else none

/-- What a visited node asks for besides. -/
def asked? (run : List (Except Failure (Option Json)) × Desk) (n : NodeId) : Option (List Value) :=
  run.2.conversion.store.demands? (run.2.conversion.survey.body n)

/-- What a wrapper asks for itself takes the place of the reference that the node below it asks
    for; a reference may be the one to a wrapper; in a circle of wrappers one is lost; and an
    override may take it away. -/
theorem references_lost :
    (targets? (converted older askingWrapper (.node 2)) = some
        [(.node 2, some (.node 1), true), (.node 1, some (.node 0), false), (.node 0, none, true)] ∧
      asked? (converted older askingWrapper (.node 2)) (.node 1) = some [.fragment (.node 0)] ∧
      asked? (converted older askingWrapper (.node 2)) (.node 2)
        = some [.dict [("minLength", .int 1)]]) ∧
    (targets? (converted older labelledWrapper (.node 2)) = some
        [(.node 2, some (.node 1), true), (.node 1, some (.node 0), true), (.node 0, none, true)] ∧
      asked? (converted older labelledWrapper (.node 2)) (.node 2) = some [.fragment (.node 1)]) ∧
    (targets? (converted older wrapperCircle (.node 2)) = some
        [(.node 2, some (.node 1), true), (.node 1, some (.node 0), false),
          (.node 0, some (.node 2), false)] ∧
      asked? (converted older wrapperCircle (.node 2)) (.node 0) = some [.fragment (.node 2)] ∧
      asked? (converted older wrapperCircle (.node 2)) (.node 1) = none) ∧
    targets? (converted erasing wrappedText (.node 2)) = some
        [(.node 2, some (.node 1), true), (.node 1, some (.node 0), false), (.node 0, none, true)] ∧
      asked? (converted erasing wrappedText (.node 2)) (.node 2) = none := by
  refine ⟨⟨?_, ?_, ?_⟩, ⟨?_, ?_⟩, ⟨?_, ?_, ?_⟩, ?_, ?_⟩ <;> decide +kernel

end Converter.Desk

end SchemaGraph
