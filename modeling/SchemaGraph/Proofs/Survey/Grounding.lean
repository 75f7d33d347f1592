import SchemaGraph.Proofs.Survey.Backing
import SchemaGraph.Proofs.Survey.Failing

namespace SchemaGraph

open SchemaGraph.Action

/-!
# Grounded nodes

A fragment points at the fragments of children, and these may lead back to it.  Every way back leads
over a node that carries the mark of a cycle: whatever comes of a descent, from a node that it
leaves behind only finitely many steps can be made over nodes without a mark.

* `Value.Confined`       — finite, with pointers to lists and to some fragments
* `Visit.Needs`          — a visit points at another node, or passes on its content
* `Conversion.Grounded`  — the ways from a node end, or meet a mark
* `Conversion.Orderly`   — all nodes but those in progress are grounded
* `Conversion.Orderly.visit` — descents leave conversions orderly, whatever comes of them
-/

namespace Value

/-- A finite value that points at lists, and at fragments of some nodes of a survey. -/
structure Confined (number : Nat) (reach : NodeId → Prop) (v : Value) : Prop where
  finite : v.isFinite = true
  places : ∀ p ∈ v.places number, (∃ k, p = .list k) ∨ ∃ m, p = .fragment number m ∧ reach m

section Confined

variable {number : Nat} {reach more : NodeId → Prop} {v : Value} {es : Entries}

/-- A value is confined to more nodes than it points at. -/
theorem Confined.mono (hsub : ∀ m, reach m → more m) (h : v.Confined number reach) :
    v.Confined number more where
  finite := h.finite
  places p hp := (h.places p hp).imp id fun ⟨m, hm, hreach⟩ => ⟨m, hm, hsub m hreach⟩

/-- A tree is confined to no nodes at all. -/
theorem confined_of_tree (h : v.isTree = true) : v.Confined number reach where
  finite := (isTree_iff.mp h).2
  places p hp := by
    rw [places_of_plain v (isTree_iff.mp h).1] at hp
    cases hp

/-- A finite value is confined to the nodes that it leads to. -/
theorem confined_of_leads (hfinite : v.isFinite = true) (h : v.Leads reach) :
    v.Confined number reach where
  finite := hfinite
  places p hp := .inr (h number p hp)

/-- A pointer to a fragment is confined to its node. -/
theorem confined_fragment {n : NodeId} (h : reach n) : (Value.fragment n).Confined number reach :=
  confined_of_leads rfl (leads_fragment h)

/-- A mapping is confined where all its values are. -/
theorem confined_dict : (Value.dict es).Confined number reach ↔ es.Each (Confined number reach) := by
  constructor
  · intro h q hq
    exact ⟨entriesFinite_iff.mp h.finite q hq,
      fun p hp => h.places p (mem_entryPlaces.mpr ⟨q, hq, hp⟩)⟩
  · intro h
    refine ⟨entriesFinite_iff.mpr fun q hq => (h q hq).finite, fun p hp => ?_⟩
    obtain ⟨q, hq, hp⟩ := mem_entryPlaces.mp hp
    exact (h q hq).places p hp

/-- A list is confined where all its elements are. -/
theorem confined_list {xs : List Value} :
    (Value.list xs).Confined number reach ↔ ∀ x ∈ xs, x.Confined number reach := by
  constructor
  · intro h x hx
    exact ⟨allFinite_iff.mp h.finite x hx, fun p hp => h.places p (mem_listPlaces.mpr ⟨x, hx, hp⟩)⟩
  · intro h
    refine ⟨allFinite_iff.mpr fun x hx => (h x hx).finite, fun p hp => ?_⟩
    obtain ⟨x, hx, hp⟩ := mem_listPlaces.mp hp
    exact (h x hx).places p hp

end Confined

end Value

namespace Entries

variable {number : Nat} {reach : NodeId → Prop} {es : Entries}

/-- Annotations are confined to no nodes at all. -/
theorem Noted.confined (h : es.Noted) : es.Each (Value.Confined number reach) := fun q hq =>
  { finite := h.finite q hq
    places := fun p hp => .inl (h.lists number p (Value.mem_entryPlaces.mpr ⟨q, hq, hp⟩)) }

end Entries

namespace Visit

/-- A visit points at the fragment of another node, or passes on its content. -/
def Needs (number : Nat) (v : Visit) (m : NodeId) : Prop :=
  v.target = some m ∨ .fragment number m ∈ Value.entryPlaces number v.fragment

/-- A visit in progress: what is written and found for it so far. -/
structure Rests (number : Nat) (reach : NodeId → Prop) (v : Visit) : Prop where
  fragment : v.fragment.Each (Value.Confined number reach)
  target : ∀ m, v.target = some m → reach m
  prefault : v.prefault.isTree = true
  spared : v.fragment.get? refKey = none

/-- A visit at any time: its fragment and its body point at visited nodes; it is a bare reference if
    it has a definition, and no reference before it has one and is finished. -/
structure Orderly (target : Target) (number : Nat) (reach : NodeId → Prop) (v : Visit) :
    Prop where
  fragment : v.fragment.Each (Value.Confined number reach)
  definition : ∀ body, v.definition = some body →
    body.Each (Value.Confined number reach) ∧ ∃ ref, v.fragment = [(refKey, .str ref)]
  spared : v.definition = none → v.merged = false → v.isReference = false
  waits : v.cycle.isSome → v.definition = none → v.merged = false
  linked : target = .draft7 → v.isReference = true → v.definition.isSome

variable {target : Target} {number : Nat} {reach more : NodeId → Prop} {v : Visit}

/-- A visit in progress needs only nodes that are reached. -/
theorem Rests.needs (h : v.Rests number reach) {m : NodeId} (hm : v.Needs number m) : reach m := by
  rcases hm with hm | hm
  · exact h.target m hm
  · obtain ⟨q, hq, hp⟩ := Value.mem_entryPlaces.mp hm
    rcases (h.fragment q hq).places _ hp with ⟨k, hk⟩ | ⟨n, hn, hreach⟩
    · cases hk
    · cases hn
      exact hreach

/-- A visit in progress rests on more nodes than it needs. -/
theorem Rests.mono (hsub : ∀ m, reach m → more m) (h : v.Rests number reach) :
    v.Rests number more where
  fragment := h.fragment.mono fun _ => Value.Confined.mono hsub
  target m hm := hsub m (h.target m hm)
  prefault := h.prefault
  spared := h.spared

/-- What a visit rests on depends on its contents alone. -/
theorem Rests.of_content {w : Visit} (h : v.Rests number reach) (hw : w.content = v.content) :
    w.Rests number reach := by
  simp only [content, Prod.mk.injEq] at hw
  obtain ⟨hfragment, htarget, hprefault⟩ := hw
  exact ⟨hfragment ▸ h.fragment, fun m hm => h.target m (htarget ▸ hm), hprefault ▸ h.prefault,
    hfragment ▸ h.spared⟩

/-- A default that was found on the way may be settled. -/
theorem Rests.settleDefault (h : v.Rests number reach) (kind : Kind) :
    (Conversion.settleDefault kind v).Rests number reach := by
  have hfragment : (Conversion.settleDefault kind v).fragment.Each (Value.Confined number reach) ∧
      (Conversion.settleDefault kind v).fragment.get? refKey = none := by
    have hcases := v.settled_fragment .input kind
    rw [show v.settled .input kind = Conversion.settleDefault kind v from rfl] at hcases
    rcases hcases with hsame | ⟨e, he, hset⟩
    · rw [hsame]
      exact ⟨h.fragment, h.spared⟩
    · obtain ⟨heach, hspared⟩ : e.Each (Value.Confined number reach) ∧ e.get? refKey = none := by
        -- A pipe loses what is under two keywords; a default may be put in afterwards.
        rcases he with rfl | rfl
        · exact ⟨h.fragment, h.spared⟩
        · refine ⟨(h.fragment.erase _).erase _, ?_⟩
          rw [Entries.get?_erase_of_ne (by decide), Entries.get?_erase_of_ne (by decide)]
          exact h.spared
      rcases hset with hset | hset <;> rw [hset]
      · exact ⟨heach, hspared⟩
      · exact ⟨heach.set _ (Value.confined_of_tree h.prefault),
          (Entries.get?_set_str "default" "$ref" _ e).trans hspared⟩
  exact ⟨hfragment.1, h.target, h.prefault, hfragment.2⟩

/-- A visit in progress is no reference. -/
theorem Rests.isReference (h : v.Rests number reach) : v.isReference = false := by
  unfold Visit.isReference Entries.has
  rw [h.spared]
  rfl

/-- What is in progress is orderly. -/
theorem Rests.orderly (hsub : ∀ m, reach m → more m) (h : v.Rests number reach)
    (hnone : v.definition = none) (hmerged : v.merged = false) :
    v.Orderly target number more where
  fragment := h.fragment.mono fun _ => Value.Confined.mono hsub
  definition body hbody := by
    rw [hnone] at hbody
    cases hbody
  spared _ _ := h.isReference
  waits _ _ := hmerged
  linked _ href := by
    rw [h.isReference] at href
    cases href

/-- An orderly visit stays so when more nodes are visited. -/
theorem Orderly.mono (hsub : ∀ m, reach m → more m) (h : v.Orderly target number reach) :
    v.Orderly target number more where
  fragment := h.fragment.mono fun _ => Value.Confined.mono hsub
  definition body hbody := by
    obtain ⟨hbody, href⟩ := h.definition body hbody
    exact ⟨hbody.mono fun _ => Value.Confined.mono hsub, href⟩
  spared := h.spared
  waits := h.waits
  linked := h.linked

/-- Only the mark of a visit in progress may change. -/
theorem Orderly.of_same {w : Visit} (h : v.Orderly target number reach)
    (hfragment : w.fragment = v.fragment) (hstage : w.stage = v.stage)
    (hcycle : w.cycle.isSome → v.cycle.isSome ∨ v.merged = false) :
    w.Orderly target number reach := by
  simp only [stage, Prod.mk.injEq] at hstage
  obtain ⟨hdefinition, -, hmerged⟩ := hstage
  have href : w.isReference = v.isReference := by
    unfold isReference
    rw [hfragment]
  refine ⟨hfragment ▸ h.fragment, fun body hbody => ?_, fun hnone hwaits => ?_, fun hsome hnone => ?_,
    fun htarget href' => ?_⟩
  · rw [hfragment]
    exact h.definition body (hdefinition ▸ hbody)
  · rw [href]
    exact h.spared (hdefinition ▸ hnone) (hmerged ▸ hwaits)
  · rw [hmerged]
    exact (hcycle hsome).elim (fun hv => h.waits hv (hdefinition ▸ hnone)) id
  · rw [hdefinition]
    exact h.linked htarget (href ▸ href')

end Visit

namespace Conversion

/-- All ways from a node end in finitely many steps, or lead to a node with a mark; none leads to the
    nodes above. -/
inductive Grounded (c : Conversion) (above : List NodeId) : NodeId → Prop
  | intro {n : NodeId} {v : Visit} (hv : c.survey.visit? n = some v) (hout : n ∉ above)
      (hbelow : ∀ m, v.Needs c.survey.number m → ¬ c.Marked m → Grounded c above m) :
      Grounded c above n

/-- A node was visited, and it is marked if it is one of the nodes above. -/
def Arrived (c : Conversion) (above : List NodeId) (m : NodeId) : Prop :=
  c.survey.has m = true ∧ (m ∈ above → c.Marked m)

/-- A place that points at nothing and that does not change any more: the fragment of a definition,
    or one that an earlier survey has left behind. -/
inductive Spent (c : Conversion) : Place → Prop
  | defined {m : NodeId} {v : Visit} (hv : c.survey.visit? m = some v)
      (hdefined : v.definition.isSome) : Spent c (.fragment c.survey.number m)
  | past {survey : Nat} {m : NodeId} (hpast : survey ≠ c.survey.number)
      (hlength : survey < c.store.archive.length)
      (htrees : (c.store.archived survey m).Each fun v => v.isTree = true) :
      Spent c (.fragment survey m)

/-- Of a conversion with some nodes in progress, the store is sober, lists of annotations hold what
    is spent, and all the other nodes are grounded. -/
structure Orderly (target : Target) (above : List NodeId) (c : Conversion) : Prop where
  store : c.store.Sober
  number : c.survey.number < c.store.archive.length
  lists : ∀ xs ∈ c.store.lists, ∀ x ∈ xs, x.isFinite = true ∧
    ∀ survey, ∀ p ∈ x.places survey, c.Spent p
  visits : ∀ n v, c.survey.visit? n = some v →
    v.Orderly target c.survey.number (fun m => c.survey.has m = true)
  fresh : ∀ a ∈ above, ∃ v, c.survey.visit? a = some v ∧ v.definition = none ∧ v.merged = false
  grounded : ∀ n, c.survey.has n = true → n ∉ above → c.Grounded above n

/-- A conversion while a node is lowered: the node needs nodes only that were arrived at. -/
structure Lowers (target : Target) (above : List NodeId) (n : NodeId) (c : Conversion) : Prop where
  orderly : c.Orderly target (n :: above)
  own : ∃ v, c.survey.visit? n = some v ∧ v.Rests c.survey.number (c.Arrived (n :: above))

variable {c d : Conversion} {target : Target} {above less own : List NodeId} {n m : NodeId}

/-- A node that is grounded was visited. -/
theorem Grounded.has (h : c.Grounded above n) : c.survey.has n = true := by
  cases h with
  | intro hv _ _ => exact Survey.has_of_visit? hv

/-- Nodes stay grounded while they need no others. -/
theorem Grounded.imp (h : c.Grounded above n)
    (hvisit : ∀ m v, c.survey.visit? m = some v → m ∉ above → m ∉ less ∧
      ∃ w, d.survey.visit? m = some w ∧
        ∀ k, w.Needs d.survey.number k → v.Needs c.survey.number k)
    (hmarked : ∀ m, c.Marked m → d.Marked m) : d.Grounded less n := by
  induction h with
  | intro hv hout _ ih =>
    obtain ⟨hout', w, hw, hneeds⟩ := hvisit _ _ hv hout
    exact .intro hw hout' fun k hk hfree =>
      ih k (hneeds k hk) fun hmarked' => hfree (hmarked k hmarked')

/-- What a visit needs depends on its contents alone. -/
theorem needs_of_content {number : Nat} {v w : Visit} (h : w.content = v.content)
    {k : NodeId} (hk : w.Needs number k) : v.Needs number k := by
  simp only [Visit.content, Prod.mk.injEq] at h
  unfold Visit.Needs at hk ⊢
  rw [← h.1, ← h.2.1]
  exact hk

/-- Grounded nodes stay so in a descent from nodes above. -/
theorem Grounded.descends (h : c.Grounded above n) (hd : Descends own c d) (hown : own ⊆ above) :
    d.Grounded above n := by
  refine h.imp (fun m v hv hout => ⟨hout, ?_⟩) fun _ hmarked => hmarked.mono hd
  obtain ⟨w, hw, -, -, hcontent⟩ := hd.visits hv
  refine ⟨w, hw, fun k hk => ?_⟩
  rw [hd.number] at hk
  exact needs_of_content (hcontent fun hm => hout (hown hm)) hk

/-- A node that was arrived at stays so during a descent. -/
theorem Arrived.descends (h : c.Arrived above m) (hd : Descends own c d) : d.Arrived above m :=
  ⟨hd.has h.1, fun hm => (h.2 hm).mono hd⟩

/-- What is spent stays so during a descent. -/
theorem Spent.descends {p : Place} (h : c.Spent p) (hd : Descends own c d)
    (harchive : d.store.archive = c.store.archive) : d.Spent p := by
  cases h with
  | defined hv hdefined =>
    obtain ⟨w, hw, hstage, -⟩ := hd.visits hv
    rw [← hd.number]
    exact .defined hw ((congrArg (·.1.isSome) hstage).trans hdefined)
  | past hpast hlength htrees =>
    have harchived : d.store.archived = c.store.archived := by
      funext survey m
      rw [Store.archived, harchive]
      rfl
    exact .past (hd.number ▸ hpast) (harchive ▸ hlength) (by rw [harchived]; exact htrees)

/-! ### Single steps -/

/-- A change of one visit that leaves it orderly.  Only a node above may get other needs. -/
theorem Orderly.onVisit (h : c.Orderly target above) {f : Visit → Visit}
    (hstage : ∀ v, (f v).stage = v.stage) (hcycle : ∀ v, v.cycle.isSome → (f v).cycle.isSome)
    (hcontent : n ∉ above → ∀ v, (f v).content = v.content)
    (horderly : ∀ v, c.survey.visit? n = some v →
      (f v).Orderly target c.survey.number (fun m => c.survey.has m = true)) :
    Conversion.Orderly target above { c with survey := c.survey.modify n f } := by
  have hdesc : Descends (if n ∈ above then [n] else []) c
      { c with survey := c.survey.modify n f } :=
    onVisit_within hstage hcycle (fun hout => hcontent fun hn => hout (by simp [hn])) c
  have hown : (if n ∈ above then [n] else []) ⊆ above := by
    split
    · rename_i hn
      exact List.cons_subset.mpr ⟨hn, List.nil_subset _⟩
    · exact List.nil_subset _
  have hhas : ∀ m, (c.survey.modify n f).has m = c.survey.has m := fun m => has_modify _ _ _ _
  refine ⟨h.store, h.number, fun xs hxs x hx => ?_, fun m v hv => ?_, fun a ha => ?_,
    fun m hm hout => ?_⟩
  · obtain ⟨hfinite, hspent⟩ := h.lists xs hxs x hx
    exact ⟨hfinite, fun survey p hp => (hspent survey p hp).descends hdesc rfl⟩
  · simp only [hhas]
    obtain ⟨rfl, w, hw, rfl⟩ | ⟨-, hv⟩ := Survey.visit?_modify_cases hv
    · exact horderly w hw
    · exact h.visits m v hv
  -- Nodes above stay fresh, since the change leaves the stage alone.
  · obtain ⟨v, hv, hnone, hmerged⟩ := h.fresh a ha
    obtain ⟨w, hw, hsame, -⟩ := hdesc.visits hv
    simp only [Visit.stage, Prod.mk.injEq] at hsame
    exact ⟨w, hw, hsame.1.trans hnone, hsame.2.2.trans hmerged⟩
  · exact (h.grounded m ((hhas m).symm.trans hm) hout).descends hdesc hown

/-- What is asked of the store leaves a conversion orderly. -/
theorem Orderly.enlarges (h : c.Orderly target above) (hs : c.store.Enlarges d.store)
    (hnumber : d.survey.number = c.survey.number := by rfl)
    (hvisits : ∀ n, d.survey.visit? n = c.survey.visit? n := by exact fun _ => rfl) :
    d.Orderly target above := by
  have hhas : ∀ n, d.survey.has n = c.survey.has n := fun n => by rw [Survey.has, hvisits]; rfl
  have harchived : d.store.archived = c.store.archived := by
    funext survey m
    rw [Store.archived, hs.archive]
    rfl
  refine ⟨hs.sober, by rw [hs.archive, hnumber]; exact h.number, fun xs hxs x hx => ?_,
    fun n v hv => ?_, fun a ha => ?_, fun m hm hout => ?_⟩
  -- Lists that were there are the same, and new ones hold trees.
  · obtain ⟨more, hmore, htrees⟩ := hs.lists
    rw [hmore] at hxs
    rcases List.mem_append.mp hxs with hxs | hxs
    · obtain ⟨hfinite, hspent⟩ := h.lists xs hxs x hx
      refine ⟨hfinite, fun survey p hp => ?_⟩
      cases hspent survey p hp with
      | defined hv hdefined =>
        rw [← hnumber]
        exact .defined ((hvisits _).trans hv) hdefined
      | past hpast hlength htrees =>
        exact .past (hnumber ▸ hpast) (by rw [hs.archive]; exact hlength)
          (by rw [harchived]; exact htrees)
    · obtain ⟨hplain, hfinite⟩ := Value.isTree_iff.mp (htrees xs hxs x hx)
      refine ⟨hfinite, fun survey p hp => ?_⟩
      rw [Value.places_of_plain x hplain] at hp
      cases hp
  · rw [hnumber]
    exact (h.visits n v ((hvisits n).symm.trans hv)).mono fun m hm => (hhas m).trans hm
  -- The rest concerns visits, which are the same.
  · obtain ⟨v, hv, hfresh⟩ := h.fresh a ha
    exact ⟨v, (hvisits a).trans hv, hfresh⟩
  · refine (h.grounded m ((hhas m).symm.trans hm) hout).imp (fun k v hv hk => ⟨hk, v, ?_, ?_⟩) ?_
    · exact (hvisits k).trans hv
    · rw [hnumber]
      exact fun _ => id
    · rintro k ⟨v, hv, hcycle⟩
      exact ⟨v, (hvisits k).trans hv, hcycle⟩

/-! ### Nodes in progress -/

/-- A node that was lowered is grounded. -/
theorem Lowers.pop (h : c.Lowers target above n) : c.Orderly target above where
  store := h.orderly.store
  number := h.orderly.number
  lists := h.orderly.lists
  visits := h.orderly.visits
  fresh a ha := h.orderly.fresh a (List.mem_cons_of_mem _ ha)
  grounded m hm hout := by
    have hless : ∀ k, c.Grounded (n :: above) k → c.Grounded above k := fun k hk =>
      hk.imp (fun j v hv hout => ⟨fun hj => hout (List.mem_cons_of_mem _ hj), v, hv, fun _ => id⟩)
        fun _ => id
    by_cases hn : m = n
    · subst hn
      obtain ⟨v, hv, hrests⟩ := h.own
      refine .intro hv hout fun k hk hfree => ?_
      obtain ⟨hhas, hmark⟩ := hrests.needs hk
      exact hless k (h.orderly.grounded k hhas fun hmem => hfree (hmark hmem))
    · exact hless m (h.orderly.grounded m hm (by simp [hn, hout]))

/-- A node goes on being lowered behind a descent below it. -/
theorem Lowers.descends (h : c.Lowers target above n) (hd : Descends [] c d)
    (horderly : d.Orderly target (n :: above)) : d.Lowers target above n where
  orderly := horderly
  own := by
    obtain ⟨v, hv, hrests⟩ := h.own
    obtain ⟨w, hw, -, -, hcontent⟩ := hd.visits hv
    refine ⟨w, hw, ?_⟩
    rw [hd.number]
    exact (hrests.of_content (hcontent List.not_mem_nil)).mono fun _ hm => hm.descends hd

/-- A node goes on being lowered when the store is enlarged. -/
theorem Lowers.enlarges (h : c.Lowers target above n) {s : Store} (hs : c.store.Enlarges s) :
    Lowers target above n { c with store := s } where
  orderly := h.orderly.enlarges hs
  own := h.own

/-- A change of the visit in progress that leaves the node at rest. -/
theorem Lowers.onVisit (h : c.Lowers target above n) {f : Visit → Visit}
    (hstage : ∀ v, (f v).stage = v.stage) (hcycle : ∀ v, (f v).cycle = v.cycle)
    (hrests : ∀ v, v.Rests c.survey.number (c.Arrived (n :: above)) →
      (f v).Rests c.survey.number (c.Arrived (n :: above))) :
    Lowers target above n { c with survey := c.survey.modify n f } := by
  obtain ⟨v, hv, hown⟩ := h.own
  obtain ⟨v', hv', hnone, hmerged⟩ := h.orderly.fresh n (List.mem_cons_self ..)
  obtain rfl : v' = v := Option.some.inj (hv'.symm.trans hv)
  have hstage' := hstage v'
  simp only [Visit.stage, Prod.mk.injEq] at hstage'
  have hdesc : Descends [n] c { c with survey := c.survey.modify n f } :=
    onVisit_within hstage (fun v hv => by rw [hcycle]; exact hv)
      (fun hn => absurd (List.mem_singleton_self n) hn) c
  refine ⟨h.orderly.onVisit hstage (fun v hv => by rw [hcycle]; exact hv)
    (fun hn => absurd (List.mem_cons_self ..) hn) fun w hw => ?_, f v', ?_, ?_⟩
  · obtain rfl := Option.some.inj (hw.symm.trans hv)
    exact (hrests w hown).orderly (fun _ hm => hm.1) (hstage'.1.trans hnone)
      (hstage'.2.2.trans hmerged)
  · show (c.survey.modify n f).visit? n = _
    rw [Survey.visit?_modify_self, hv]
    rfl
  · exact (hrests v' hown).mono fun _ hm => hm.descends hdesc

/-- Keywords may be written that are confined, and no references. -/
theorem Lowers.onFragment (h : c.Lowers target above n) {g : Entries → Entries}
    (hg : ∀ e, e.Each (Value.Confined c.survey.number (c.Arrived (n :: above))) →
      (g e).Each (Value.Confined c.survey.number (c.Arrived (n :: above))))
    (hspared : ∀ e, e.get? Visit.refKey = none → (g e).get? Visit.refKey = none) :
    Lowers target above n
      { c with survey := c.survey.modify n fun v => { v with fragment := g v.fragment } } :=
  h.onVisit (fun _ => rfl) (fun _ => rfl) fun _ hv =>
    { fragment := hg _ hv.fragment
      target := hv.target
      prefault := hv.prefault
      spared := hspared _ hv.spared }

/-- A node goes on being lowered when something is written that is confined to nodes that were
    arrived at. -/
theorem Lowers.write (h : c.Lowers target above n) {key : String} (hkey : key ≠ "$ref") {v : Value}
    (hv : v.Confined c.survey.number (c.Arrived (n :: above))) :
    Lowers target above n
      { c with survey := c.survey.modify n fun w => { w with fragment := w.fragment.set (.str key) v } } :=
  h.onFragment (fun _ he => he.set _ hv) fun e he => by
    refine (Entries.get?_set_str key "$ref" v e).trans ?_
    rw [if_neg hkey.symm]
    exact he

/-- What is asked of the store leaves a node in progress. -/
theorem Lowers.onStore {α : Type} {P : α → Prop} {a : Action Store α} (ha : Store.Harmless P a)
    (h : c.Lowers target above n) :
    Meets (onStore a) c (fun x d => P x ∧ d.Lowers target above n)
      (fun d => d.Lowers target above n) := by
  have hmeets := ha c.store h.orderly.store
  unfold Meets at hmeets ⊢
  unfold Conversion.onStore
  rcases hrun : a c.store with ⟨e | x, s⟩
  · rw [hrun] at hmeets
    exact h.enlarges hmeets
  · rw [hrun] at hmeets
    exact ⟨hmeets.1, h.enlarges hmeets.2⟩

/-- A failure leaves a node being lowered. -/
theorem Lowers.fail (h : c.Lowers target above n) {α : Type} (f : Failure)
    {Q : α → Conversion → Prop} :
    Meets (Conversion.fail f : Action Conversion α) c Q (fun d => d.Lowers target above n) :=
  (h.onStore (P := fun _ => False) (Store.harmless_fail f)).mono (fun _ _ hd => hd.1.elim)
    fun _ hd => hd

/-- A property of a child may be written into the fragment. -/
theorem Lowers.putProperty (h : c.Lowers target above n) {name : String} {child : NodeId}
    (hchild : c.Arrived (n :: above) child) :
    Lowers target above n { c with survey := c.survey.modify n fun v =>
      { v with fragment := Conversion.putProperty name child v.fragment } } := by
  refine h.onFragment (fun e he => ?_) fun e he => ?_
  · refine he.set _ (Value.confined_dict.mpr (Entries.Each.set ?_ _ (Value.confined_fragment hchild)))
    split
    · rename_i es hes
      exact Value.confined_dict.mp (he.get? hes)
    · exact .nil
  · exact (Entries.get?_set_str "properties" "$ref" _ e).trans he

/-- What is known of the arrivals at the children of a node: they leave the nodes above in progress,
    whatever comes of them. -/
structure Calls (target : Target) (above : List NodeId)
    (visit : NodeId → Path → Action Conversion Unit) : Prop where
  within : ∀ m path, Within (Descends []) (visit m path)
  orderly : ∀ m path (c : Conversion), c.Orderly target above →
    (visit m path c).2.Orderly target above
  arrived : ∀ m path (c : Conversion), c.Orderly target above →
    (visit m path c).2.Arrived above m

section Calls

variable {guide : Guide} {side : Side} {visit : NodeId → Path → Action Conversion Unit}
  (hvisit : Calls target (n :: above) visit)
include hvisit

/-- A visit to a child leaves the node being lowered, and the child is arrived at, whatever comes of
    the visit. -/
theorem Lowers.arrives (h : c.Lowers target above n) (m : NodeId) (path : Path) :
    Meets (visit m path) c
      (fun _ d => d.Lowers target above n ∧ d.Arrived (n :: above) m)
      (fun d => d.Lowers target above n ∧ d.Arrived (n :: above) m) :=
  meets_of_state ⟨h.descends (hvisit.within m path c) (hvisit.orderly m path c h.orderly),
    hvisit.arrived m path c h.orderly⟩

/-- A child that was arrived at may be passed on. -/
theorem Lowers.inherit (h : c.Lowers target above n) (child : NodeId) (path : Path) :
    Meets (do visit child path; passOn n child) c (fun _ d => d.Lowers target above n)
      (fun d => d.Lowers target above n) := by
  refine .bind ((h.arrives hvisit child path).mono (fun _ _ hd => hd) fun _ hd => hd.1) ?_
  rintro _ d ⟨hd, hchild⟩
  refine hd.onVisit (fun _ => rfl) (fun _ => rfl) fun v hv => { hv with target := fun m hm => ?_ }
  exact Option.some.inj hm ▸ hchild

/-- The source of a clone is passed on before it is visited, and in the end it was arrived at. -/
theorem Lowers.inheritSource (h : c.Lowers target above n) (child : NodeId) (path : Path) :
    Meets (perform side visit n (.inheritSource child path)) c
      (fun _ d => d.Lowers target above n) (fun d => d.Lowers target above n) := by
  have hpass := passOn_within n child c
  obtain ⟨v, hv, hown⟩ := h.own
  have hself : (c.survey.modify n fun v => { v with target := some child }).visit? n
      = some { v with target := some child } := Survey.visit?_modify_of_visit? hv _
  -- The source is passed on before it is visited, so the target is set first.
  have horderly : Conversion.Orderly target (n :: above) (passOn n child c).2 :=
    h.orderly.onVisit (fun _ => rfl) (fun _ hv => hv) (fun hn => absurd (List.mem_cons_self ..) hn)
      fun w hw => (h.orderly.visits n w hw).of_same rfl rfl .inl
  have hvisited : (visit child path (passOn n child c).2).2.Lowers target above n := by
    have hd := hvisit.within child path (passOn n child c).2
    refine ⟨hvisit.orderly child path _ horderly, ?_⟩
    obtain ⟨w, hw, -, -, hcontent⟩ := hd.visits
      (show (passOn n child c).2.survey.visit? n = some _ from hself)
    refine ⟨w, hw, Visit.Rests.of_content ?_ (hcontent List.not_mem_nil)⟩
    have harrived := hvisit.arrived child path _ horderly
    rw [hd.number]
    have hrests : v.Rests c.survey.number
        ((visit child path (passOn n child c).2).2.Arrived (n :: above)) :=
      hown.mono fun _ hm => (hm.descends hpass).descends hd
    exact { hrests with target := fun m hm => Option.some.inj hm ▸ harrived }
  refine .bind (P := fun _ d => d = (passOn n child c).2) rfl ?_
  rintro _ _ rfl
  refine .bind (meets_of_state hvisited) fun _ d hd => ?_
  have hdesc : Descends [] d
      { d with survey := d.survey.modify child fun v => { v with isSource := true } } :=
    @onVisit_within [] child (fun v => { v with isSource := true }) (fun _ => rfl) (fun _ hv => hv)
      (fun _ _ => rfl) d
  exact hd.descends hdesc (hd.orderly.onVisit (fun _ => rfl) (fun _ hv => hv) (fun _ _ => rfl)
    fun w hw => (hd.orderly.visits child w hw).of_same rfl rfl .inl)

/-- **Steps.** A step that points at nodes that were arrived at leaves the node in progress. -/
theorem perform_lowers (h : c.Lowers target above n) {seen : NodeId → Prop}
    (hseen : ∀ m, seen m → c.Arrived (n :: above) m) {step : Step} (hstep : step.Backs seen) :
    Meets (perform side visit n step) c
      (fun _ d => d.Lowers target above n ∧
        ∀ m, step.visited? = some m → d.Arrived (n :: above) m)
      (fun d => d.Lowers target above n) := by
  -- What a step writes points at nodes that the steps before it have arrived at.
  cases step with
  | write key v =>
    exact ⟨h.write hstep.1 (Value.confined_of_leads hstep.2.1 (hstep.2.2.mono hseen)), nofun⟩
  | merge entries =>
    refine ⟨h.onFragment (fun e he => he.update ?_) fun e he => ?_, nofun⟩
    · exact hstep.noted.confined
    · exact Entries.get?_update_none he hstep.spared
  | visit child path =>
    refine (h.arrives hvisit child path).mono (fun _ d hd => ⟨hd.1, fun m hm => ?_⟩) fun _ hd => hd.1
    exact Option.some.inj hm ▸ hd.2
  | property name child => exact ⟨h.putProperty (hseen child hstep), nofun⟩
  | require shape =>
    refine .bind (h.onStore (Store.harmless_requiredNames side shape)) ?_
    rintro names d ⟨-, hd⟩
    refine ⟨hd.write (by decide) (Value.confined_list.mpr fun x hx => ?_), nofun⟩
    obtain ⟨name, -, rfl⟩ := List.mem_map.mp hx
    exact Value.confined_of_tree rfl
  | inherit child path =>
    exact (h.inherit hvisit child path).mono (fun _ _ hd => ⟨hd, nofun⟩) fun _ hd => hd
  | inheritResolved path =>
    refine .bind (h.onStore (Store.harmless_resolve n)) ?_
    rintro answer d ⟨-, hd⟩
    cases answer with
    | node child =>
      exact (hd.inherit hvisit child path).mono (fun _ _ hd => ⟨hd, nofun⟩) fun _ hd => hd
    | value v => exact hd.fail _
  | inheritSource child path =>
    exact (h.inheritSource hvisit child path).mono (fun _ _ hd => ⟨hd, nofun⟩) fun _ hd => hd
  | prefault v =>
    exact ⟨h.onVisit (fun _ => rfl) (fun _ => rfl) fun _ hv => { hv with prefault := hstep }, nofun⟩
  | fail f => exact h.fail f

/-- **Recipes.** Steps that are backed leave the node in progress, whatever comes of them. -/
theorem performAll_lowers {steps : List Step} {seen : NodeId → Prop}
    (h : c.Lowers target above n) (hseen : ∀ m, seen m → c.Arrived (n :: above) m)
    (hsteps : Step.Backed seen steps) :
    Meets (performAll side visit n steps) c (fun _ d => d.Lowers target above n)
      (fun d => d.Lowers target above n) := by
  induction steps generalizing c seen with
  | nil => exact h
  | cons step rest ih =>
    have hwithin : Within (Descends [n]) (perform side visit n step) :=
      perform_within hvisit.within n step
    -- Every step may rely on the nodes that the steps before it have visited.
    have hstep : Meets (perform side visit n step) c
        (fun _ d => d.Lowers target above n ∧
          ∀ m, (seen m ∨ step.visited? = some m) → d.Arrived (n :: above) m)
        (fun d => d.Lowers target above n) := by
      have hmeets : Meets (perform side visit n step) c _ _ := perform_lowers hvisit h hseen hsteps.1
      have hdesc := hwithin c
      unfold Meets at hmeets ⊢
      rcases hrun : perform side visit n step c with ⟨e | x, d⟩
      · rw [hrun] at hmeets
        exact hmeets
      · rw [hrun] at hmeets hdesc
        exact ⟨hmeets.1, fun m hm => hm.elim (fun hm => (hseen m hm).descends hdesc) (hmeets.2 m)⟩
    exact .bind hstep fun _ d hd => ih hd.1 hd.2 hsteps.2

/-- **Lowering.** A node that is lowered is in progress, whatever comes of it. -/
theorem lower_lowers (h : c.Lowers target above n) (path : Path) :
    (lower guide visit n path c).2.Lowers target above n := by
  refine Meets.state ?_
  refine .bind (h.onStore (Store.harmless_fetch n)) ?_
  rintro node d ⟨hnode, hd⟩
  refine .bind (P := fun x d' => x = d ∧ d' = d) ⟨rfl, rfl⟩ ?_
  rintro _ _ ⟨rfl, rfl⟩
  refine .bind (performAll_lowers hvisit hd (fun _ hm => hm.elim) (hnode.backed _ _)) ?_
  intro _ f hf
  -- The annotation holds plain data, and no reference.
  have hannotated : Meets (annotate guide.catalog n) f (fun _ d => d.Lowers target above n)
      (fun d => d.Lowers target above n) := by
    refine .bind (P := fun x d' => x = f ∧ d' = f) ⟨rfl, rfl⟩ ?_
    rintro _ _ ⟨rfl, rfl⟩
    split
    · rename_i notes hnotes
      have hnoted := hf.orderly.store.noted hnotes
      exact hf.onFragment (fun e he => he.update hnoted.confined) fun e he =>
        Entries.get?_update_none he hnoted.spared
    · exact hf
  refine .bind hannotated fun _ k hk => ?_
  split
  · exact hk.onVisit (fun _ => rfl) (fun _ => rfl) fun v hv => hv.settleDefault node.kind
  · exact hk

end Calls

/-! ### Arrivals -/

/-- An event leaves a conversion orderly. -/
theorem Orderly.log (h : c.Orderly target above) (e : Event) :
    Conversion.Orderly target above { c with store := c.store.record e } :=
  h.enlarges (Store.harmless_log e c.store h.store).2

/-- Meeting a node again counts, and marks it if it is one of the nodes above. -/
theorem Orderly.revisit (h : c.Orderly target above) (hn : c.survey.has n = true) (path : Path) :
    (revisit above n path c).2.Orderly target above ∧ (revisit above n path c).2.Arrived above n := by
  refine Meets.state (P := fun d : Conversion => d.Orderly target above ∧ d.Arrived above n) ?_
  have hcount : Conversion.Orderly target above
      { c with survey := c.survey.modify n fun v => { v with count := v.count + 1 } } :=
    h.onVisit (fun _ => rfl) (fun _ hv => hv) (fun _ _ => rfl) fun w hw =>
      (h.visits n w hw).of_same rfl rfl .inl
  refine .bind (P := fun _ d => d.Orderly target above ∧ d.survey.has n = true)
    ⟨hcount, (has_modify _ _ _ _).trans hn⟩ fun _ d ⟨hd, hdn⟩ => ?_
  split
  · rename_i habove
    -- A mark may be set on a node above, since that has not been settled yet.
    have hmarked : Conversion.Orderly target above
        { d with survey := d.survey.modify n fun v => { v with cycle := some path } } := by
      refine hd.onVisit (fun _ => rfl) (fun _ _ => rfl) (fun _ _ => rfl) fun w hw => ?_
      obtain ⟨v, hv, -, hmerged⟩ := hd.fresh n habove
      obtain rfl := Option.some.inj (hw.symm.trans hv)
      exact (hd.visits n w hw).of_same rfl rfl fun _ => .inr hmerged
    refine .bind (P := fun _ f => f.Orderly target above ∧ f.Marked n) ⟨hmarked, ?_⟩ ?_
    · obtain ⟨v, hv⟩ := Survey.visit?_of_has hdn
      refine ⟨{ v with cycle := some path }, ?_, rfl⟩
      exact Survey.visit?_modify_of_visit? hv _
    · rintro _ f ⟨hf, hmark⟩
      exact ⟨hf.log _, Marked.has hmark, fun _ => hmark⟩
  · rename_i habove
    exact ⟨hd, hdn, fun hn => absurd hn habove⟩

/-- A node that was just entered is in progress. -/
theorem Orderly.entered (h : c.Orderly target above) (hn : c.survey.has n = false) :
    (c.entered n).Lowers target above n := by
  have hdesc : Descends [] c (c.entered n) := .of_entered hn (.refl _)
  have hnew : ∀ m, c.survey.has m = true → m ≠ n := by
    rintro m hm rfl
    rw [hn] at hm
    cases hm
  have hself : (c.entered n).survey.visit? n = some {} := Survey.visit?_enter_self hn
  have hrests : ∀ reach, ({} : Visit).Rests c.survey.number reach := fun reach =>
    ⟨.nil, nofun, rfl, rfl⟩
  refine ⟨⟨h.store, h.number, fun xs hxs x hx => ?_, fun m v hv => ?_, ?_, fun m hm hout => ?_⟩,
    {}, hself, hrests _⟩
  · obtain ⟨hfinite, hspent⟩ := h.lists xs hxs x hx
    exact ⟨hfinite, fun survey p hp => (hspent survey p hp).descends hdesc rfl⟩
  · obtain ⟨rfl, rfl⟩ | ⟨-, hold⟩ := Survey.visit?_enter_cases hn hv
    · exact (hrests fun _ => False).orderly (fun _ hm => hm.elim) rfl rfl
    · exact (h.visits m v hold).mono fun _ => hdesc.has
  · refine List.forall_mem_cons.mpr ⟨⟨{}, hself, rfl, rfl⟩, fun a ha => ?_⟩
    obtain ⟨v, hv, hnone, hmerged⟩ := h.fresh a ha
    have hne := hnew a (Survey.has_of_visit? hv)
    exact ⟨v, (Survey.visit?_enter_of_ne hne).trans hv, hnone, hmerged⟩
  -- The way from a grounded node meets no node that is only entered now.
  · obtain ⟨hmn, hout⟩ := not_or.mp (List.mem_cons.not.mp hout)
    obtain ⟨v, hv⟩ := Survey.visit?_of_has hm
    have hold := Survey.has_of_visit? ((Survey.visit?_enter_of_ne hmn).symm.trans hv)
    refine (h.grounded m hold hout).imp (fun k w hw hk => ?_) fun _ hmarked => hmarked.mono hdesc
    have hne := hnew k (Survey.has_of_visit? hw)
    exact ⟨List.mem_cons.not.mpr (not_or.mpr ⟨hne, hk⟩), w, (Survey.visit?_enter_of_ne hne).trans hw,
      fun _ => id⟩

/-- A node that was entered and lowered was arrived at. -/
theorem Orderly.arrived (h : c.Orderly target above) (hn : c.survey.has n = false)
    (hd : d.Lowers target above n) : d.Orderly target above ∧ d.Arrived above n := by
  obtain ⟨v, hv, -⟩ := hd.own
  refine ⟨hd.pop, Survey.has_of_visit? hv, fun hmem => ?_⟩
  obtain ⟨w, hw, -⟩ := h.fresh n hmem
  rw [Survey.has_of_visit? hw] at hn
  cases hn

/-- **Arrivals.** Whatever comes of an arrival, all nodes but those above are grounded. -/
theorem arrive_calls (guide : Guide) (depth : Nat) (above : List NodeId) :
    Calls target above (arrive guide depth above) := by
  suffices h : ∀ m path (c : Conversion), c.Orderly target above →
      (arrive guide depth above m path c).2.Orderly target above ∧
        (arrive guide depth above m path c).2.Arrived above m from
    ⟨fun m path => arrive_within depth above m path, fun m path c hc => (h m path c hc).1,
      fun m path c hc => (h m path c hc).2⟩
  induction depth generalizing above with
  | zero =>
    intro m path c hc
    rw [arrive_eq]
    split
    · rename_i hm
      exact hc.revisit hm path
    · rename_i hm
      have hnew : c.survey.has m = false := by simpa using hm
      exact hc.arrived hnew ((hc.entered hnew).fail .endless).state
  | succ depth ih =>
    intro m path c hc
    rw [arrive_eq]
    split
    · rename_i hm
      exact hc.revisit hm path
    · rename_i hm
      have hnew : c.survey.has m = false := by simpa using hm
      have hcalls : Calls target (m :: above) (arrive guide depth (m :: above)) :=
        ⟨fun k p => arrive_within depth _ k p, fun k p c hc => (ih (m :: above) k p c hc).1,
          fun k p c hc => (ih (m :: above) k p c hc).2⟩
      exact hc.arrived hnew (lower_lowers hcalls (hc.entered hnew) path)

/-- **Descents.** Whatever comes of a descent from a root, all visited nodes are grounded. -/
theorem Orderly.visit (h : c.Orderly target []) (guide : Guide) (n : NodeId) (path : Path) :
    (Conversion.visit guide n [] path c).2.Orderly target [] := by
  rw [visit_eq]
  exact (arrive_calls guide _ []).orderly n path c h

end Conversion

/-- Whatever comes of a visit to a root, all visited nodes are grounded. -/
theorem Conversion.Orderly.process {c : Conversion} {target : Target} (h : c.Orderly target [])
    (conv : Converter) (root : NodeId) : (conv.process root c).2.Orderly target [] := by
  refine Meets.state (.bind (meets_of_state (h.visit conv.guide root [])) fun _ d hd => ?_)
  exact hd.log _

end SchemaGraph
