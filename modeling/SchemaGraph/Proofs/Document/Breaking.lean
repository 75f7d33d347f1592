import SchemaGraph.Converter
import SchemaGraph.Proofs.Document.Upkeep
import SchemaGraph.Proofs.Survey.Grounding

namespace SchemaGraph

open SchemaGraph.Action Conversion

/-!
# How emissions break cycles

The nodes with the mark of a cycle become definitions before anything else happens to fragments, and
their fragments bare references, which point at nothing.  Content that is passed on brings a fragment
only to where its target leads.  So the nodes stay grounded, whatever comes of an emission.

* `Conversion.Broken`   — all marked nodes are definitions
* `Conversion.Grounded.spread` — content that is taken over keeps nodes grounded
* `Emission.compose_orderly`  — what an emission leaves is orderly, and broken if it returns
* `Emission.document_orderly` — the same of whole documents
-/

namespace Entries

variable {number : Nat} {reach more : NodeId → Prop} {es : Entries} {m : NodeId}

/-- Entries point at the nodes only to which they are confined. -/
theorem reach_of_confined (h : es.Each (Value.Confined number reach))
    (hm : .fragment number m ∈ Value.entryPlaces number es) : reach m := by
  rcases (Value.confined_dict.mpr h).places _ hm with ⟨k, hk⟩ | ⟨n, hn, hreach⟩
  · cases hk
  · cases hn
    exact hreach

/-- Entries are confined to the nodes that they point at. -/
theorem confined_places (h : es.Each (Value.Confined number reach))
    (hsub : ∀ m, .fragment number m ∈ Value.entryPlaces number es → more m) :
    es.Each (Value.Confined number more) := fun q hq =>
  { finite := (h q hq).finite
    places := fun p hp => by
      refine ((h q hq).places p hp).imp id ?_
      rintro ⟨m, rfl, -⟩
      exact ⟨m, rfl, hsub m (Value.mem_entryPlaces.mpr ⟨q, hq, hp⟩)⟩ }

end Entries

namespace Conversion

/-- All marked nodes are definitions. -/
def Broken (c : Conversion) : Prop :=
  ∀ n v, c.survey.visit? n = some v → v.cycle.isSome → v.definition.isSome

variable {c d : Conversion} {target : Target} {n m t : NodeId} {v : Visit}

/-- What nodes need was visited. -/
theorem Orderly.has_of_needs (h : c.Orderly target []) (hv : c.survey.visit? n = some v)
    (hm : v.Needs c.survey.number m) : c.survey.has m = true := by
  have hgrounded := h.grounded n (Survey.has_of_visit? hv) List.not_mem_nil
  cases hgrounded with
  | intro hw _ hbelow =>
    obtain rfl := Option.some.inj (hw.symm.trans hv)
    by_cases hmark : c.Marked m
    · exact hmark.has
    · exact (hbelow m hm hmark).has

/-- Fragments point at visited nodes. -/
theorem Orderly.fragment (h : c.Orderly target []) (n : NodeId) :
    (c.survey.fragment n).Each
      (Value.Confined c.survey.number fun m => c.survey.has m = true) := by
  unfold Survey.fragment
  cases hv : c.survey.visit? n with
  | none => exact .nil
  | some v => exact (h.visits n v hv).fragment

/-- The bodies of definitions point at visited nodes. -/
theorem Orderly.definition (h : c.Orderly target []) (n : NodeId) :
    (c.survey.definition n).Each
      (Value.Confined c.survey.number fun m => c.survey.has m = true) := by
  unfold Survey.definition
  cases hv : c.survey.visit? n with
  | none => exact .nil
  | some v =>
    cases hbody : v.definition with
    | none =>
      rw [Option.bind_some, hbody]
      exact .nil
    | some body =>
      rw [Option.bind_some, hbody]
      exact ((h.visits n v hv).definition body hbody).1

/-- The fragment of a definition points at nothing. -/
theorem Orderly.entryPlaces_of_defined (h : c.Orderly target [])
    (hv : c.survey.visit? n = some v) (hdefined : v.definition.isSome) :
    Value.entryPlaces c.survey.number (c.survey.fragment n) = [] := by
  obtain ⟨body, hbody⟩ := Option.isSome_iff_exists.mp hdefined
  obtain ⟨ref, hbare⟩ := ((h.visits n v hv).definition body hbody).2
  rw [Survey.fragment, hv]
  show Value.entryPlaces _ v.fragment = []
  rw [hbare]
  rfl

/-- Nodes stay grounded that need no others besides those that their unmarked nodes have needed. -/
theorem Grounded.spread {above : List NodeId} (h : c.Grounded above n)
    (hnumber : d.survey.number = c.survey.number)
    (hvisits : ∀ k v, c.survey.visit? k = some v → ∃ w, d.survey.visit? k = some w ∧
      ∀ m, w.Needs c.survey.number m → v.Needs c.survey.number m ∨ ∃ t u,
        v.Needs c.survey.number t ∧ ¬ c.Marked t ∧ c.survey.visit? t = some u ∧
          u.Needs c.survey.number m)
    (hmarked : ∀ m, c.Marked m → d.Marked m) : d.Grounded above n := by
  -- with a node, all the nodes that it has needed are grounded
  suffices hboth : d.Grounded above n ∧ ∀ v m, c.survey.visit? n = some v →
      v.Needs c.survey.number m → ¬ c.Marked m → d.Grounded above m from hboth.1
  induction h with
  | @intro n v hv hout _ ih =>
    have hbelow : ∀ m, v.Needs c.survey.number m → ¬ c.Marked m → d.Grounded above m :=
      fun m hm hfree => (ih m hm hfree).1
    refine ⟨?_, fun u m hu hm hfree => ?_⟩
    · obtain ⟨w, hw, hneeds⟩ := hvisits n v hv
      refine .intro hw hout fun m hm hfree => ?_
      rw [hnumber] at hm
      have hfree' : ¬ c.Marked m := fun hmark => hfree (hmarked m hmark)
      rcases hneeds m hm with hm | ⟨t, u, ht, htfree, hu, hm⟩
      · exact hbelow m hm hfree'
      · exact (ih t ht htfree).2 u m hu hm hfree'
    · obtain rfl := Option.some.inj (hu.symm.trans hv)
      exact hbelow m hm hfree

/-- A conversion in which nothing but events and visits has changed stays orderly, if its visits do
    and nodes stay grounded. -/
theorem Orderly.rewrites (h : c.Orderly target []) (hr : Rewrites c d)
    (hvisits : ∀ n v w, c.survey.visit? n = some v → d.survey.visit? n = some w →
      w.Orderly target c.survey.number (fun m => c.survey.has m = true) ∧
        (v.definition.isSome → w.definition.isSome))
    (hgrounded : ∀ n, c.Grounded [] n → d.Grounded [] n) : d.Orderly target [] := by
  refine ⟨?_, ?_, ?_, fun n w hw => ?_, nofun, fun n hn hout => ?_⟩
  · rw [hr.store]
    exact ⟨h.store.nodes, h.store.getters, h.store.notes⟩
  · rw [hr.store, hr.number]
    exact h.number
  · rw [hr.store]
    intro xs hxs x hx
    obtain ⟨hfinite, hspent⟩ := h.lists xs hxs x hx
    refine ⟨hfinite, fun survey p hp => ?_⟩
    -- A list points at definitions of this survey, which stay, or at one that is over.
    cases hspent survey p hp with
    | @defined m v hv hdefined =>
      obtain ⟨w, hw⟩ := Survey.visit?_of_has ((hr.has m).trans (Survey.has_of_visit? hv))
      rw [← hr.number]
      exact .defined hw ((hvisits m v w hv hw).2 hdefined)
    | past hpast hlength htrees =>
      refine .past (by rw [hr.number]; exact hpast) (by rw [hr.store]; exact hlength) ?_
      rw [hr.store]
      exact htrees
  · obtain ⟨v, hv⟩ := Survey.visit?_of_has ((hr.has n).symm.trans (Survey.has_of_visit? hw))
    rw [hr.number]
    exact (hvisits n v w hv hw).1.mono fun m hm => (hr.has m).trans hm
  · exact hgrounded n (h.grounded n ((hr.has n).symm.trans hn) hout)

/-- A conversion stays orderly when a visit is changed that stays a definition if it is one, and that
    needs no others besides those that its unmarked nodes have needed. -/
theorem Orderly.modify (h : c.Orderly target []) {f : Visit → Visit}
    (horderly : ∀ v, c.survey.visit? n = some v →
      (f v).Orderly target c.survey.number fun m => c.survey.has m = true)
    (hdefined : ∀ v, v.definition.isSome → (f v).definition.isSome)
    (hcycle : ∀ v, (f v).cycle = v.cycle)
    (hneeds : ∀ v, c.survey.visit? n = some v → ∀ m, (f v).Needs c.survey.number m →
      v.Needs c.survey.number m ∨ ∃ t u, v.Needs c.survey.number t ∧ ¬ c.Marked t ∧
        c.survey.visit? t = some u ∧ u.Needs c.survey.number m) :
    Conversion.Orderly target [] { c with survey := c.survey.modify n f } := by
  -- Only the visit of `n` is another one.
  have hvisit : ∀ k v, c.survey.visit? k = some v →
      (c.survey.modify n f).visit? k = some (if k = n then f v else v) := by
    intro k v hv
    split
    · rename_i hk
      rw [hk, Survey.visit?_modify_self, ← hk, hv]
      rfl
    · rename_i hk
      rw [Survey.visit?_modify_of_ne hk, hv]
  refine h.rewrites (rewrites_onVisit n f c) (fun k v w hv hw => ?_)
    fun m hm => hm.spread rfl (fun k v hv => ⟨_, hvisit k v hv, ?_⟩) ?_
  · obtain rfl := Option.some.inj (hw.symm.trans (hvisit k v hv))
    split
    · rename_i hk
      exact ⟨horderly v (hk ▸ hv), hdefined v⟩
    · exact ⟨h.visits k v hv, id⟩
  · split
    · rename_i hk
      exact hneeds v (hk ▸ hv)
    · exact fun _ => .inl
  · rintro k ⟨v, hv, hmark⟩
    refine ⟨_, hvisit k v hv, ?_⟩
    split
    · rw [hcycle]
      exact hmark
    · exact hmark

/-- Other addresses leave a conversion orderly. -/
theorem Orderly.relink (h : c.Orderly target []) (linkage : Option Linkage) :
    Conversion.Orderly target [] { c with linkage } := h.enlarges (.refl h.store)

/-- A failure leaves a conversion orderly. -/
theorem Orderly.fail (h : c.Orderly target []) {α : Type} (f : Failure) {Q : α → Conversion → Prop} :
    Meets (Conversion.fail f : Action Conversion α) c Q (fun d => d.Orderly target []) := by
  obtain ⟨d, hrun, hrewrites, hsurvey⟩ := run_fail α f c
  unfold Meets
  rw [hrun]
  refine h.enlarges (.of_lists ?_ ?_ ?_) hrewrites.number fun n => by rw [hsurvey]
  all_goals rw [hrewrites.store]
  exact ⟨h.store.nodes, h.store.getters, h.store.notes⟩

end Conversion

namespace Visit

variable {target : Target} {number : Nat} {reach : NodeId → Prop} {v : Visit}

/-- A visit whose keywords become a definition. -/
theorem Orderly.defined (h : v.Orderly target number reach) (ref : String) (id : Value) :
    (v.defined ref id).Orderly target number reach where
  fragment := List.forall_mem_singleton.mpr (Value.confined_of_tree rfl)
  definition body hbody := by
    obtain rfl := Option.some.inj hbody
    exact ⟨h.fragment, ref, rfl⟩
  spared := nofun
  waits _ := nofun
  linked _ _ := rfl

/-- A visit needs the same nodes when it has become a definition. -/
theorem needs_defined {ref : String} {id : Value} {m : NodeId}
    (h : (v.defined ref id).Needs number m) : v.Needs number m :=
  h.elim .inl nofun

end Visit

namespace Emission

variable {e : Emission} {c d : Conversion} {target : Target} {n m t : NodeId} {v w : Visit}

/-- Hoisting leaves a conversion orderly. -/
theorem Hoists.orderly (h : Hoists e c d) (hc : c.Orderly target []) : d.Orderly target [] := by
  refine hc.rewrites h.rewrites (fun n v w hv hw => ?_) fun n hn => hn.imp (fun m v hv hout => ?_) ?_
  · rcases h.visits hv with hd | ⟨-, ref, id, -, hd⟩ <;> obtain rfl := Option.some.inj (hw.symm.trans hd)
    · exact ⟨hc.visits n w hv, id⟩
    · exact ⟨(hc.visits n v hv).defined ref id, fun _ => rfl⟩
  · rw [h.rewrites.number]
    rcases h.visits hv with hd | ⟨-, ref, id, -, hd⟩
    · exact ⟨hout, v, hd, fun _ => id⟩
    · exact ⟨hout, _, hd, fun _ => Visit.needs_defined⟩
  · rintro m ⟨v, hv, hcycle⟩
    rcases h.visits hv with hd | ⟨-, ref, id, -, hd⟩
    · exact ⟨v, hd, hcycle⟩
    · exact ⟨_, hd, hcycle⟩

/-- **Hoisting.** Whatever comes of hoisting, it leaves a conversion orderly; if it returns, all
    marked nodes are definitions. -/
theorem hoist_orderly (h : c.Orderly target []) :
    Meets e.hoist c (fun _ d => d.Orderly target [] ∧ d.Broken) (fun d => d.Orderly target []) := by
  refine (hoist_hoists c).mono (fun _ d ⟨hd, hreferences⟩ => ⟨hd.orderly h, fun n w hw hcycle => ?_⟩)
    fun d hd => hd.orderly h
  obtain ⟨v, hv⟩ := Survey.visit?_of_has
    ((hd.rewrites.has n).symm.trans (Survey.has_of_visit? hw))
  rcases hd.visits hv with hsame | ⟨-, ref, id, -, hsame⟩ <;>
    obtain rfl := Option.some.inj (hw.symm.trans hsame)
  · -- a marked visit that was not hoisted has been a reference, and no such one lacks a definition
    have href := hreferences n w w hv hw (by simp [isHoisted, hcycle])
    by_contra hnone
    have hnone : w.definition = none := by simpa using hnone
    have hvisit := h.visits n w hv
    rw [hvisit.spared hnone (hvisit.waits hcycle hnone)] at href
    cases href
  · rfl

/-! ### Settling -/

/-- What is taken over is confined to where the own body, the fragment and the target are. -/
theorem Takes.confined {number : Nat} {reach : NodeId → Prop} {own below body : Entries}
    (h : Takes target own t below body) (hown : own.Each (Value.Confined number reach))
    (hbelow : below.Each (Value.Confined number reach)) (ht : reach t) :
    body.Each (Value.Confined number reach) := by
  have hfragment : (Value.fragment t).Confined number reach := Value.confined_fragment ht
  unfold Takes at h
  split at h
  · split at h
    · rw [h]
      exact hown.set _ (Value.confined_list.mpr (List.forall_mem_singleton.mpr hfragment))
    · rename_i xs hget
      rw [h]
      refine hown.set _ (Value.confined_list.mpr fun x hx => ?_)
      rcases List.mem_append.mp hx with hx | hx
      · exact Value.confined_list.mp (hown.get? hget) x hx
      · exact List.mem_singleton.mp hx ▸ hfragment
    · rw [h]
      exact hown
  · rw [h]
    exact (hown.update hbelow).update hown

/-- In the dialect that ignores the keywords beside a reference, no reference is taken over. -/
theorem Takes.spared {own below body : Entries} (h : Takes .draft7 own t below body)
    (hown : own.has Visit.refKey = false) : body.has Visit.refKey = false := by
  have hset : ∀ x, Entries.has Visit.refKey (own.set allOfKey x) = false := by
    intro x
    unfold Entries.has at hown ⊢
    rw [Entries.get?_set_of_ne (by decide)]
    exact hown
  unfold Takes at h
  split at h
  · split at h
    · exact h ▸ hset _
    · exact h ▸ hset _
    · exact h ▸ hown
  · rename_i hbare
    have hbelow : below.has Visit.refKey = false := by simpa using hbare
    unfold Entries.has at hown hbelow ⊢
    rw [Option.isSome_eq_false_iff, Option.isNone_iff_eq_none] at hown hbelow ⊢
    rw [h]
    exact Entries.get?_update_none (Entries.get?_update_none hown hbelow) hown

/-- A marked visit that is a definition stays orderly when it takes over content. -/
theorem orderly_withBody {number : Nat} {reach : NodeId → Prop} {body below : Entries}
    (h : w.Orderly target number reach) (hmerged : w.merged = true)
    (hbroken : w.cycle.isSome → w.definition.isSome)
    (hbelow : below.Each (Value.Confined number reach)) (ht : reach t)
    (htakes : Takes target w.body t below body) :
    (w.withBody body).Orderly target number reach := by
  -- The body of a definition is the definition; that of any other visit is its fragment.
  cases hdefinition : w.definition with
  | some own =>
    have hown : w.body = own := by rw [Visit.body, hdefinition]; rfl
    have hwith : w.withBody body = { w with definition := some body } := by
      rw [Visit.withBody, hdefinition]
      rfl
    obtain ⟨hconfined, hbare⟩ := h.definition own hdefinition
    rw [hwith]
    have hsome : some body ≠ none := Option.some_ne_none body
    refine ⟨h.fragment, fun x hx => ?_, fun hnone => absurd hnone hsome,
      fun _ hnone => absurd hnone hsome, fun _ _ => rfl⟩
    obtain rfl := Option.some.inj hx
    exact ⟨htakes.confined (hown ▸ hconfined) hbelow ht, hbare⟩
  | none =>
    have hown : w.body = w.fragment := by rw [Visit.body, hdefinition]; rfl
    have hwith : w.withBody body = { w with fragment := body } := by
      rw [Visit.withBody, hdefinition]
      rfl
    rw [hown] at htakes
    rw [hwith]
    refine ⟨htakes.confined h.fragment hbelow ht, fun x hx => ?_, fun _ hwaits => ?_,
      fun hcycle _ => ?_, fun hdraft href => ?_⟩
    · exact absurd (hx.symm.trans hdefinition) (Option.some_ne_none x)
    · exact absurd (hwaits.symm.trans hmerged) Bool.false_ne_true
    · rw [hdefinition] at hbroken
      cases hbroken hcycle
    -- Only definitions refer in this dialect, and this visit is none.
    · subst hdraft
      have hspared : w.isReference = false := by
        by_contra hreference
        have hsome := h.linked rfl (by simpa using hreference)
        rw [hdefinition] at hsome
        cases hsome
      have hbody : body.has Visit.refKey = false := htakes.spared hspared
      exact absurd (hbody.symm.trans href) Bool.false_ne_true

/-- What a visit needs when it has taken over a fragment, it has needed before, or the fragment
    points at it. -/
theorem needs_takes {number : Nat} {reach : NodeId → Prop} {body below : Entries}
    (h : w.Orderly target number reach) (ht : w.target = some t)
    (hbelow : below.Each (Value.Confined number reach))
    (htakes : Takes target w.body t below body) (hm : (w.withBody body).Needs number m) :
    w.Needs number m ∨ .fragment number m ∈ Value.entryPlaces number below := by
  cases hdefinition : w.definition with
  | some own =>
    rw [Visit.withBody, hdefinition] at hm
    exact .inl hm
  | none =>
    have hown : w.body = w.fragment := by rw [Visit.body, hdefinition]; rfl
    rw [hown] at htakes
    rw [Visit.withBody, hdefinition] at hm
    rcases hm with hm | hm
    · exact .inl (.inl hm)
    · have hconfined : body.Each (Value.Confined number fun k => w.Needs number k ∨
          .fragment number k ∈ Value.entryPlaces number below) :=
        htakes.confined (Entries.confined_places h.fragment fun k hk => .inl (.inr hk))
          (Entries.confined_places hbelow fun k hk => .inr hk) (.inl (.inl ht))
      exact Entries.reach_of_confined hconfined hm

/-- **Settling a visit.** When a finished visit takes over the fragment of its target, the conversion
    stays orderly: a target that is marked is a bare reference, and what others need was needed by
    them before or by the visit's target. -/
theorem orderly_takes {body : Entries} (h : c.Orderly target []) (hbroken : c.Broken)
    (hw : c.survey.visit? n = some w) (hmerged : w.merged = true) (ht : w.target = some t)
    (htakes : Takes target w.body t (c.survey.fragment t) body) :
    Conversion.Orderly target []
      { c with survey := c.survey.modify n fun v => v.withBody body } := by
  have hvisit := h.visits n w hw
  have hsame : ∀ v, c.survey.visit? n = some v → v = w := fun v hv =>
    Option.some.inj (hv.symm.trans hw)
  -- What the body points at newly is what the target's fragment points at.
  have hbehind : c.survey.has t = true := h.has_of_needs hw (.inl ht)
  refine h.modify (fun v hv => ?_) (fun v hsome => ?_) (fun v => v.cycle_withBody body)
    fun v hv m hm => ?_
  · rw [hsame v hv]
    exact orderly_withBody hvisit hmerged (hbroken n w hw) (h.fragment t) hbehind htakes
  · rw [v.isSome_definition_withBody]
    exact hsome
  · rw [hsame v hv] at hm ⊢
    refine (needs_takes hvisit ht (h.fragment t) htakes hm).imp_right fun hbelow => ?_
    obtain ⟨u, hu⟩ := Survey.visit?_of_has hbehind
    refine ⟨t, u, .inl ht, fun hmark => ?_, hu, .inr ?_⟩
    · -- a marked target is a definition, and its fragment points at nothing
      obtain ⟨u', hu', hcycle⟩ := hmark
      rw [h.entryPlaces_of_defined hu' (hbroken t u' hu' hcycle)] at hbelow
      cases hbelow
    · rw [Survey.fragment, hu] at hbelow
      exact hbelow

/-- A list of annotations may get a fragment that is a bare reference. -/
theorem orderly_appended (h : c.Orderly .draft7 []) (number : Nat)
    (ht : (c.survey.fragment t).has Visit.refKey = true) :
    (appended c number t).Orderly .draft7 [] := by
  -- Only a definition is a reference, so what the list points at gives way to one.
  obtain ⟨v, hv, hdefined⟩ : ∃ v, c.survey.visit? t = some v ∧ v.definition.isSome := by
    unfold Survey.fragment at ht
    cases hv : c.survey.visit? t with
    | none =>
      rw [hv] at ht
      cases ht
    | some v =>
      rw [hv] at ht
      exact ⟨v, rfl, (h.visits t v hv).linked rfl ht⟩
  have hspent : ∀ p, c.Spent p → (appended c number t).Spent p := by
    intro p hp
    cases hp with
    | defined hv hdefined => exact .defined hv hdefined
    | past hpast hlength htrees => exact .past hpast hlength htrees
  refine ⟨⟨h.store.nodes, h.store.getters, h.store.notes⟩, h.number, fun xs hxs x hx => ?_,
    h.visits, nofun, fun n hn hout => (h.grounded n hn hout).imp
      (fun m v hv hm => ⟨hm, v, hv, fun _ => id⟩) fun _ => id⟩
  obtain ⟨i, hi⟩ := List.mem_iff_getElem?.mp hxs
  have hold : (∃ ys ∈ c.store.lists, x ∈ ys) ∨ x = .borrowed c.survey.number t := by
    rw [show (appended c number t).store.lists = c.store.lists.modify number _ from rfl,
      List.getElem?_modify] at hi
    obtain ⟨ys, hys, rfl⟩ := Option.map_eq_some_iff.mp hi
    have hmem := List.mem_of_getElem? hys
    split at hx
    · rcases List.mem_append.mp hx with hx | hx
      · exact .inl ⟨ys, hmem, hx⟩
      · exact .inr (List.mem_singleton.mp hx)
    · exact .inl ⟨ys, hmem, hx⟩
  rcases hold with ⟨ys, hys, hx⟩ | rfl
  · obtain ⟨hfinite, hplaces⟩ := h.lists ys hys x hx
    exact ⟨hfinite, fun survey p hp => hspent p (hplaces survey p hp)⟩
  · refine ⟨rfl, fun survey p hp => ?_⟩
    rw [List.mem_singleton.mp hp]
    exact .defined hv hdefined

/-- What settling preserves: nodes stay grounded, and marked ones definitions. -/
theorem orderly_preserved : Preserved target fun c => c.Orderly target [] ∧ c.Broken where
  events hr hsurvey hc := by
    refine ⟨hc.1.rewrites hr (fun n v w hv hw => ?_) fun n hn => hn.imp (fun m v hv hm => ?_) ?_, ?_⟩
    · rw [hsurvey] at hw
      obtain rfl := Option.some.inj (hv.symm.trans hw)
      exact ⟨hc.1.visits n v hv, id⟩
    · rw [hsurvey]
      exact ⟨hm, v, hv, fun _ => id⟩
    · unfold Marked
      rw [hsurvey]
      exact fun _ => id
    · unfold Broken
      rw [hsurvey]
      exact hc.2
  -- Lists are added to in the dialect that ignores keywords beside a reference.
  append number t htarget href hc := by
    subst htarget
    exact ⟨orderly_appended hc.1 number href, hc.2⟩
  -- A visit that is marked by a cycle has become a definition before.
  mark {c} n hc := by
    refine ⟨hc.1.modify (fun v hv => ?_) (fun _ => id) (fun _ => rfl) fun _ _ _ => .inl,
      forall_visit?_modify hc.2 fun v hv => hc.2 n v hv⟩
    have hvisit := hc.1.visits n v hv
    refine ⟨hvisit.fragment, hvisit.definition, nofun, fun hcycle hnone => ?_, hvisit.linked⟩
    have hsome := hc.2 n v hv hcycle
    rw [show v.definition = none from hnone] at hsome
    cases hsome
  body {c d n v t body} hc hv hwaits ht hd hself htakes := by
    refine ⟨orderly_takes hd.1 hd.2 hself rfl ht htakes, forall_visit?_modify hd.2 fun w hw hcycle => ?_⟩
    rw [w.isSome_definition_withBody]
    rw [w.cycle_withBody] at hcycle
    exact hd.2 n w hw hcycle

/-! ### Documents -/

/-- The bodies of definitions in a table point at visited nodes. -/
theorem confined_tableEntries (h : c.Orderly target []) (table : List (Value × NodeId)) :
    (tableEntries c.survey table).Each
      (Value.Confined c.survey.number fun m => c.survey.has m = true) := by
  intro q hq
  obtain ⟨⟨id, n⟩, -, rfl⟩ := List.mem_map.mp hq
  exact Value.confined_dict.mpr (h.definition n)

/-- The keywords of a document point at visited nodes. -/
theorem confined_assemble (h : c.Orderly target []) (table : List (Value × NodeId)) :
    (e.assemble c.survey table).Each
      (Value.Confined c.survey.number fun m => c.survey.has m = true) := by
  refine Entries.Each.set ?_ _ (Value.confined_of_tree rfl)
  split
  · exact h.definition e.root
  · exact (h.definition e.root).set _ (Value.confined_dict.mpr (confined_tableEntries h table))

/-- **Compositions.** Whatever comes of putting together a document, it leaves a conversion orderly;
    if it returns, all marked nodes are definitions, and the document points at visited nodes. -/
theorem compose_orderly (hoverride : e.override = none) (h : c.Orderly e.target []) :
    Meets e.compose c
      (fun entries d => d.Orderly e.target [] ∧ d.Broken ∧
        entries.Each (Value.Confined d.survey.number fun m => d.survey.has m = true))
      (fun d => d.Orderly e.target []) := by
  -- Claiming, hoisting, settling and listing one after the other; only settling may break.
  have hclaim : Conversion.Orderly e.target [] (e.claim c).2 := h.enlarges (.refl h.store)
  refine .bind (meets_of_state hclaim) fun _ c₁ h₁ => ?_
  refine .bind (hoist_orderly h₁) fun _ c₂ h₂ => ?_
  have hsettled := meets_of_state (P := fun d : Conversion => d.Orderly e.target [] ∧ d.Broken)
    (orderly_preserved.settled hoverride h₂)
  refine .bind (hsettled.mono (fun _ _ h => h) fun _ h => h.1) fun _ c₃ ⟨h₃, hbroken⟩ => ?_
  refine .bind (P := fun x d => c₃ = x ∧ c₃ = d) ⟨rfl, rfl⟩ ?_
  rintro _ _ ⟨rfl, rfl⟩
  dsimp only
  refine .bind (P := fun _ d => d.Orderly e.target [] ∧ d.survey = c₃.survey)
    ⟨h₃.relink _, rfl⟩ ?_
  rintro _ c₄ ⟨h₄, hsurvey⟩
  split
  · exact h₄.fail _
  · refine meets_pure ⟨h₄, ?_, ?_⟩
    · unfold Broken
      rw [hsurvey]
      exact hbroken
    · rw [hsurvey]
      exact confined_assemble h₃ _

/-- **Emissions.** Whatever comes of an emission, all visited nodes are grounded. -/
theorem document_orderly (hoverride : e.override = none) (h : c.Orderly e.target []) :
    (e.document c).2.Orderly e.target [] := by
  refine Meets.state ?_
  refine .bind (P := fun x d => c = x ∧ c = d) ⟨rfl, rfl⟩ ?_
  rintro _ _ ⟨rfl, rfl⟩
  split
  · exact h.fail _
  · refine .bind (compose_orderly hoverride h) fun entries c₁ h₁ => ?_
    have hfinal : Meets (finalize (.dict entries)) c₁ (fun _ d => d.Orderly e.target [])
        (fun d => d.Orderly e.target []) := by
      refine .bind (P := fun x d => c₁ = x ∧ c₁ = d) ⟨rfl, rfl⟩ ?_
      rintro _ _ ⟨rfl, rfl⟩
      split
      · exact h₁.1
      · exact h₁.1.fail _
    exact .bind hfinal fun json c₂ h₂ => h₂.log _

end Emission

end SchemaGraph
