import SchemaGraph.Proofs.Document.Revealing
import SchemaGraph.Proofs.Survey.Defaults

namespace SchemaGraph

open SchemaGraph.Action Conversion Emission

/-!
# Defaults of chains

Along a chain of nodes that pass content on, each node writes its own keywords over those of the
next one.  Behind an emission the first node therefore has the default of the first node of the
chain that supplies one.  In the dialect that ignores all keywords beside a reference, nothing is
taken over from a node that has a reference of its own.

* `Override.Sparing`      — an override leaves defaults alone
* `Conversion.Passed`     — the default of a finished visit comes from it or from its target
* `Emission.settle_passes` — what settling a node does to defaults
* `Conversion.Tells`      — all defaults are told by the store
* `Converter.Course`      — the conversions in which every call returns
* `Converter.Course.outermost_default` — the default of the first node of a chain
-/

/-- The override leaves the default of every body alone, and each key at one place. -/
def Override.Sparing (o : Override) : Prop :=
  ∀ s n body, body.Distinct →
    (o s n body).1.Distinct ∧ (o s n body).1.get? "default" = body.get? "default"

namespace Visit

/-- The default that a visit hands on to a node that takes over its content. -/
def handed (target : Target) (v : Visit) : Option Value :=
  if target = .draft7 ∧ v.isReference = true then none else v.body.get? "default"

end Visit

namespace Conversion

variable {target : Target} {c d : Conversion} {own : Option Value} {t : Option NodeId} {w : Visit}

/-- A visit that is no definition hands on what its fragment holds. -/
theorem handed_of_plain {n : NodeId} {u : Visit} (hu : c.survey.visit? n = some u)
    (hplain : u.definition = none) : u.handed target =
      if target = .draft7 ∧ (c.survey.fragment n).has Visit.refKey = true then none
      else (c.survey.fragment n).get? "default" := by
  have hfragment : c.survey.fragment n = u.fragment := by
    unfold Survey.fragment
    rw [hu]
    rfl
  have hbody : u.body = u.fragment := by
    unfold Visit.body
    rw [hplain]
    rfl
  rw [hfragment, Visit.handed, hbody]
  rfl

/-- The default in a finished body: the node's own one, else that of the target, which is finished.
    Nothing is said about targets that are definitions. -/
def Passed (target : Target) (c : Conversion) (own : Option Value) (t : Option NodeId)
    (w : Visit) : Prop :=
  match t with
  | none => w.body.get? "default" = own
  | some t => ∃ u, c.survey.visit? t = some u ∧ u.merged = true ∧
      (u.definition = none → w.body.get? "default" = own.or (u.handed target))

/-- What was passed stays so while the finished target stays as it is. -/
theorem Passed.of_same (h : Passed target c own t w)
    (hsame : ∀ m u, t = some m → c.survey.visit? m = some u → u.merged = true →
      d.survey.visit? m = some u) : Passed target d own t w := by
  unfold Passed at h ⊢
  cases t with
  | none => exact h
  | some t =>
    obtain ⟨u, hu, hmerged, hdefault⟩ := h
    exact ⟨u, hsame t u rfl hu hmerged, hmerged, hdefault⟩

/-- A default that was passed on was passed on, however settling goes on. -/
theorem Passed.advances (h : Passed target c own t w) (hd : Advances c d) :
    Passed target d own t w :=
  h.of_same fun _ _ _ hu hmerged => hd.finished hu hmerged

/-- The visit of a node that waited is finished.  Its default was passed, if its content is not
    passed on in a circle. -/
def PassedOn (target : Target) (c : Conversion) (n : NodeId) (v : Visit) (d : Conversion) : Prop :=
  ∃ w, d.survey.visit? n = some w ∧ w.merged = true ∧
    (¬ Relation.TransGen c.Next n n → Passed target d (v.body.get? "default") v.target w)

/-- So it was along a whole chain of nodes. -/
theorem PassedOn.advances {f : Conversion} {n : NodeId} {v : Visit}
    (h : PassedOn target c n v d) (hf : Advances d f) : PassedOn target c n v f := by
  obtain ⟨w, hw, hmerged, hpassed⟩ := h
  exact ⟨w, hf.finished hw hmerged, hmerged, fun hloop => (hpassed hloop).advances hf⟩

/-- Only the visit of the node has changed, and it is finished, with the given default. -/
structure Seals (n : NodeId) (default : Option Value) (c d : Conversion) : Prop where
  leaves : Leaves n c d
  visit : ∃ x, d.survey.visit? n = some x ∧ x.Tidy ∧ x.merged = true ∧
    x.body.get? "default" = default

/-- Visits stay tidy. -/
theorem Seals.tidy {n : NodeId} (h : Seals n own c d) (hc : c.Every Visit.Tidy) :
    d.Every Visit.Tidy := by
  obtain ⟨x, hx, hxtidy, -⟩ := h.visit
  intro k u hu
  by_cases hk : k = n
  · subst hk
    obtain rfl := Option.some.inj (hu.symm.trans hx)
    exact hxtidy
  · exact hc k u ((h.leaves.others k hk).symm.trans hu)

end Conversion

namespace Emission

variable {e : Emission} {o : Override} {c d : Conversion} {n m : NodeId} {v w : Visit}

/-! ### Settling -/

/-- The default of a body that takes over content. -/
theorem Takes.default {target : Target} {own below body : Entries} {t : NodeId}
    (h : Takes target own t below body) (hown : own.Distinct) (hbelow : below.Distinct) :
    body.get? "default" = (own.get? "default").or
      (if target = .draft7 ∧ below.has Visit.refKey = true then none
        else below.get? "default") := by
  have hset : ∀ x, (own.set allOfKey x).get? "default" = own.get? "default" :=
    fun x => Entries.get?_set_of_ne (by decide) x own
  unfold Takes at h
  by_cases href : below.has Visit.refKey = true ∧ target = .draft7
  · rw [if_pos href] at h
    rw [if_pos href.symm, Option.or_none]
    split at h
    · rw [h, hset]
    · rw [h, hset]
    · rw [h]
  · rw [if_neg href] at h
    rw [if_neg fun hall => href hall.symm, h, get?_mergeBelow hown hbelow]

/-- A sparing override changes neither another visit nor the default of the one that it is shown. -/
theorem amend_spares (ho : ∀ o, e.override = some o → o.Sparing)
    (h : Returns (e.amend n v) c () d) (hw : c.survey.visit? n = some w) (htidy : w.Tidy) :
    Leaves n c d ∧ ∃ x, d.survey.visit? n = some x ∧ x.Tidy ∧ x.merged = w.merged ∧
      x.body.get? "default" = w.body.get? "default" := by
  -- Without an override, or for a source of clones, nothing happens.
  have hsame : d = c → Leaves n c d ∧ ∃ x, d.survey.visit? n = some x ∧ x.Tidy ∧
      x.merged = w.merged ∧ x.body.get? "default" = w.body.get? "default" := by
    rintro rfl
    exact ⟨{ }, w, hw, htidy, rfl, rfl⟩
  unfold amend at h
  split at h
  · rename_i o hsome
    split at h
    · exact hsame (returns_pure.mp h).2
    · obtain ⟨hdistinct, hdefault⟩ := ho o hsome c.store n w.body htidy.body
      unfold applyOverride Returns at h
      rw [run_bind, run_visitOf, hw] at h
      dsimp only [Option.getD_some] at h
      rw [run_bind, run_modify] at h
      dsimp only at h
      rw [run_bind, run_get] at h
      dsimp only at h
      -- The override writes one body and may then stop, which is no return.
      obtain ⟨_, g, hwrite, hstop⟩ := returns_bind.mp h
      obtain rfl := returns_onVisit.mp hwrite
      split at hstop
      · exact absurd hstop not_returns_fail
      · obtain ⟨-, rfl⟩ := returns_pure.mp hstop
        refine ⟨{ others := fun k hk => Survey.visit?_modify_of_ne hk c.survey _ }, _,
          Survey.visit?_modify_of_visit? hw _, htidy.withBody hdistinct, w.merged_withBody _, ?_⟩
        rw [Visit.body_withBody]
        exact hdefault
  · exact hsame (returns_pure.mp h).2

/-- The mark of a finished visit keeps all visits tidy. -/
theorem marked_tidy (h : c.Every Visit.Tidy) (n : NodeId) : (marked c n).Every Visit.Tidy :=
  onVisit_upholds (fun _ hv => ⟨hv.fragment, hv.definition⟩) c h

/-- A node that waits and passes nothing on is finished, with its own default. -/
theorem settle_of_none (ho : ∀ o, e.override = some o → o.Sparing) {links : Nat}
    (hv : c.survey.visit? n = some v) (hfresh : v.merged = false) (hown : v.Tidy)
    (ht : v.target = none) (h : Returns (e.settle (links + 1) n) c () d) :
    Seals n (v.body.get? "default") (marked c n) d := by
  have hmarked : ({ v with merged := true } : Visit).Tidy := ⟨hown.fragment, hown.definition⟩
  unfold Returns at h
  rw [settle_of_fresh links hv hfresh] at h
  obtain ⟨_, g, hfinish, hamend⟩ := returns_bind.mp h
  unfold finish at hfinish
  rw [ht] at hfinish
  obtain ⟨-, rfl⟩ := returns_pure.mp hfinish
  obtain ⟨hleaves, hvisit⟩ := amend_spares ho hamend (visit?_marked_self hv) hmarked
  exact ⟨hleaves, hvisit⟩

/-- **A step of settling.** A node that waits is finished when its target was settled: its default
    is its own one, or else that in the fragment of the target. -/
theorem settle_of_some (ho : ∀ o, e.override = some o → o.Sparing) {links : Nat} {t : NodeId}
    (hv : c.survey.visit? n = some v) (hfresh : v.merged = false) (hown : v.Tidy)
    (ht : v.target = some t) (h : Returns (e.settle (links + 1) n) c () d) :
    ∃ b, Returns (e.settle links t) (marked c n) () b ∧ (b.Every Visit.Tidy →
      Seals n ((v.body.get? "default").or
        (if e.target = .draft7 ∧ (b.survey.fragment t).has Visit.refKey = true then none
          else (b.survey.fragment t).get? "default")) b d) := by
  have hmarked : ({ v with merged := true } : Visit).Tidy := ⟨hown.fragment, hown.definition⟩
  unfold Returns at h
  rw [settle_of_fresh links hv hfresh] at h
  obtain ⟨_, g, hfinish, hamend⟩ := returns_bind.mp h
  unfold finish at hfinish
  rw [ht] at hfinish
  obtain ⟨_, b, hsettle, hfinish⟩ := returns_bind.mp hfinish
  obtain ⟨body, b', hinherit, hwrite⟩ := returns_bind.mp hfinish
  obtain rfl := returns_onVisit.mp hwrite
  refine ⟨b, hsettle, fun hb => ?_⟩
  -- the body that was taken over is what the override is shown
  have htakes := inherit_takes hinherit
  have hb' := ((settle_advances (e := e) links t).of_returns hsettle).finished
    (visit?_marked_self hv) rfl
  rw [← survey_of_inherit hinherit] at hb'
  obtain ⟨hleaves, x, hx, hxtidy, hmerged, hdefault⟩ :=
    amend_spares ho hamend (Survey.visit?_modify_of_visit? hb' _)
      (hmarked.withBody (htakes.distinct hown.body))
  have hinherits : Leaves n b b' := by
    have hleaves := inherit_leaves (e := e) (n := n) v.body t b
    rwa [show e.inherit v.body t b = (.ok body, b') from hinherit] at hleaves
  have hwrites := onVisit_leaves (n := n) (fun v => v.withBody body) b'
  have hfragment : (b.survey.fragment t).Distinct := by
    unfold Survey.fragment
    cases hu : b.survey.visit? t with
    | none => exact .nil
    | some u => exact (hb t u hu).fragment
  refine ⟨Trans.trans (Trans.trans hinherits hwrites) hleaves, x, hx, hxtidy,
    hmerged.trans (Visit.merged_withBody _ body), ?_⟩
  rw [hdefault, Visit.body_withBody, htakes.default hown.body hfragment]

/-- When the target of a node is settled and the node finished, what waited goes on waiting, or it
    is finished and the node passes its content on. -/
theorem passes_of_seals {t : NodeId} {b : Conversion} {u y : Visit}
    (hu : c.survey.visit? m = some u) (ht : u.target = some t)
    (hbelow : ∀ {n v}, (marked c m).survey.visit? n = some v → v.merged = false →
      b.survey.visit? n = some v ∨
        Relation.ReflTransGen c.Next t n ∧ PassedOn e.target c n v b)
    (hy : b.survey.visit? t = some y) (hfinished : y.merged = true)
    (hclose : Seals m ((u.body.get? "default").or
      (if e.target = .draft7 ∧ (b.survey.fragment t).has Visit.refKey = true then none
        else (b.survey.fragment t).get? "default")) b d)
    (hv : c.survey.visit? n = some v) (hwaits : v.merged = false) :
    d.survey.visit? n = some v ∨
      Relation.ReflTransGen c.Next m n ∧ PassedOn e.target c n v d := by
  have hnext : c.Next m t := ⟨u, hu, ht⟩
  have hothers := hclose.leaves.others
  by_cases hn : n = m
  · subst hn
    obtain rfl := Option.some.inj (hv.symm.trans hu)
    obtain ⟨x, hx, -, hxmerged, hdefault⟩ := hclose.visit
    refine .inr ⟨.refl, x, hx, hxmerged, fun hloop => ?_⟩
    have htn : t ≠ n := by
      rintro rfl
      exact hloop (.single hnext)
    rw [ht]
    refine ⟨y, (hothers t htn).trans hy, hfinished, fun hplain => ?_⟩
    rw [hdefault, handed_of_plain hy hplain]
  · rcases hbelow ((visit?_marked_of_ne hn).trans hv) hwaits with
      hsame | ⟨hreach, w, hw, hmerged, hpassed⟩
    · exact .inl ((hothers n hn).trans hsame)
    · refine .inr ⟨.head hnext hreach, w, (hothers n hn).trans hw, hmerged,
        fun hloop => (hpassed hloop).of_same fun k y hk hy _ => ?_⟩
      refine (hothers k ?_).trans hy
      -- else the content of the node would be passed on in a circle
      rintro rfl
      exact hloop (.head' ⟨v, hv, hk⟩ (.head hnext hreach))

/-- **Settling a node.** Visits stay tidy.  Another node that waits goes on waiting, or it is
    finished and the node passes its content on, over some steps; its default was passed then, if
    its content is not passed on in a circle. -/
theorem settle_passes (ho : ∀ o, e.override = some o → o.Sparing) (links : Nat)
    (hm : c.survey.has m = true) (htargets : ∀ {k t}, c.Next k t → c.survey.has t = true)
    (htidy : c.Every Visit.Tidy) (hlinks : c.waiting < links)
    (h : Returns (e.settle links m) c () d) :
    d.Every Visit.Tidy ∧ ∀ {n v}, c.survey.visit? n = some v → v.merged = false →
      d.survey.visit? n = some v ∨
        Relation.ReflTransGen c.Next m n ∧ PassedOn e.target c n v d := by
  induction links generalizing m c d with
  | zero => omega
  | succ links ih =>
    obtain ⟨u, hu⟩ := Survey.visit?_of_has hm
    cases hfresh : u.merged with
    | true =>
      unfold Returns at h
      rw [settle_of_merged links hu hfresh] at h
      cases h
      exact ⟨htidy, fun hv _ => .inl hv⟩
    | false =>
      -- the node is marked first, so that fewer visits wait when its target is settled
      have hmark := marked_advances c m
      have hmarked := marked_tidy htidy m
      cases ht : u.target with
      | none =>
        have hclose := settle_of_none ho hu hfresh (htidy m u hu) ht h
        refine ⟨hclose.tidy hmarked, fun {n v} hv hwaits => ?_⟩
        by_cases hn : n = m
        · subst hn
          obtain rfl := Option.some.inj (hv.symm.trans hu)
          obtain ⟨x, hx, -, hxmerged, hdefault⟩ := hclose.visit
          refine .inr ⟨.refl, x, hx, hxmerged, fun _ => ?_⟩
          rw [ht]
          exact hdefault
        · exact .inl (((hclose.leaves.others n hn).trans (visit?_marked_of_ne hn)).trans hv)
      | some t =>
        obtain ⟨b, hsettled, hclose⟩ := settle_of_some ho hu hfresh (htidy m u hu) ht h
        have hwaiting : (marked c m).waiting < links := by
          have hlt := hmark.waiting_lt (n := m) (by simp [Conversion.waits, hu, hfresh])
            (by simp [Conversion.waits, visit?_marked_self hu])
          omega
        have ht' : (marked c m).survey.has t = true := (hmark.has t).trans (htargets ⟨u, hu, ht⟩)
        obtain ⟨hb, hbelow⟩ := ih ht'
          (fun hk => by rw [hmark.next] at hk; exact (hmark.has _).trans (htargets hk))
          hmarked hwaiting hsettled
        unfold PassedOn at hbelow
        rw [hmark.next] at hbelow
        obtain ⟨links, rfl⟩ : ∃ k, links = k + 1 := ⟨links - 1, by omega⟩
        obtain ⟨y, hy⟩ := Survey.visit?_of_has ht'
        obtain ⟨y', hy', hfinished⟩ := settle_merges hy hsettled
        exact ⟨(hclose hb).tidy hb,
          passes_of_seals hu ht hbelow hy' hfinished (hclose hb)⟩

/-- **Settling one after the other.** What waited goes on waiting, or its default was passed. -/
theorem settleAll_passes (ho : ∀ o, e.override = some o → o.Sparing) {links : Nat}
    (htargets : ∀ {k t}, c.Next k t → c.survey.has t = true) {ns : List NodeId} {b : Conversion}
    (hns : ∀ n ∈ ns, b.survey.has n = true) (hlinks : b.waiting < links) (hb : Advances c b)
    (htidy : b.Every Visit.Tidy) (h : Returns (e.settleAll links ns) b () d) :
    d.Every Visit.Tidy ∧ ∀ {n v}, v.merged = false →
      b.survey.visit? n = some v ∨ PassedOn e.target c n v b →
      d.survey.visit? n = some v ∨ PassedOn e.target c n v d := by
  induction ns generalizing b with
  | nil =>
    obtain ⟨-, rfl⟩ := returns_pure.mp h
    exact ⟨htidy, fun _ hb => hb⟩
  | cons m rest ih =>
    obtain ⟨hm, hrest⟩ := List.forall_mem_cons.mp hns
    obtain ⟨_, b', hfirst, hrun⟩ := returns_bind.mp h
    have hstep := (settle_advances (e := e) links m).of_returns hfirst
    obtain ⟨htidy', hpasses⟩ := settle_passes ho links hm
      (fun hk => by rw [hb.next] at hk; exact (hb.has _).trans (htargets hk))
      htidy hlinks hfirst
    obtain ⟨hd, hlater⟩ := ih (fun n hn => (hstep.has n).trans (hrest n hn))
      (lt_of_le_of_lt hstep.waiting_le hlinks) (hb.trans hstep) htidy' hrun
    refine ⟨hd, fun {n v} hwaits hcases => hlater hwaits ?_⟩
    rcases hcases with hsame | hpassed
    -- What waited before this node waits still, or was finished with it.
    · have hpasses := hpasses hsame hwaits
      unfold PassedOn at hpasses
      rw [hb.next] at hpasses
      exact hpasses.imp_right fun ⟨_, hpassed⟩ => hpassed
    · exact .inr (hpassed.advances hstep)

/-- **Settling.** When everything is settled, visits are tidy, and each visit that was waiting is
    finished; its default was passed, if its content is not passed on in a circle. -/
theorem settleVisits_passes (ho : ∀ o, e.override = some o → o.Sparing)
    (htargets : ∀ {k t}, c.Next k t → c.survey.has t = true) (htidy : c.Every Visit.Tidy)
    (h : Returns e.settleVisits c () d) :
    d.Every Visit.Tidy ∧ ∀ {n v}, c.survey.visit? n = some v → v.merged = false →
      PassedOn e.target c n v d := by
  have hlinks : c.waiting < c.survey.size + 1 := Nat.lt_succ_of_le c.waiting_le_size
  obtain ⟨_, _, hget, hrun⟩ := returns_bind.mp h
  obtain ⟨rfl, rfl⟩ := returns_get.mp hget
  obtain ⟨hd, hpasses⟩ := settleAll_passes ho htargets
    (fun n hn => (Survey.has_iff _ _).mpr (List.mem_reverse.mp hn)) hlinks (.of_survey rfl) htidy
    hrun
  refine ⟨hd, fun {n v} hv hwaits => (hpasses hwaits (.inl hv)).resolve_left fun hsame => ?_⟩
  rw [settleVisits_merges h hsame] at hwaits
  cases hwaits

end Emission

/-! ### Defaults told by the store -/

/-- A visit that is as far as before and has the same body; it may have become a definition. -/
structure Visit.Lasts (v w : Visit) : Prop where
  target : w.target = v.target
  merged : w.merged = v.merged
  body : w.body = v.body
  defined : v.definition.isSome → w.definition.isSome

/-- What is not a definition was none, and has the same fragment. -/
theorem Visit.Lasts.plain {v w : Visit} (h : v.Lasts w) (hw : w.definition = none) :
    v.definition = none ∧ w.fragment = v.fragment := by
  have hv : v.definition = none := by
    cases hd : v.definition with
    | none => rfl
    | some body =>
      have hsome := h.defined (hd ▸ rfl)
      rw [hw] at hsome
      cases hsome
  have hbody := h.body
  unfold Visit.body at hbody
  rw [hw, hv] at hbody
  exact ⟨hv, hbody⟩

namespace Conversion

variable {guide : Guide} {c d : Conversion} {n m : NodeId}

/-- The store has grown, and what was visited is as far as before. -/
structure Lasts (c d : Conversion) : Prop where
  store : Store.Grows c.store d.store
  visits : ∀ {n v}, c.survey.visit? n = some v → ∃ w, d.survey.visit? n = some w ∧ v.Lasts w

/-- What was passed on is passed on. -/
theorem Lasts.next (h : Lasts c d) (hn : c.Next n m) : d.Next n m := by
  obtain ⟨v, hv, hm⟩ := hn
  obtain ⟨w, hw, hvw⟩ := h.visits hv
  exact ⟨w, hw, hvw.target.trans hm⟩

/-- A default that was passed on lasts as long as the bodies do. -/
theorem Passed.lasts {target : Target} {own : Option Value} {t : Option NodeId} {v w : Visit}
    (h : Passed target c own t v) (hd : Lasts c d) (hbody : w.body = v.body) :
    Passed target d own t w := by
  unfold Passed at h ⊢
  rw [hbody]
  cases t with
  | none => exact h
  | some t =>
    obtain ⟨u, hu, hmerged, hdefault⟩ := h
    obtain ⟨x, hx, hux⟩ := hd.visits hu
    refine ⟨x, hx, hux.merged.trans hmerged, fun hplain => ?_⟩
    obtain ⟨hplain, hfragment⟩ := hux.plain hplain
    have hhanded : x.handed target = u.handed target := by
      unfold Visit.handed Visit.isReference
      rw [hfragment, hux.body]
    rw [hhanded]
    exact hdefault hplain

/-- The default of every visited node is told by the store: a visit that waits has the one that its
    node contributes, and to a finished one the default of its target was passed. -/
structure Tells (guide : Guide) (c : Conversion) : Prop where
  kempt : c.Kempt
  visits : ∀ {n v}, c.survey.visit? n = some v → ∃ links w,
    c.store.contents? guide links n = some w ∧ w.target = v.target ∧
      (v.merged = false → v.body.get? "default" = w.fragment.get? "default") ∧
      (v.merged = true → ¬ Relation.TransGen c.Next n n →
        Passed guide.settings.target c (w.fragment.get? "default") v.target v)

namespace Tells

/-- Content is passed on as the store says. -/
theorem passes (h : c.Tells guide) (hn : c.Next n m) : c.store.Passes guide.settings.side n m := by
  obtain ⟨v, hv, hm⟩ := hn
  obtain ⟨links, w, hw, htarget, -⟩ := h.visits hv
  exact Store.passes_of_contents? hw (htarget.trans hm)

/-- Nodes whose content is passed on were visited. -/
theorem targets (h : c.Tells guide) (hc : c.Charted guide.settings.side) (hn : c.Next n m) :
    c.survey.has m = true := by
  obtain ⟨lead, hlead, hm⟩ := (h.passes hn).edge
  obtain ⟨v, hv, -⟩ := hn
  obtain ⟨k, hk, hhas⟩ := hc.leads (Survey.has_of_visit? hv) lead hlead
  rw [Option.some.inj (hm.symm.trans hk)]
  exact hhas

/-- What is visited later waits, and has the content of its node. -/
theorem lasts (h : c.Tells guide) (hs : c.store.Closed) (hd : Lasts c d) (hkempt : d.Kempt)
    (hnew : ∀ {n v}, c.survey.visit? n = none → d.survey.visit? n = some v → v.merged = false ∧
      ∃ links w, d.store.contents? guide links n = some w ∧ w.target = v.target ∧
        v.body.get? "default" = w.fragment.get? "default") : d.Tells guide := by
  refine ⟨hkempt, fun {n v} hv => ?_⟩
  -- Either `n` is new, and waits, or it was told about before.
  cases hold : c.survey.visit? n with
  | none =>
    obtain ⟨hwaits, links, w, hw, htarget, hdefault⟩ := hnew hold hv
    refine ⟨links, w, hw, htarget, fun _ => hdefault, fun hmerged => ?_⟩
    rw [hwaits] at hmerged
    cases hmerged
  | some u =>
    obtain ⟨links, w, hw, htarget, hwaits, hmerged⟩ := h.visits hold
    obtain ⟨v', hv', huv⟩ := hd.visits hold
    obtain rfl := Option.some.inj (hv.symm.trans hv')
    refine ⟨links, w, Store.contents?_mono hd.store hs (Nat.le_refl links) hw,
      htarget.trans huv.target.symm, fun hv => ?_, fun hv hloop => ?_⟩
    · rw [huv.body]
      exact hwaits (huv.merged.symm.trans hv)
    -- A circle before would be one behind.
    · have hback : ¬ Relation.TransGen c.Next n n :=
        fun hold => hloop (hold.lift id fun _ _ => hd.next)
      rw [huv.target]
      exact (hmerged (huv.merged.symm.trans hv) hback).lasts hd huv.body

/-- At the start there is no visit that could tell of a default. -/
theorem start (store : Store) : (start store).Tells guide where
  kempt := Converter.Desk.kempt_start store
  visits hv := by cases hv

/-- Descents tell the defaults of what they visit. -/
theorem explores (h : c.Tells guide) (hs : c.store.Closed) (hd : Explores guide [] [] c d)
    (htidy : Upholds Visit.Tidy c d) : d.Tells guide := by
  -- Visits that stood before keep their contents; only counts and marks of cycles move.
  have hvisits : ∀ {n v}, c.survey.visit? n = some v →
      ∃ w, d.survey.visit? n = some w ∧ v.Lasts w := by
    intro n v hv
    obtain ⟨w, hw, hstage, -, hcontent⟩ := hd.descends.visits hv
    have hcontent := hcontent List.not_mem_nil
    have hdefinition : w.definition = v.definition := congrArg (·.1) hstage
    have hfragment : w.fragment = v.fragment := congrArg (·.1) hcontent
    refine ⟨w, hw, congrArg (·.2.1) hcontent, congrArg (·.2.2) hstage, ?_, fun hv => ?_⟩
    · unfold Visit.body
      rw [hdefinition, hfragment]
    · rw [hdefinition]
      exact hv
  refine h.lasts hs ⟨(hd.descends.store hs).1, hvisits⟩ (hd.descends.upkeeps htidy h.kempt).1
    fun {n v} hold hv => ?_
  have hstage := hd.descends.entered hold hv
  have hfresh : c.survey.has n = false := by simp [Survey.has, hold]
  obtain ⟨links, w, hw, hcontent⟩ := hd.contents hfresh hv
  refine ⟨congrArg (·.2.2) hstage, links, w, hw, congrArg (·.2.1) hcontent, ?_⟩
  have hdefinition : v.definition = none := congrArg (·.1) hstage
  have hfragment : w.fragment = v.fragment := congrArg (·.1) hcontent
  unfold Visit.body
  rw [hdefinition, hfragment]
  rfl

/-- The same visits are told by a store that has grown. -/
theorem of_visits (h : c.Tells guide) (hs : c.store.Closed) (hstore : Store.Keeps c.store d.store)
    (hnumber : d.survey.number = c.survey.number)
    (hvisits : ∀ n, d.survey.visit? n = c.survey.visit? n) : d.Tells guide := by
  refine h.lasts hs ⟨(hstore hs).1, fun {n v} hv => ⟨v, (hvisits n).trans hv, rfl, rfl, rfl, id⟩⟩
    (Upkeeps.of_visits hstore hnumber hvisits h.kempt).1 fun {n v} hold hv => ?_
  rw [hvisits, hold] at hv
  cases hv

/-- Making definitions leaves all defaults. -/
theorem hoists {e : Emission} (h : c.Tells guide) (hs : c.store.Closed) (hd : Hoists e c d) :
    d.Tells guide := by
  refine h.lasts hs ⟨hd.rewrites.grows, fun {n v} hv => ?_⟩ (hd.upkeeps h.kempt).1
    fun {n v} hold hv => ?_
  · obtain ⟨w, hw, hbody, hmerged, htarget, hdefined⟩ := hd.body h.kempt hv
    exact ⟨w, hw, htarget, hmerged, hbody, fun hv => by rw [hdefined hv]; exact hv⟩
  · rw [visit?_none hd.rewrites.order hold] at hv
    cases hv

/-- Settling passes defaults on. -/
theorem settles {e : Emission} (h : c.Tells guide) (hs : c.store.Closed)
    (hc : c.Charted guide.settings.side) (ho : ∀ o, e.override = some o → o.Sparing)
    (htarget : e.target = guide.settings.target) (hd : Returns e.settleVisits c () d) :
    d.Tells guide := by
  have hpersists : Persists c d := bears_persists.settleVisits.of_returns hd
  have hadvances : Advances c d := settleVisits_advances.of_returns hd
  obtain ⟨htidy, hpasses⟩ := settleVisits_passes ho (fun hn => h.targets hc hn) h.kempt.tidy hd
  have hbare : c.Bare := h.kempt.bare
  refine ⟨⟨htidy, hbare.persists hpersists⟩, fun {n w} hw => ?_⟩
  obtain ⟨v, hv, -⟩ := hpersists.back hw
  obtain ⟨links, x, hx, hxtarget, hwaits, hmerged⟩ := h.visits hv
  have hx := Store.contents?_mono hpersists.store hs (Nat.le_refl links) hx
  -- Either the visit was finished by an earlier emission and stays, or it is finished now.
  cases hfresh : v.merged with
  | true =>
    obtain rfl := Option.some.inj (hw.symm.trans (hadvances.finished hv hfresh))
    refine ⟨links, x, hx, hxtarget, fun hw => ?_, fun _ hloop => ?_⟩
    · rw [hfresh] at hw
      cases hw
    · rw [hadvances.next] at hloop
      exact (hmerged hfresh hloop).advances hadvances
  | false =>
    obtain ⟨w', hw', hdone, hpassed⟩ := hpasses hv hfresh
    obtain rfl := Option.some.inj (hw.symm.trans hw')
    obtain ⟨w', hw', hcases⟩ := hadvances.visits hv
    obtain rfl := Option.some.inj (hw.symm.trans hw')
    have hsame : w.target = v.target := by
      rcases hcases with rfl | ⟨-, -, hsame⟩
      · rfl
      · exact hsame
    refine ⟨links, x, hx, hxtarget.trans hsame.symm, fun hw => ?_, fun _ hloop => ?_⟩
    · rw [hdone] at hw
      cases hw
    · rw [hadvances.next] at hloop
      rw [hsame, ← hwaits hfresh, ← htarget]
      exact hpassed hloop

/-- **Emissions.** Behind an emission that succeeds all defaults are told by the store, and all
    visits are finished. -/
theorem document {e : Emission} {json : Json} (h : c.Tells guide)
    (hc : c.Charted guide.settings.side) (ho : ∀ o, e.override = some o → o.Sparing)
    (htarget : e.target = guide.settings.target) (hd : Returns e.document c json d) :
    d.Tells guide ∧ ∀ {n v}, d.survey.visit? n = some v → v.merged = true := by
  obtain ⟨entries, f, -, hcompose, -, hrewrites, hsurvey⟩ := document_returns hd
  -- addresses are claimed, definitions made, visits settled, and definitions listed
  obtain ⟨a, g, hclaim, hrun, hlist⟩ := compose_returns hcompose
  obtain ⟨_, b, hhoist, hsettle⟩ := returns_bind.mp hrun
  obtain ⟨hclaims, hvisits⟩ := claim_returns hclaim
  have ha : a.Tells guide := h.of_visits hc.closed (fun hs => ⟨hclaims.grows, hclaims.closed hs⟩)
    hclaims.number fun n => Survey.visit?_of_visits hvisits n
  have hacharted : a.Charted guide.settings.side := by
    refine hc.of_outlines (hclaims.outlines fun n => ?_)
    rw [Survey.visit?_of_visits hvisits n]
  have hhoists : Hoists e a b := (hoist_hoists a).of_returns hhoist |>.1
  have hb : b.Tells guide := ha.hoists hacharted.closed hhoists
  have hbcharted := hacharted.of_outlines hhoists.outlines
  have hg : g.Tells guide := hb.settles hbcharted.closed hbcharted ho htarget hsettle
  have hgclosed := (bears_outlines.settleVisits.of_returns hsettle).closed hbcharted.closed
  obtain ⟨-, rfl, -⟩ := listDefinitions_returns hlist
  refine ⟨hg.of_visits hgclosed (fun hs => ⟨hrewrites.grows, hrewrites.closed hs⟩) hrewrites.number
    fun n => by rw [hsurvey], fun {n v} hv => ?_⟩
  rw [hsurvey] at hv
  exact settleVisits_merges hsettle hv

end Tells

/-! ### Chains -/

/-- Nothing but a reference is taken over from the node: it has one of its own, and the dialect
    ignores all keywords beside it. -/
def screens (target : Target) (c : Conversion) (n : NodeId) : Bool :=
  target = .draft7 && (c.survey.fragment n).has Visit.refKey

/-- The nodes of a chain that count for its first one: it and those behind it, up to the first one
    that is screened. -/
def unscreened (target : Target) (c : Conversion) : List NodeId → List NodeId
  | [] => []
  | n :: below => n :: below.takeWhile fun m => !c.screens target m

/-- A target hands on its default unless a reference screens it. -/
theorem handed_eq {target : Target} {u : Visit} (hu : c.survey.visit? n = some u) :
    u.handed target
      = if c.screens target n = true then none else (c.survey.body n).get? "default" := by
  unfold Visit.handed screens Survey.fragment Survey.body Visit.isReference
  rw [hu]
  simp

section Chains

variable (h : c.Tells guide) (hfinished : ∀ {n v}, c.survey.visit? n = some v → v.merged = true)
include h hfinished

/-- A node that passes nothing on has the default that it supplies. -/
theorem Tells.default_end (hn : c.survey.has n = true)
    (hend : ∀ m, ¬ c.store.Passes guide.settings.side n m) (hnull : ¬ c.store.Contested guide n) :
    (c.survey.body n).get? "default" = c.store.suppliedDefault guide n := by
  obtain ⟨v, hv⟩ := Survey.visit?_of_has hn
  obtain ⟨links, w, hw, htarget, -, hpassed⟩ := h.visits hv
  have hnone : v.target = none := by
    cases ht : v.target with
    | none => rfl
    | some t => exact absurd (h.passes ⟨v, hv, ht⟩) (hend t)
  have hpassed := hpassed (hfinished hv) fun hloop => by
    obtain ⟨m, hm, -⟩ := Relation.TransGen.head'_iff.mp hloop
    exact hend m (h.passes hm)
  rw [hnone] at hpassed
  unfold Survey.body
  rw [hv, ← Store.contents?_default hw hnull]
  exact hpassed

/-- A node that passes content on has the default that it supplies, or else that of the next node,
    unless that is screened. -/
theorem Tells.default_step (hn : c.survey.has n = true)
    (hnext : c.store.Passes guide.settings.side n m)
    (hloop : ¬ Relation.TransGen (c.store.Passes guide.settings.side) n n)
    (hplain : c.survey.defines m = false) (hnull : ¬ c.store.Contested guide n) :
    c.survey.has m = true ∧ (c.survey.body n).get? "default"
      = (c.store.suppliedDefault guide n).or (if c.screens guide.settings.target m = true then none
          else (c.survey.body m).get? "default") := by
  obtain ⟨v, hv⟩ := Survey.visit?_of_has hn
  obtain ⟨links, w, hw, htarget, -, hpassed⟩ := h.visits hv
  have hpassed := hpassed (hfinished hv) fun hcircle => hloop (hcircle.lift id fun _ _ => h.passes)
  rw [← htarget, hnext.target hw] at hpassed
  obtain ⟨u, hu, -, hdefault⟩ := hpassed
  have hplain : u.definition = none := by
    unfold Survey.defines at hplain
    rw [hu] at hplain
    simpa using hplain
  refine ⟨Survey.has_of_visit? hu, ?_⟩
  rw [← handed_eq hu, ← Store.contents?_default hw hnull]
  unfold Survey.body
  rw [hv]
  exact hdefault hplain

/-- **Chains.** When all visits are finished, the first node of a chain has the default of the first
    node that supplies one, of those that count. -/
theorem Tells.chain {below : List NodeId} (hn : c.survey.has n = true)
    (hchain : List.IsChain (c.store.Passes guide.settings.side) (n :: below))
    (hend : ∀ m, ¬ c.store.Passes guide.settings.side
      ((n :: below).getLast (List.cons_ne_nil n below)) m)
    (hplain : ∀ m ∈ below, c.survey.defines m = false)
    (hnull : ∀ m, (c.unscreened guide.settings.target (n :: below)).find?
      (fun k => (c.store.suppliedDefault guide k).isSome) = some m → ¬ c.store.Contested guide m) :
    (c.survey.body n).get? "default"
      = (c.unscreened guide.settings.target (n :: below)).findSome?
          (c.store.suppliedDefault guide) := by
  -- a node that is contested supplies a default, so that it is the first one
  have hown : ¬ c.store.Contested guide n := fun hcontested =>
    hnull n (List.find?_cons_of_pos (by rw [hcontested.supplied]; rfl)) hcontested
  induction below generalizing n with
  | nil =>
    rw [h.default_end hfinished hn hend hown]
    simp [unscreened]
  | cons m rest ih =>
    obtain ⟨hnext, hrest⟩ := List.isChain_cons_cons.mp hchain
    obtain ⟨hplain, hplains⟩ := List.forall_mem_cons.mp hplain
    obtain ⟨hm, hdefault⟩ := h.default_step hfinished hn hnext (Store.not_circular hchain hend)
      hplain hown
    rw [hdefault]
    unfold unscreened at hnull ⊢
    rw [List.findSome?_cons]
    cases hsupplied : c.store.suppliedDefault guide n with
    | some x => rfl
    | none =>
      rw [List.find?_cons_of_neg (by rw [hsupplied]; nofun), List.takeWhile_cons] at hnull
      rw [List.takeWhile_cons, Option.none_or]
      cases hscreens : c.screens guide.settings.target m with
      | true => rfl
      | false =>
        rw [hscreens] at hnull
        refine ih hm hrest hend hplains hnull fun hcontested => ?_
        exact hnull m (List.find?_cons_of_pos (by rw [hcontested.supplied]; rfl)) hcontested

end Chains

end Conversion

namespace Converter

/-! ### Courses -/

/-- The conversions that a session leads to in which every call returns.  Roots are visited and
    documents emitted in any order, with any policy, and with addresses of their own or none. -/
inductive Course (conv : Converter) (store : Store) : Conversion → Prop
  | start : Course conv store (start store)
  | process {c d : Conversion} (root : NodeId) (h : Course conv store c)
      (hd : Returns (conv.process root) c () d) : Course conv store d
  | emit {c d : Conversion} {json : Json} (linkage : Option Linkage) (policy : EmissionSettings)
      (root : NodeId) (h : Course conv store c)
      (hd : Returns (conv.emit policy root) { c with linkage } json d) : Course conv store d

namespace Course

variable {conv : Converter} {store : Store} {c d : Conversion}

/-- What a course leads to, a session leads to. -/
theorem session (h : Course conv store c) : Session conv store c := by
  induction h with
  | start => exact .start
  | process root _ hd ih => exact .process root ih hd
  | @emit c d json linkage policy root _ hd ih =>
    have hstate : (conv.emit policy root { c with linkage }).2 = d := congrArg (·.2) hd
    exact hstate ▸ .emit linkage policy root ih

/-- Behind an emission that succeeds all defaults are told by the store, and all visits are
    finished. -/
theorem tells_emit (ho : ∀ o, conv.override = some o → o.Sparing) (h : c.Tells conv.guide)
    (hc : c.Charted conv.guide.settings.side) {linkage : Option Linkage}
    {policy : EmissionSettings} {root : NodeId} {json : Json}
    (hd : Returns (conv.emit policy root) { c with linkage } json d) :
    d.Tells conv.guide ∧ ∀ {n v}, d.survey.visit? n = some v → v.merged = true := by
  have hlinked : Outlines c { c with linkage } := { }
  have htells : ({ c with linkage } : Conversion).Tells conv.guide :=
    h.of_visits hc.closed (.refl _) rfl fun _ => rfl
  exact htells.document (hc.of_outlines hlinked) ho rfl hd

/-- **Courses.** All the time the default of every visited node is told by the store. -/
theorem tells (hs : store.Closed) (ho : ∀ o, conv.override = some o → o.Sparing)
    (h : Course conv store c) : c.Tells conv.guide := by
  induction h with
  | start => exact .start store
  | @process c d root h hd ih =>
    have hclosed := (h.session.charted hs).closed
    have htidy : Within (Upholds Visit.Tidy) (conv.process root) :=
      .bind (visit_upholds Visit.Tidy.upheld root [] []) fun _ =>
        .bind within_get fun _ => onStore_upholds _
    exact ih.explores hclosed (process_explores hclosed hd).1 (htidy.of_returns hd)
  | emit linkage policy root h hd ih => exact (tells_emit ho ih (h.session.charted hs) hd).1

/-- **The outermost default wins.** Behind an emission the first node of a chain has the default of
    the first node that supplies one, or else none.  The nodes may have any annotations; but where
    the first node that supplies a default has one that says `null`, no value stands in for an
    absent one.  No node behind the first one is a definition, and an override leaves defaults
    alone.  Where the dialect ignores all keywords beside a reference, the chain counts up to the
    first node behind its first one that has a reference of its own. -/
theorem outermost_default (hs : store.Closed) (ho : ∀ o, conv.override = some o → o.Sparing)
    (h : Course conv store c) (linkage : Option Linkage) (policy : EmissionSettings)
    (root : NodeId) {json : Json} (hd : Returns (conv.emit policy root) { c with linkage } json d)
    {outer : NodeId} {below : List NodeId} (hvisited : d.survey.has outer = true)
    (hchain : List.IsChain (d.store.Passes conv.guide.settings.side) (outer :: below))
    (hbase : ∀ m, ¬ d.store.Passes conv.guide.settings.side
      ((outer :: below).getLast (List.cons_ne_nil outer below)) m)
    (hplain : ∀ m ∈ below, d.survey.defines m = false)
    (hnull : ∀ m, (d.unscreened conv.guide.settings.target (outer :: below)).find?
      (fun k => (d.store.suppliedDefault conv.guide k).isSome) = some m →
        ¬ d.store.Contested conv.guide m) :
    (d.survey.body outer).get? "default"
      = (d.unscreened conv.guide.settings.target (outer :: below)).findSome?
          (d.store.suppliedDefault conv.guide) := by
  obtain ⟨htells, hfinished⟩ := tells_emit ho (h.tells hs ho) (h.session.charted hs) hd
  exact htells.chain hfinished hvisited hchain hbase hplain hnull

/-- A text, as a default whose annotation says `null`, with a value that stands in for a default, a
    clone of that, and that as an optional one; and a list of them. -/
def wrappedText : Store where
  nodes := [{ kind := .string }, { kind := .default, inner := .node 0, defaultValue := .str "d" },
    { kind := .prefault, inner := .node 1, defaultValue := .str "p" },
    { kind := .prefault, inner := .node 1, defaultValue := .str "p", parent := .node 2 },
    { kind := .optional, inner := .node 3 }, { kind := .array, element := .node 4 }]
  catalogs := [("global", { entries := [(.node 1, [(.str "default", .null)])] })]

/-- A converter for the input side. -/
def inward : Converter := { guide := { settings := { side := .input } } }

/-- A converter for the input side, with an override that sets titles. -/
def titlingInward : Converter := { inward with override := some Desk.titled }

/-- What becomes of a store when a root is visited and its document is emitted. -/
def emitted (conv : Converter) (store : Store) (root : NodeId) : Except Failure Json × Conversion :=
  conv.emit {} root { (conv.process root (Conversion.start store)).2 with linkage := none }

/-- An emission that succeeds returns a document. -/
theorem returns_emitted {conv : Converter} {store : Store} {root : NodeId}
    (h : (emitted conv store root).1.isOk = true) : ∃ json, Returns (conv.emit {} root)
      { (conv.process root (Conversion.start store)).2 with linkage := none } json
      (emitted conv store root).2 := by
  cases hjson : (emitted conv store root).1 with
  | error f =>
    rw [hjson] at h
    cases h
  | ok json => exact ⟨json, Prod.ext hjson rfl⟩

/-- On the input side the optional text has the value that stands in for a default. -/
theorem outermost_default_wrappedText :
    wrappedText.Closed ∧ Desk.titled.Sparing ∧
      (emitted titlingInward wrappedText (.node 5)).1.isOk = true ∧
      ((emitted titlingInward wrappedText (.node 5)).2.survey.body (.node 4)).get? "default"
        = some (.str "p") := by
  have hs : wrappedText.Closed := .of_forall (by decide) (by decide) nofun
  have hsparing : Desk.titled.Sparing := fun s n body hbody =>
    ⟨hbody.set _ _, Entries.get?_set_of_ne (by decide) _ _⟩
  have hok : (emitted titlingInward wrappedText (.node 5)).1.isOk = true := by decide +kernel
  refine ⟨hs, hsparing, hok, ?_⟩
  have hprocess : Returns (titlingInward.process (.node 5)) (Conversion.start wrappedText) ()
      (titlingInward.process (.node 5) (Conversion.start wrappedText)).2 := rfl
  obtain ⟨json, hemit⟩ := returns_emitted hok
  have hvisited :
      (emitted titlingInward wrappedText (.node 5)).2.survey.has (.node 4) = true := by
    decide +kernel
  have hchain : List.IsChain ((emitted titlingInward wrappedText (.node 5)).2.store.Passes .input)
      [.node 4, .node 3, .node 2, .node 1, .node 0] := by
    decide +kernel
  have hend : (emitted titlingInward wrappedText (.node 5)).2.store.next? .input (.node 0)
      = none := by
    decide +kernel
  have hplain : ∀ m ∈ [NodeId.node 3, .node 2, .node 1, .node 0],
      (emitted titlingInward wrappedText (.node 5)).2.survey.defines m = false := by
    decide +kernel
  have hfound : ((emitted titlingInward wrappedText (.node 5)).2.unscreened .draft2020
      [.node 4, .node 3, .node 2, .node 1, .node 0]).find? (fun k =>
        ((emitted titlingInward wrappedText (.node 5)).2.store.suppliedDefault titlingInward.guide
          k).isSome) = some (.node 2) := by
    decide +kernel
  have huncontested :
      ¬ (emitted titlingInward wrappedText (.node 5)).2.store.Contested titlingInward.guide
        (.node 2) := by
    decide +kernel
  have hfirst : ((emitted titlingInward wrappedText (.node 5)).2.unscreened .draft2020
      [.node 4, .node 3, .node 2, .node 1, .node 0]).findSome?
        ((emitted titlingInward wrappedText (.node 5)).2.store.suppliedDefault titlingInward.guide)
      = some (.str "p") := by
    decide +kernel
  have ho : ∀ o, titlingInward.override = some o → o.Sparing := fun o ho => by
    obtain rfl := Option.some.inj ho
    exact hsparing
  -- The concrete conversions are forgotten from here on, so that nothing evaluates them again.
  generalize (titlingInward.process (.node 5) (Conversion.start wrappedText)).2 = c
    at hprocess hemit
  generalize (emitted titlingInward wrappedText (.node 5)).2 = d at *
  have hcourse : Course titlingInward wrappedText c := .process (.node 5) .start hprocess
  refine (outermost_default hs ho hcourse none {} (.node 5) hemit hvisited hchain (fun m hm => ?_)
    hplain fun m hm => ?_).trans hfirst
  · have hm : d.store.next? .input (.node 0) = some m := Store.passes_iff.mp hm
    rw [hend] at hm
    cases hm
  · obtain rfl := Option.some.inj (hfound.symm.trans hm)
    exact huncontested

/-- A text that is read only and refers to another place, with a default, and that as an optional
    one; and a list of them. -/
def citingText : Store where
  nodes := [{ kind := .string }, { kind := .readonly, inner := .node 0 },
    { kind := .optional, inner := .node 1 }, { kind := .array, element := .node 2 }]
  catalogs := [("global",
    { entries := [(.node 1, [(.str "$ref", .str "#/x"), (.str "default", .str "d")])] })]

/-- A text with a value that stands in for a default, and with an annotation that says that the
    default is `null`; and a list of them. -/
def contestedText : Store where
  nodes := [{ kind := .string }, { kind := .prefault, inner := .node 0, defaultValue := .str "p" },
    { kind := .array, element := .node 1 }]
  catalogs := [("global", { entries := [(.node 1, [(.str "default", .null)])] })]

/-- Not every default that is supplied first is the one that a chain has.  In the dialect that
    ignores all keywords beside a reference, none is taken over from what refers to another place;
    and on the input side the value that stands in for a default replaces one that is annotated as
    `null`.  No node of the two chains is a definition. -/
theorem outermost_default_replaced :
    (let result := (emitted Desk.older citingText (.node 3)).1
      let d := (emitted Desk.older citingText (.node 3)).2
      result.isOk = true ∧ List.IsChain (d.store.Passes .output) [.node 2, .node 1, .node 0] ∧
        d.store.next? .output (.node 0) = none ∧
        (∀ m ∈ [NodeId.node 2, .node 1, .node 0],
          d.survey.has m = true ∧ d.survey.defines m = false) ∧
        [NodeId.node 2, .node 1, .node 0].findSome? (d.store.suppliedDefault Desk.older.guide)
          = some (.str "d") ∧
        (d.survey.body (.node 2)).get? "default" = none) ∧
    (let result := (emitted inward contestedText (.node 2)).1
      let d := (emitted inward contestedText (.node 2)).2
      result.isOk = true ∧ List.IsChain (d.store.Passes .input) [.node 1, .node 0] ∧
        d.store.next? .input (.node 0) = none ∧
        (∀ m ∈ [NodeId.node 1, .node 0], d.survey.has m = true ∧ d.survey.defines m = false) ∧
        [NodeId.node 1, .node 0].findSome? (d.store.suppliedDefault inward.guide) = some .null ∧
        (d.survey.body (.node 1)).get? "default" = some (.str "p")) := by
  decide +kernel

end Course

end Converter

end SchemaGraph
