import SchemaGraph.Proofs.Document.Persistence

namespace SchemaGraph

open SchemaGraph.Action Conversion

/-!
# How settling advances

Settling may go on where an earlier document has left off, with some visits finished and others
still waiting.  Finished visits stay as they are.  A visit that waits is finished once, and then
holds its own keywords and those in the fragment of its target, which is finished before it unless
content is passed on in a circle.

* `Conversion.Advances`  — finished visits are the same, and waiting ones may be finished
* `Emission.settleVisits_links` — settling ends
* `Emission.Taken`       — a visit that was finished
* `Emission.Fulfilled`   — a visit that was finished behind its target
* `Emission.settleVisits_fulfils` — in the end a waiting visit is finished
-/

namespace Conversion

/-- A node that was not visited is still not visited. -/
theorem visit?_none {c d : Conversion} {n : NodeId} (h : d.survey.order = c.survey.order)
    (hn : c.survey.visit? n = none) : d.survey.visit? n = none := by
  have hhas : d.survey.has n = c.survey.has n := by
    rw [Bool.eq_iff_iff, Survey.has_iff, Survey.has_iff, h]
  unfold Survey.has at hhas
  rw [hn] at hhas
  exact Option.isNone_iff_eq_none.mp (Option.isSome_eq_false_iff.mp hhas)

/-- Finished visits are the same; the others are the same or finished, with the same targets. -/
structure Advances (c c' : Conversion) : Prop where
  order : c'.survey.order = c.survey.order := by rfl
  visits : ∀ {n v}, c.survey.visit? n = some v → ∃ w, c'.survey.visit? n = some w ∧
    (w = v ∨ v.merged = false ∧ w.merged = true ∧ w.target = v.target)

namespace Advances

variable {c d f : Conversion}

/-- Whatever leaves the survey alone advances. -/
theorem of_survey (h : d.survey = c.survey) : Advances c d where
  order := by rw [h]
  visits hv := ⟨_, by rw [h]; exact hv, .inl rfl⟩

/-- Two advances are one. -/
theorem trans (h₁ : Advances c d) (h₂ : Advances d f) : Advances c f where
  order := h₂.order.trans h₁.order
  visits hv := by
    obtain ⟨w, hw, rfl | ⟨hwaits, hmerged, htarget⟩⟩ := h₁.visits hv
    · exact h₂.visits hw
    · obtain ⟨x, hx, rfl | ⟨hwaits', -⟩⟩ := h₂.visits hw
      · exact ⟨x, hx, .inr ⟨hwaits, hmerged, htarget⟩⟩
      · rw [hmerged] at hwaits'
        cases hwaits'

instance : Std.Refl Advances := ⟨fun _ => of_survey rfl⟩

instance : Trans Advances Advances Advances := ⟨trans⟩

/-- The same nodes were visited. -/
theorem has (h : Advances c d) (n : NodeId) : d.survey.has n = c.survey.has n := by
  rw [Bool.eq_iff_iff, Survey.has_iff, Survey.has_iff, h.order]

/-- A node that is not visited stays so. -/
theorem unvisited (h : Advances c d) {n : NodeId} (hn : c.survey.visit? n = none) :
    d.survey.visit? n = none :=
  visit?_none h.order hn

/-- A finished visit stays as it is. -/
theorem finished (h : Advances c d) {n : NodeId} {v : Visit} (hv : c.survey.visit? n = some v)
    (hmerged : v.merged = true) : d.survey.visit? n = some v := by
  obtain ⟨w, hw, rfl | ⟨hwaits, -⟩⟩ := h.visits hv
  · exact hw
  · rw [hmerged] at hwaits
    cases hwaits

/-- The same content is passed on. -/
theorem next (h : Advances c d) : d.Next = c.Next := by
  funext n m
  refine propext ⟨?_, ?_⟩
  · rintro ⟨w, hw, hm⟩
    obtain ⟨v, hv⟩ := Survey.visit?_of_has ((h.has n).symm.trans (Survey.has_of_visit? hw))
    obtain ⟨w', hw', hcases⟩ := h.visits hv
    obtain rfl := Option.some.inj (hw.symm.trans hw')
    refine ⟨v, hv, ?_⟩
    -- A visit that was finished in between has kept its target.
    rcases hcases with rfl | ⟨-, -, htarget⟩
    · exact hm
    · rw [← htarget]
      exact hm
  · rintro ⟨v, hv, hm⟩
    obtain ⟨w, hw, hcases⟩ := h.visits hv
    refine ⟨w, hw, ?_⟩
    rcases hcases with rfl | ⟨-, -, htarget⟩
    · exact hm
    · rw [htarget]
      exact hm

/-- What waits behind has waited before. -/
theorem waits (h : Advances c d) {n : NodeId} (hn : d.waits n = true) : c.waits n = true := by
  unfold Conversion.waits at hn ⊢
  cases hv : c.survey.visit? n with
  | none =>
    rw [h.unvisited hv] at hn
    cases hn
  | some v =>
    cases hmerged : v.merged with
    | false => simp [hmerged]
    | true =>
      rw [h.finished hv hmerged] at hn
      simp [hmerged] at hn

/-- Ever fewer visits wait. -/
theorem waiting_le (h : Advances c d) : d.waiting ≤ c.waiting := by
  unfold Conversion.waiting
  rw [h.order]
  exact List.countP_mono_left fun _ _ => h.waits

/-- One visit less waits when a waiting one is finished. -/
theorem waiting_lt (h : Advances c d) {n : NodeId} (hn : c.waits n = true)
    (hn' : d.waits n = false) : d.waiting < c.waiting := by
  have hmem : n ∈ c.survey.order := by
    rw [← Survey.has_iff]
    unfold Conversion.waits at hn
    split at hn
    · rename_i v hv
      exact Survey.has_of_visit? hv
    · cases hn
  unfold Conversion.waiting
  rw [h.order]
  exact countP_lt_countP (fun _ => h.waits) hmem hn' hn

end Advances

/-- The other visits advance, and the visit of the node keeps its target and stays finished. -/
structure AdvancesBut (n : NodeId) (c c' : Conversion) : Prop where
  order : c'.survey.order = c.survey.order := by rfl
  others : ∀ {m v}, m ≠ n → c.survey.visit? m = some v → ∃ w, c'.survey.visit? m = some w ∧
    (w = v ∨ v.merged = false ∧ w.merged = true ∧ w.target = v.target)
  own : ∀ {v}, c.survey.visit? n = some v → ∃ w, c'.survey.visit? n = some w ∧
    w.target = v.target ∧ (v.merged = true → w.merged = true)

namespace AdvancesBut

variable {n : NodeId} {c d f : Conversion}

/-- An advance is one besides any node. -/
theorem of_advances (h : Advances c d) : AdvancesBut n c d where
  order := h.order
  others _ hv := h.visits hv
  own hv := by
    obtain ⟨w, hw, rfl | ⟨hwaits, hmerged, htarget⟩⟩ := h.visits hv
    · exact ⟨w, hw, rfl, id⟩
    · exact ⟨w, hw, htarget, fun _ => hmerged⟩

instance : Std.Refl (AdvancesBut n) := ⟨fun _ => of_advances (.of_survey rfl)⟩

instance : Trans (AdvancesBut n) (AdvancesBut n) (AdvancesBut n) where
  trans h₁ h₂ :=
    { order := h₂.order.trans h₁.order
      others := fun hm hv => by
        obtain ⟨w, hw, rfl | ⟨hwaits, hmerged, htarget⟩⟩ := h₁.others hm hv
        · exact h₂.others hm hw
        · obtain ⟨x, hx, rfl | ⟨hwaits', -⟩⟩ := h₂.others hm hw
          · exact ⟨x, hx, .inr ⟨hwaits, hmerged, htarget⟩⟩
          · rw [hmerged] at hwaits'
            cases hwaits'
      own := fun hv => by
        obtain ⟨w, hw, htarget, hmerged⟩ := h₁.own hv
        obtain ⟨x, hx, htarget', hmerged'⟩ := h₂.own hw
        exact ⟨x, hx, htarget'.trans htarget, hmerged' ∘ hmerged⟩ }

/-- The body of the node may be written. -/
theorem withBody (body : Entries) : Within (AdvancesBut n) (onVisit n fun v => v.withBody body) :=
  fun c =>
    { order := Survey.order_modify c.survey n _
      others := fun {m v} hm hv => ⟨v, (Survey.visit?_modify_of_ne hm c.survey _).trans hv, .inl rfl⟩
      own := fun {v} hv => by
        refine ⟨v.withBody body, ?_, v.target_withBody body, fun h => ?_⟩
        · exact Survey.visit?_modify_of_visit? hv _
        · rw [v.merged_withBody]
          exact h }

end AdvancesBut

end Conversion

namespace Emission

variable {e : Emission} {c d : Conversion}

/-- The mark of a finished visit is an advance. -/
theorem marked_advances (c : Conversion) (n : NodeId) : Advances c (marked c n) where
  order := Survey.order_modify c.survey n _
  visits {m v} hv := by
    show ∃ w, (c.survey.modify n _).visit? m = some w ∧ _
    by_cases hm : m = n
    · subst hm
      refine ⟨{ v with merged := true }, Survey.visit?_modify_of_visit? hv _, ?_⟩
      cases hmerged : v.merged with
      | false => exact .inr ⟨rfl, rfl, rfl⟩
      | true => exact .inl (by rw [← hmerged])
    · exact ⟨v, (Survey.visit?_modify_of_ne hm c.survey _).trans hv, .inl rfl⟩

/-- Taking over content changes no visit. -/
theorem inherit_advances (own : Entries) (t : NodeId) : Within Advances (e.inherit own t) :=
  fun c => .of_survey (inherit_survey own t c)

/-- **Advances.** Whatever comes of settling a node, finished visits stay as they are. -/
theorem settle_advances (links : Nat) (n : NodeId) : Within Advances (e.settle links n) := by
  induction links generalizing n with
  | zero => exact within_pure _
  | succ links ih =>
    intro c
    rw [settle_eq, run_bind, run_visitOf]
    dsimp only
    split
    · exact .of_survey rfl
    · rename_i hwaits
      -- behind the mark nothing is written but the body of the node
      have hrest : ∀ v, Within (AdvancesBut n) (do e.finish links n v; e.amend n v) := by
        intro v
        refine .bind ?_ fun _ => ?_
        · unfold finish
          split
          · exact within_pure _
          · refine .bind (fun c => .of_advances (ih _ c)) fun _ => ?_
            exact .bind (fun c => .of_advances (inherit_advances _ _ c)) fun body => .withBody body
        · unfold amend
          split
          · split
            · exact within_pure _
            · refine .bind (.bind within_get fun _ => within_pure _) fun _ => ?_
              refine .bind (fun c => .of_advances (.of_survey rfl)) fun _ => .bind within_get fun _ => ?_
              refine .bind (.withBody _) fun _ => ?_
              split
              · intro c
                obtain ⟨c', hrun, -, hsurvey⟩ := run_fail Unit _ c
                rw [hrun]
                exact .of_advances (.of_survey hsurvey)
              · exact within_pure _
          · exact within_pure _
      rw [run_bind]
      have hbut := hrest ((c.survey.visit? n).getD {}) (marked c n)
      have hmark := marked_advances c n
      refine ⟨hbut.order.trans hmark.order, fun {m v} hv => ?_⟩
      by_cases hm : m = n
      · subst hm
        rw [hv, Option.getD_some] at hwaits
        obtain ⟨w, hw, hw'⟩ := hmark.visits hv
        obtain ⟨x, hx, htarget, hmerged⟩ := hbut.own hw
        have hself := visit?_marked_self hv
        obtain rfl := Option.some.inj (hw.symm.trans hself)
        exact ⟨x, hx, .inr ⟨by simpa using hwaits, hmerged rfl, htarget⟩⟩
      · have hsame : (marked c n).survey.visit? m = some v :=
          (Survey.visit?_modify_of_ne hm c.survey _).trans hv
        exact hbut.others hm hsame

/-- Settling many nodes is an advance. -/
theorem settleAll_advances (links : Nat) (ns : List NodeId) :
    Within Advances (e.settleAll links ns) := by
  induction ns with
  | nil => exact within_pure _
  | cons n rest ih => exact .bind (settle_advances links n) fun _ => ih

/-- Settling a node ends: as soon as there are more links than visits that wait, it makes no
    difference how many there are. -/
theorem settle_links {links more : Nat} (n : NodeId) (hlinks : c.waiting < links)
    (hmore : c.waiting < more) : e.settle links n c = e.settle more n c := by
  induction links generalizing more n c with
  | zero => omega
  | succ links ih =>
    obtain ⟨more, rfl⟩ : ∃ k, more = k + 1 := ⟨more - 1, by omega⟩
    rw [settle_eq, settle_eq, run_bind, run_bind, run_visitOf]
    dsimp only
    split
    · rfl
    · rename_i hwaits
      have hfinish : e.finish links n ((c.survey.visit? n).getD {}) (marked c n)
          = e.finish more n ((c.survey.visit? n).getD {}) (marked c n) := by
        unfold finish
        cases hv : c.survey.visit? n with
        | none => rfl
        | some v =>
          rw [hv] at hwaits
          rw [Option.getD_some]
          cases v.target with
          | none => rfl
          | some t =>
            -- one visit less waits behind the mark
            have hself := visit?_marked_self hv
            have hlt := (marked_advances c n).waiting_lt (n := n)
              (by simpa [Conversion.waits, hv] using hwaits) (by simp [Conversion.waits, hself])
            have hbehind : e.settle links t (marked c n) = e.settle more t (marked c n) :=
              ih t (by omega) (by omega)
            dsimp only
            rw [run_bind, run_bind, hbehind]
      have hmark : (onVisit n fun v => { v with merged := true }) c = (.ok (), marked c n) := rfl
      rw [run_bind, run_bind, hmark]
      dsimp only
      rw [run_bind, run_bind, hfinish]

/-- With more links than visits that wait, settling comes to the same. -/
theorem settleAll_links {links more : Nat} (ns : List NodeId) (hlinks : c.waiting < links)
    (hmore : c.waiting < more) : e.settleAll links ns c = e.settleAll more ns c := by
  induction ns generalizing c with
  | nil => rfl
  | cons n rest ih =>
    have hle := (settle_advances (e := e) more n c).waiting_le
    unfold settleAll
    rw [run_bind, run_bind, settle_links n hlinks hmore]
    rcases hrun : e.settle more n c with ⟨f | u, d⟩
    · rfl
    · rw [hrun] at hle
      exact ih (lt_of_le_of_lt hle hlinks) (lt_of_le_of_lt hle hmore)

/-- **Settling ends.** No more links are followed than there are visits. -/
theorem settleVisits_links {links : Nat} (hlinks : c.survey.size < links) :
    e.settleAll links c.survey.order.reverse c = e.settleVisits c := by
  unfold settleVisits
  rw [run_bind, run_get]
  have hle := c.waiting_le_size
  exact settleAll_links _ (by omega) (by omega)

/-! ### Content taken over -/

/-- A visit that was finished: its body is its own, or has taken over a fragment of its target, as
    that was at some moment.  The fragment of a definition is always the same. -/
def Taken (target : Target) (c : Conversion) (v w : Visit) : Prop :=
  w.merged = true ∧
    match v.target with
    | none => w.body = v.body
    | some t => ∃ below, Takes target v.body t below w.body ∧
      ∀ u, c.survey.visit? t = some u → u.definition.isSome → below = u.fragment

/-- What was taken over behind a step that leaves definitions alone was taken over before. -/
theorem Taken.of_persists {target : Target} {v w : Visit} (h : Taken target d v w)
    (hd : Persists c d) : Taken target c v w := by
  unfold Taken at h ⊢
  refine ⟨h.1, ?_⟩
  cases htarget : v.target with
  | none =>
    rw [htarget] at h
    exact h.2
  | some t =>
    rw [htarget] at h
    obtain ⟨below, htakes, hdefined⟩ := h.2
    refine ⟨below, htakes, fun u hu hsome => ?_⟩
    obtain ⟨x, hx, hux⟩ := hd.visits hu
    rw [hdefined x hx (hux.hoisted.trans hsome), hux.fragment hsome]

/-- A visit that was finished behind its target: its body is its own, or has taken over the final
    fragment of the target. -/
def Fulfilled (target : Target) (c : Conversion) (v w : Visit) : Prop :=
  w.merged = true ∧
    match v.target with
    | none => w.body = v.body
    | some t => (∀ u, c.survey.visit? t = some u → u.merged = true) ∧
      Takes target v.body t (c.survey.fragment t) w.body

/-- What was fulfilled stays so while its target stays as it is. -/
theorem Fulfilled.of_same {target : Target} {v w : Visit} (h : Fulfilled target c v w)
    (hsame : ∀ t, v.target = some t → d.survey.visit? t = c.survey.visit? t) :
    Fulfilled target d v w := by
  unfold Fulfilled at h ⊢
  refine ⟨h.1, ?_⟩
  cases htarget : v.target with
  | none =>
    rw [htarget] at h
    exact h.2
  | some t =>
    rw [htarget] at h
    dsimp only at h ⊢
    rw [fragment_eq (hsame t htarget), hsame t htarget]
    exact h.2

/-- What was fulfilled stays so when settling advances. -/
theorem Fulfilled.advances {target : Target} {v w : Visit} (h : Fulfilled target c v w)
    (hd : Advances c d) : Fulfilled target d v w := by
  refine h.of_same fun t htarget => ?_
  cases hu : c.survey.visit? t with
  | none => exact hd.unvisited hu
  | some u =>
    unfold Fulfilled at h
    rw [htarget] at h
    exact hd.finished hu (h.2.1 u hu)

/-- What has taken over the content of a target that was settled is fulfilled, if it is no target
    of itself. -/
theorem fulfilled_withBody {links : Nat} {t : NodeId} {u : Visit} {f g : Conversion}
    {body : Entries} (hu : c.survey.visit? n = some u) (htarget : u.target = some t)
    (hsettle : Returns (e.settle (links + 1) t) (marked c n) () f)
    (hinherit : Returns (e.inherit u.body t) f body g) :
    ∃ w, (g.survey.modify n fun v => v.withBody body).visit? n = some w ∧ Taken e.target c u w ∧
      (t ≠ n → Fulfilled e.target
        { g with survey := g.survey.modify n fun v => v.withBody body } u w) := by
  have hsurvey := survey_of_inherit hinherit
  have hadvance := (settle_advances (e := e) (links + 1) t).of_returns hsettle
  have hself := hadvance.finished (visit?_marked_self hu) rfl
  have hmerged := Visit.merged_withBody { u with merged := true } body
  -- The target is finished, and the body takes over its fragment as it is then.
  have htakes := inherit_takes hinherit
  refine ⟨_, Survey.visit?_modify_of_visit? (hsurvey ▸ hself) _, ⟨hmerged, ?_⟩,
    fun htn => ⟨hmerged, ?_⟩⟩ <;> rw [htarget]
  · -- a definition has had its fragment all along
    refine ⟨f.survey.fragment t, ?_, fun x hx hsome => ?_⟩
    · rw [Visit.body_withBody]
      exact htakes
    · obtain ⟨y, hy, hxy⟩ := ((marked_persists c n).trans
        ((bears_persists.settle (links + 1) t).of_returns hsettle)).visits hx
      rw [Survey.fragment, hy]
      exact hxy.fragment hsome
  · have hwritten : (g.survey.modify n fun v => v.withBody body).visit? t = f.survey.visit? t := by
      rw [Survey.visit?_modify_of_ne htn, hsurvey]
    dsimp only
    rw [fragment_eq hwritten, hwritten]
    refine ⟨fun x hx => ?_, ?_⟩
    · obtain ⟨y, hy⟩ := Survey.visit?_of_has ((hadvance.has t).symm.trans (Survey.has_of_visit? hx))
      obtain ⟨x', hx', hfinished⟩ := settle_merges hy hsettle
      obtain rfl := Option.some.inj (hx.symm.trans hx')
      exact hfinished
    · rw [Visit.body_withBody]
      exact htakes

/-- **Settling a node.** Another node that waits goes on waiting, or it is finished and the node
    passes its content on, over some steps.  It is fulfilled then, if its content is not passed on
    in a circle. -/
theorem settle_fulfils (hoverride : e.override = none) (links : Nat) (m : NodeId)
    (h : Returns (e.settle links m) c () d) (hlinks : c.waiting < links) {n : NodeId} {v : Visit}
    (hv : c.survey.visit? n = some v) (hwaits : v.merged = false) :
    d.survey.visit? n = some v ∨
      Relation.ReflTransGen c.Next m n ∧ ∃ w, d.survey.visit? n = some w ∧ Taken e.target c v w ∧
        (¬ Relation.TransGen c.Next n n → Fulfilled e.target d v w) := by
  induction links generalizing m c d with
  | zero => omega
  | succ links ih =>
    cases settle_settlesAs hoverride h with
    | finished => exact .inl hv
    | plain hnone =>
      by_cases hn : n = m
      · subst hn
        rw [hv, Option.getD_some] at hnone
        have hown : ({ v with merged := true } : Visit).body = v.body := rfl
        refine .inr ⟨.refl, _, visit?_marked_self hv, ⟨rfl, ?_⟩, fun _ => ⟨rfl, ?_⟩⟩ <;>
          rw [hnone] <;> exact hown
      · exact .inl ((visit?_marked_of_ne hn).trans hv)
    | @passing u t f g body hu hfresh htarget hsettle hinherit =>
      have hmark := marked_advances c m
      have hnext : c.Next m t := ⟨u, hu, htarget⟩
      have hwaiting : (marked c m).waiting < links := by
        have hlt := hmark.waiting_lt (n := m) (by simp [Conversion.waits, hu, hfresh])
          (by simp [Conversion.waits, visit?_marked_self hu])
        omega
      obtain ⟨links, rfl⟩ : ∃ k, links = k + 1 := ⟨links - 1, by omega⟩
      by_cases hn : n = m
      · subst hn
        obtain rfl := Option.some.inj (hu.symm.trans hv)
        obtain ⟨w, hw, htaken, hfulfilled⟩ := fulfilled_withBody hu htarget hsettle hinherit
        refine .inr ⟨.refl, w, hw, htaken, fun hloop => hfulfilled ?_⟩
        rintro rfl
        exact hloop (.single hnext)
      · have hwritten : ∀ k, k ≠ m →
            (g.survey.modify m fun v => v.withBody body).visit? k = f.survey.visit? k := by
          intro k hk
          rw [Survey.visit?_modify_of_ne hk, survey_of_inherit hinherit]
        rcases ih t hsettle hwaiting ((visit?_marked_of_ne hn).trans hv) with
          hsame | ⟨hreach, w, hw, htaken, hfulfilled⟩
        · exact .inl ((hwritten n hn).trans hsame)
        · rw [hmark.next] at hreach hfulfilled
          refine .inr ⟨.head hnext hreach, w, (hwritten n hn).trans hw,
            htaken.of_persists (marked_persists c m), fun hloop => ?_⟩
          refine (hfulfilled hloop).of_same fun t' htarget' => hwritten t' ?_
          -- else the content of the node would be passed on in a circle
          rintro rfl
          exact hloop (.head' ⟨v, hv, htarget'⟩ (.head hnext hreach))

/-- **Settling.** When everything is settled, each visit that was waiting is finished, and it is
    fulfilled if its content is not passed on in a circle. -/
theorem settleVisits_fulfils (hoverride : e.override = none)
    (h : Returns e.settleVisits c () d) {n : NodeId} {v : Visit}
    (hv : c.survey.visit? n = some v) (hwaits : v.merged = false) :
    ∃ w, d.survey.visit? n = some w ∧ Taken e.target c v w ∧
      (¬ Relation.TransGen c.Next n n → Fulfilled e.target d v w) := by
  -- the nodes are settled one after the other, and leave what was finished before
  have hall : ∀ (links : Nat) (ns : List NodeId) {b : Conversion}, b.waiting < links →
      b.Next = c.Next → Persists c b → Returns (e.settleAll links ns) b () d →
      (b.survey.visit? n = some v ∨ ∃ w, b.survey.visit? n = some w ∧ Taken e.target c v w ∧
        (¬ Relation.TransGen c.Next n n → Fulfilled e.target b v w)) →
      d.survey.visit? n = some v ∨ ∃ w, d.survey.visit? n = some w ∧ Taken e.target c v w ∧
        (¬ Relation.TransGen c.Next n n → Fulfilled e.target d v w) := by
    intro links ns
    induction ns with
    | nil =>
      intro b _ _ _ hrun hb
      obtain ⟨-, rfl⟩ := returns_pure.mp hrun
      exact hb
    | cons m rest ih =>
      intro b hlinks hnext hpersists hrun hb
      obtain ⟨_, b', hfirst, hrest⟩ := returns_bind.mp hrun
      have hstep := (settle_advances (e := e) links m).of_returns hfirst
      refine ih (lt_of_le_of_lt hstep.waiting_le hlinks) (hstep.next.trans hnext)
        (hpersists.trans ((bears_persists.settle links m).of_returns hfirst)) hrest ?_
      rcases hb with hb | ⟨w, hw, htaken, hfulfilled⟩
      · refine (settle_fulfils hoverride links m hfirst hlinks hb hwaits).imp id ?_
        rintro ⟨-, w, hw, htaken, hfulfilled⟩
        rw [hnext] at hfulfilled
        exact ⟨w, hw, htaken.of_persists hpersists, hfulfilled⟩
      · exact .inr ⟨w, hstep.finished hw htaken.1, htaken, fun h => (hfulfilled h).advances hstep⟩
  have hlinks : c.waiting < c.survey.size + 1 := Nat.lt_succ_of_le c.waiting_le_size
  obtain ⟨_, _, hget, hrun⟩ := returns_bind.mp h
  obtain ⟨rfl, rfl⟩ := returns_get.mp hget
  rcases hall _ _ hlinks rfl (.refl _) hrun (.inl hv) with hsame | hdone
  · rw [settleVisits_merges h hsame] at hwaits
    cases hwaits
  · exact hdone

/-- What was finished before is the same when everything is settled. -/
theorem settleVisits_advances : Within Advances e.settleVisits :=
  .bind within_get fun _ => settleAll_advances _ _

end Emission

end SchemaGraph
