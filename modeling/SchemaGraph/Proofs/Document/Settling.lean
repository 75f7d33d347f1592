import Mathlib.Logic.Relation
import SchemaGraph.Proofs.Document.Hoisting

namespace SchemaGraph

open SchemaGraph.Action Conversion

/-!
# What settling does

Settling finishes a node behind the node that it passes on.  A finished node is never touched
again, so that in the end the body of every node is told by the final fragment of the node
behind it.

* `Emission.inherited` — a body with the content of its target
* `Conversion.Next`    — a visit passes on the content of another node
* `Emission.Settled`   — which visits are finished, below the nodes in progress
* `Emission.settleVisits_settles` — in the end all visits are finished
-/

namespace Visit

variable (v : Visit) (body : Entries)

/-- A new body leaves the target. -/
@[simp] theorem target_withBody : (v.withBody body).target = v.target := by
  unfold withBody; split <;> rfl

/-- A new body leaves the id of the definition. -/
@[simp] theorem definitionId_withBody : (v.withBody body).definitionId = v.definitionId := by
  unfold withBody; split <;> rfl

/-- A new body leaves the mark of a finished visit. -/
@[simp] theorem merged_withBody : (v.withBody body).merged = v.merged := by
  unfold withBody; split <;> rfl

/-- A new body leaves the mark of a cycle. -/
@[simp] theorem cycle_withBody : (v.withBody body).cycle = v.cycle := by
  unfold withBody; split <;> rfl

/-- A new body leaves the count of arrivals. -/
@[simp] theorem count_withBody : (v.withBody body).count = v.count := by
  unfold withBody; split <;> rfl

/-- A visit with a new body is a definition exactly if it was one. -/
@[simp] theorem isSome_definition_withBody :
    (v.withBody body).definition.isSome = v.definition.isSome := by
  unfold withBody
  split
  · rename_i h
    exact h.symm
  · rfl

/-- A node that is a definition keeps its reference when its body changes. -/
theorem fragment_withBody {v : Visit} {body : Entries} (h : v.definition.isSome) :
    (v.withBody body).fragment = v.fragment := by
  unfold withBody
  rw [if_pos h]

end Visit

namespace Emission

/-- A body with the content of its target. -/
def inherited (target : Target) (own : Entries) (t : NodeId) (below : Entries) : Entries :=
  if below.has Visit.refKey ∧ target = .draft7 then own.set allOfKey (.list [.fragment t])
  else mergeBelow own below

variable {e : Emission}

/-- **What taking over content can come to.**  The fragment goes below the body's own keywords; or
    it is asked for besides, in a new list or at the end of the body's own; or a list of annotations
    grows where it stands, with the body as it is; or there is no list that it could be added to. -/
theorem inherit_cases (own : Entries) (t : NodeId) (c : Conversion) :
    (¬((c.survey.fragment t).has Visit.refKey = true ∧ e.target = .draft7) ∧
      e.inherit own t c = (.ok (mergeBelow own (c.survey.fragment t)), c)) ∨
    ((c.survey.fragment t).has Visit.refKey = true ∧ e.target = .draft7) ∧
      ((∃ xs, (own.get? allOfKey = none ∧ xs = [] ∨ own.get? allOfKey = some (.items .list xs)) ∧
          e.inherit own t c = (.ok (own.set allOfKey (.list (xs ++ [.fragment t]))), c)) ∨
        (∃ number, own.get? allOfKey = some (.shared number) ∧
          e.inherit own t c = (.ok own, (appendShared number t c).2)) ∨
        (own.get? allOfKey).isSome = true ∧ e.inherit own t c = fail .missingChild c) := by
  unfold inherit
  rw [run_bind, run_get]
  dsimp only
  split
  case isFalse hbare => exact .inl ⟨hbare, rfl⟩
  case isTrue hbare =>
    refine .inr ⟨hbare, ?_⟩
    generalize hstep : requireAlso own t = step
    unfold requireAlso at hstep
    split at hstep <;> subst hstep
    · rename_i hown
      exact .inl ⟨[], .inl ⟨hown, rfl⟩, rfl⟩
    · rename_i xs hown
      exact .inl ⟨xs, .inr hown, rfl⟩
    · rename_i number hown
      exact .inr (.inl ⟨number, hown, rfl⟩)
    · rename_i hown
      exact .inr (.inr ⟨Option.isSome_iff_exists.mpr ⟨_, hown⟩, rfl⟩)

/-- A body takes over the content of its target, if that is no reference, or it asks for nothing
    besides, or its dialect reads the keywords beside a reference. -/
theorem run_inherit {own : Entries} {t : NodeId} {c : Conversion}
    (hown : e.target = .draft7 → (c.survey.fragment t).has Visit.refKey = true →
      own.get? allOfKey = none) :
    e.inherit own t c = (.ok (inherited e.target own t (c.survey.fragment t)), c) := by
  unfold inherited
  obtain ⟨hbare, h⟩ | ⟨hbare, h⟩ := e.inherit_cases own t c
  · rw [if_neg hbare, h]
  · rw [if_pos hbare]
    have hnone := hown hbare.2 hbare.1
    obtain ⟨xs, ⟨-, rfl⟩ | hxs, h⟩ | ⟨number, hnumber, -⟩ | ⟨hsome, -⟩ := h
    · exact h
    · cases hnone.symm.trans hxs
    · cases hnone.symm.trans hnumber
    · rw [hnone] at hsome
      cases hsome

/-- What remains to be done for a node that has just been marked as finished. -/
def finish (e : Emission) (links : Nat) (n : NodeId) (v : Visit) : Action Conversion Unit :=
  match v.target with
  | none => pure ()
  | some t => do
    e.settle links t
    let body ← e.inherit v.body t
    onVisit n fun v => v.withBody body

/-- Without an override a node is finished by what its target has to say. -/
theorem run_settle (hoverride : e.override = none) (links : Nat) {n : NodeId} {v : Visit}
    {c : Conversion} (hv : c.survey.visit? n = some v) :
    e.settle (links + 1) n c =
      if v.merged then (.ok (), c)
      else e.finish links n v
        { c with survey := c.survey.modify n fun v => { v with merged := true } } := by
  unfold settle finish
  rw [run_bind, run_visitOf, hv]
  simp only [Option.getD_some, hoverride]
  split
  · rfl
  · rw [run_bind]
    cases v.target with
    | none => rfl
    | some t =>
      simp only [bind_pure_unit]
      rfl
end Emission

namespace Conversion

/-- A visit passes on the content of another node. -/
def Next (c : Conversion) (n m : NodeId) : Prop :=
  ∃ v, c.survey.visit? n = some v ∧ v.target = some m

/-- Nothing is settled yet, and content is not passed on in a circle. -/
structure Ready (target : Target) (c : Conversion) : Prop where
  unmerged : ∀ {n v}, c.survey.visit? n = some v → v.merged = false
  next : ∀ {n m}, c.Next n m → c.survey.has m = true
  acyclic : ∀ n, ¬ Relation.TransGen c.Next n n
  spared : target = .draft7 → ∀ {n v}, c.survey.visit? n = some v → v.target.isSome →
    v.body.get? Emission.allOfKey = none

/-- Whether a visit waits to be finished. -/
def waits (c : Conversion) (n : NodeId) : Bool :=
  match c.survey.visit? n with
  | some v => !v.merged
  | none => false

/-- The number of visits that wait to be finished. -/
def waiting (c : Conversion) : Nat := c.survey.order.countP c.waits

/-- No more visits wait than there are. -/
theorem waiting_le_size (c : Conversion) : c.waiting ≤ c.survey.size := by
  have hlength : c.survey.order.length = c.survey.size := List.length_map _
  exact hlength ▸ List.countP_le_length

/-- Visits that are finished stay as they are. -/
def Keeps (c c' : Conversion) : Prop :=
  Rewrites c c' ∧ ∀ {m w}, c.survey.visit? m = some w → w.merged = true →
    c'.survey.visit? m = some w

/-- At first everything stays as it is. -/
theorem Keeps.refl (c : Conversion) : c.Keeps c := ⟨.refl c, fun h _ => h⟩

/-- What stays twice stays. -/
theorem Keeps.trans {c d f : Conversion} (h₁ : c.Keeps d) (h₂ : d.Keeps f) : c.Keeps f :=
  ⟨h₁.1.trans h₂.1, fun hm hmerged => h₂.2 (h₁.2 hm hmerged) hmerged⟩

/-- A visit that waits may change. -/
theorem Keeps.modify {c d : Conversion} (h : c.Keeps d) {n : NodeId} {v : Visit}
    (hv : c.survey.visit? n = some v) (hfresh : v.merged = false) (f : Visit → Visit) :
    c.Keeps { d with survey := d.survey.modify n f } := by
  refine ⟨h.1.trans (rewrites_onVisit n f d), fun {m w} hw hmerged => ?_⟩
  have hm : m ≠ n := by
    rintro rfl
    rw [Option.some.inj (hw.symm.trans hv), hfresh] at hmerged
    cases hmerged
  exact (Survey.visit?_modify_of_ne hm d.survey f).trans (h.2 hw hmerged)

/-- A visit that waits in the end has waited all along. -/
theorem waits_of_keeps {c c' : Conversion} (h : c.Keeps c') {n : NodeId}
    (hn : c'.waits n = true) : c.waits n = true := by
  unfold waits at hn ⊢
  cases hv : c.survey.visit? n with
  | none =>
    have hnone : c'.survey.has n = false := by
      rw [h.1.has]
      simp [Survey.has, hv]
    simp only [Survey.has, Option.isSome_eq_false_iff, Option.isNone_iff_eq_none] at hnone
    rw [hnone] at hn
    cases hn
  | some v =>
    cases hmerged : v.merged with
    | false => simp [hmerged]
    | true =>
      rw [h.2 hv hmerged] at hn
      simp [hmerged] at hn

/-- Fewer elements of a list pass a test that is strict for one of them. -/
theorem countP_lt_countP {α : Type} {p q : α → Bool} (hpq : ∀ x, p x = true → q x = true)
    {xs : List α} {x : α} (hx : x ∈ xs) (hp : p x = false) (hq : q x = true) :
    xs.countP p < xs.countP q := by
  induction xs with
  | nil => cases hx
  | cons y rest ih =>
    rw [List.countP_cons, List.countP_cons]
    rcases List.mem_cons.mp hx with rfl | hx
    · have hle : rest.countP p ≤ rest.countP q := List.countP_mono_left fun y _ => hpq y
      simp [hp, hq]
      omega
    · have hlt := ih hx
      by_cases hy : p y = true
      · simp [hy, hpq y hy, hlt]
      · simp only [Bool.not_eq_true] at hy
        simp only [hy, Bool.false_eq_true, if_false, Nat.add_zero]
        omega

/-- One visit less waits when a waiting one is finished. -/
theorem waiting_lt {c c' : Conversion} (h : c.Keeps c') {n : NodeId} (hn : c.waits n = true)
    (hn' : c'.waits n = false) : c'.waiting < c.waiting := by
  have hmem : n ∈ c.survey.order := by
    rw [← Survey.has_iff]
    unfold waits at hn
    split at hn
    · rename_i v hv
      exact Survey.has_of_visit? hv
    · cases hn
  unfold waiting
  rw [h.1.order]
  exact countP_lt_countP (fun m hm => waits_of_keeps h hm) hmem hn' hn

end Conversion

namespace Emission

/-- The visit of a node that is finished: its body holds what it passes on, and the node behind
    it is finished too. -/
def Finished (target : Target) (stack : List NodeId) (c : Conversion) (v w : Visit) : Prop :=
  match v.target with
  | none => w = { v with merged := true }
  | some t => t ∉ stack ∧ (∃ u, c.survey.visit? t = some u ∧ u.merged = true) ∧
      w = { v with merged := true }.withBody (inherited target v.body t (c.survey.fragment t))

/-- How far settling has come, below the nodes in progress: each visit is as it was, in
    progress, or finished. -/
structure Settled (target : Target) (stack : List NodeId) (b c : Conversion) : Prop where
  rewrites : Rewrites b c
  visits : ∀ {n v}, b.survey.visit? n = some v → ∃ w, c.survey.visit? n = some w ∧
    (w = v ∨ n ∈ stack ∧ w = { v with merged := true } ∨
      n ∉ stack ∧ Finished target stack c v w)

/-- A finished visit is marked as such. -/
theorem Finished.merged {target : Target} {stack : List NodeId} {c : Conversion} {v w : Visit}
    (h : Finished target stack c v w) : w.merged = true := by
  unfold Finished at h
  split at h
  · rw [h]
  · rw [h.2.2, Visit.merged_withBody]

/-- At first nothing has been settled and nothing is in progress. -/
theorem Settled.refl (target : Target) (c : Conversion) : Settled target [] c c where
  rewrites := .refl c
  visits h := ⟨_, h, .inl rfl⟩

/-- The fragment of a node depends on its visit alone. -/
theorem fragment_eq {s s' : Survey} {n : NodeId} (h : s'.visit? n = s.visit? n) :
    s'.fragment n = s.fragment n := by
  unfold Survey.fragment
  rw [h]

variable {e : Emission} {b c : Conversion} {target : Target} {stack : List NodeId} {n : NodeId}
  {v : Visit}

/-- A finished visit stays finished when a node is changed that is not behind it. -/
theorem Finished.of_others {stack' : List NodeId} {c' : Conversion} {w : Visit}
    (h : Finished target stack c v w)
    (hsame : ∀ t u, t ∉ stack → c.survey.visit? t = some u → u.merged = true →
      c'.survey.visit? t = some u ∧ t ∉ stack') : Finished target stack' c' v w := by
  unfold Finished at h ⊢
  cases htarget : v.target with
  | none =>
    rw [htarget] at h
    exact h
  | some t =>
    rw [htarget] at h
    obtain ⟨hstack, ⟨u, hu, hmerged⟩, hw⟩ := h
    obtain ⟨hu', hstack'⟩ := hsame t u hstack hu hmerged
    refine ⟨hstack', ⟨u, hu', hmerged⟩, ?_⟩
    rw [fragment_eq (hu'.trans hu.symm)]
    exact hw

/-- A conversion in which a node has just been marked as finished. -/
def marked (c : Conversion) (n : NodeId) : Conversion :=
  { c with survey := c.survey.modify n fun v => { v with merged := true } }

/-- Marking a node as finished changes the mark of its visit. -/
theorem visit?_marked_self (hv : c.survey.visit? n = some v) :
    (marked c n).survey.visit? n = some { v with merged := true } :=
  Survey.visit?_modify_of_visit? hv _

/-- Marking a node as finished leaves the other visits. -/
theorem visit?_marked_of_ne {m : NodeId} (h : m ≠ n) :
    (marked c n).survey.visit? m = c.survey.visit? m :=
  Survey.visit?_modify_of_ne h c.survey _

/-- A node that waits comes to be in progress. -/
theorem Settled.mark (h : Settled target stack b c) (hv : b.survey.visit? n = some v)
    (hc : c.survey.visit? n = some v) (hfresh : v.merged = false) :
    Settled target (n :: stack) b (marked c n) where
  rewrites := h.rewrites.trans (rewrites_onVisit n _ c)
  visits {m u} hu := by
    by_cases hm : m = n
    · subst hm
      obtain rfl : u = v := Option.some.inj (hu.symm.trans hv)
      refine ⟨{ u with merged := true }, ?_, .inr (.inl ⟨List.mem_cons_self .., rfl⟩)⟩
      exact Survey.visit?_modify_of_visit? hc _
    · obtain ⟨w, hw, hcases⟩ := h.visits hu
      refine ⟨w, (Survey.visit?_modify_of_ne hm c.survey _).trans hw, ?_⟩
      rcases hcases with rfl | ⟨hmem, hw⟩ | ⟨hmem, hfinished⟩
      · exact .inl rfl
      · exact .inr (.inl ⟨List.mem_cons_of_mem _ hmem, hw⟩)
      · refine .inr (.inr ⟨by simp [hm, hmem], hfinished.of_others fun t x hstack hx hmerged => ?_⟩)
        have ht : t ≠ n := by
          rintro rfl
          rw [Option.some.inj (hx.symm.trans hc), hfresh] at hmerged
          cases hmerged
        exact ⟨(Survey.visit?_modify_of_ne ht c.survey _).trans hx, by simp [ht, hstack]⟩

/-- A node in progress comes to be finished, when the node behind it is. -/
theorem Settled.close (h : Settled target (n :: stack) b c) (hn : n ∉ stack)
    (hv : b.survey.visit? n = some v) {w : Visit} {c' : Conversion} (hr : Rewrites c c')
    (hothers : ∀ m, m ≠ n → c'.survey.visit? m = c.survey.visit? m)
    (hw : c'.survey.visit? n = some w) (hfinished : Finished target stack c' v w) :
    Settled target stack b c' where
  rewrites := h.rewrites.trans hr
  visits {m u} hu := by
    by_cases hm : m = n
    · subst hm
      obtain rfl : u = v := Option.some.inj (hu.symm.trans hv)
      exact ⟨w, hw, .inr (.inr ⟨hn, hfinished⟩)⟩
    · obtain ⟨x, hx, hcases⟩ := h.visits hu
      refine ⟨x, (hothers m hm).trans hx, ?_⟩
      rcases hcases with rfl | ⟨hmem, hx⟩ | ⟨hmem, hfinished⟩
      · exact .inl rfl
      · exact .inr (.inl ⟨(List.mem_cons.mp hmem).resolve_left hm, hx⟩)
      · refine .inr (.inr ⟨fun hs => hmem (List.mem_cons_of_mem _ hs), ?_⟩)
        refine hfinished.of_others fun t y hstack hy _ => ?_
        have ht : t ≠ n := fun h => hstack (h ▸ List.mem_cons_self ..)
        exact ⟨(hothers t ht).trans hy, fun hs => hstack (List.mem_cons_of_mem _ hs)⟩

/-- The topmost node in progress is finished by the content of its target, which is finished. -/
theorem Settled.take (h : Settled target (n :: stack) b c) (hn : n ∉ stack) {t : NodeId}
    (hv : b.survey.visit? n = some v) (htarget : v.target = some t)
    (hself : c.survey.visit? n = some { v with merged := true }) (ht : t ∉ n :: stack) {u : Visit}
    (hu : c.survey.visit? t = some u) (hmerged : u.merged = true) :
    Settled target stack b { c with
      survey := c.survey.modify n
        (·.withBody (inherited target v.body t (c.survey.fragment t))) } := by
  have hothers := fun m (hm : m ≠ n) => Survey.visit?_modify_of_ne hm c.survey
    (·.withBody (inherited target v.body t (c.survey.fragment t)))
  have htn : t ≠ n := fun heq => ht (heq ▸ List.mem_cons_self ..)
  refine h.close hn hv (rewrites_onVisit n _ c) hothers (Survey.visit?_modify_of_visit? hself _) ?_
  unfold Finished
  rw [htarget]
  refine ⟨fun hs => ht (List.mem_cons_of_mem _ hs), ⟨u, (hothers t htn).trans hu, hmerged⟩, ?_⟩
  exact congrArg (fun below => Visit.withBody _ (inherited target v.body t below))
    (fragment_eq (hothers t htn)).symm

/-- **Settling a node.** Below the nodes in progress, which all pass on the content of the node,
    it is finished; visits that were finished before stay as they are. -/
theorem settle_settles (hoverride : e.override = none) (hready : Ready e.target b) :
    ∀ (links : Nat) (stack : List NodeId) (n : NodeId) (c : Conversion),
      Settled e.target stack b c → b.survey.has n = true →
      (∀ s ∈ stack, Relation.TransGen b.Next s n) → c.waiting < links →
      Meets (e.settle links n) c
        (fun _ c' => Settled e.target stack b c' ∧ c.Keeps c' ∧
          ∃ w, c'.survey.visit? n = some w ∧ w.merged = true) (fun _ => False) := by
  intro links
  induction links with
  | zero =>
    intro stack n c _ _ _ hfuel
    omega
  | succ links ih =>
    intro stack n c hsettled hn hstack hfuel
    obtain ⟨v, hv⟩ := Survey.visit?_of_has hn
    obtain ⟨w, hw, hcases⟩ := hsettled.visits hv
    have hout : n ∉ stack := fun hmem => hready.acyclic n (hstack n hmem)
    unfold Meets
    rw [run_settle hoverride links hw]
    rcases hcases with rfl | ⟨hmem, -⟩ | ⟨-, hfinished⟩
    · have hfresh := hready.unmerged hv
      rw [hfresh, if_neg Bool.false_ne_true]
      -- the node is marked, and stands on top of the nodes in progress
      have hmark := hsettled.mark hv hw hfresh
      have hself := visit?_marked_self hw
      have hkeeps : c.Keeps (marked c n) := (Keeps.refl c).modify hw hfresh _
      show Meets (e.finish links n w) (marked c n) _ _
      unfold finish
      cases htarget : w.target with
      | none =>
        refine meets_pure ⟨hmark.close hout hv (.refl _) (fun _ _ => rfl) hself ?_, hkeeps,
          _, hself, rfl⟩
        unfold Finished
        rw [htarget]
      | some t =>
        have hnext : b.Next n t := ⟨w, hv, htarget⟩
        have hstack' : ∀ s ∈ n :: stack, Relation.TransGen b.Next s t := by
          refine List.forall_mem_cons.mpr ⟨.single hnext, fun s hs => ?_⟩
          exact (hstack s hs).tail hnext
        have hwaiting : (marked c n).waiting < links := by
          have hlt := waiting_lt hkeeps (n := n) (by simp [waits, hw, hfresh])
            (by simp [waits, hself])
          omega
        refine .bind (ih (n :: stack) t (marked c n) hmark (hready.next hnext) hstack' hwaiting) ?_
        rintro _ d ⟨hd, hkeeps', u, hu, hmerged⟩
        have hselfd := hkeeps'.2 hself rfl
        have htstack : t ∉ n :: stack := fun hmem => hready.acyclic t (hstack' t hmem)
        have hspared : e.target = .draft7 → w.body.get? allOfKey = none :=
          fun h => hready.spared h hv (by rw [htarget]; rfl)
        refine .bind (P := fun body d' => d = d' ∧
          body = inherited e.target w.body t (d.survey.fragment t)) ?_ ?_
        · unfold Meets
          rw [run_inherit fun h _ => hspared h]
          exact ⟨rfl, rfl⟩
        · rintro _ _ ⟨rfl, rfl⟩
          exact ⟨hd.take hout hv htarget hselfd htstack hu hmerged,
            (hkeeps.trans hkeeps').modify hw hfresh _, _,
            Survey.visit?_modify_of_visit? hselfd _, Visit.merged_withBody _ _⟩
    · exact absurd hmem hout
    · rw [hfinished.merged, if_pos rfl]
      exact ⟨hsettled, .refl c, w, hw, hfinished.merged⟩

/-- Nodes that are settled in order are finished. -/
theorem settleAll_settles (hoverride : e.override = none) (hready : Ready e.target b) {links : Nat}
    (hlinks : b.waiting < links) {ns : List NodeId} (hns : ∀ n ∈ ns, b.survey.has n = true)
    (hsettled : Settled e.target [] b c) (hle : c.waiting ≤ b.waiting) :
    Meets (e.settleAll links ns) c
      (fun _ c' => Settled e.target [] b c' ∧ c.Keeps c' ∧
        ∀ n ∈ ns, ∃ w, c'.survey.visit? n = some w ∧ w.merged = true) (fun _ => False) := by
  induction ns generalizing c with
  | nil => exact ⟨hsettled, .refl c, nofun⟩
  | cons n rest ih =>
    obtain ⟨hn, hrest⟩ := List.forall_mem_cons.mp hns
    refine .bind (settle_settles hoverride hready links [] n c hsettled hn nofun (by omega)) ?_
    rintro _ d ⟨hd, hkeeps, w, hw, hmerged⟩
    have hwaiting : d.waiting ≤ c.waiting := by
      unfold waiting
      rw [hkeeps.1.order]
      exact List.countP_mono_left fun m _ => waits_of_keeps hkeeps
    refine (ih hrest hd (le_trans hwaiting hle)).mono ?_ fun _ h => h
    rintro _ c' ⟨hc', hkeeps', hall⟩
    exact ⟨hc', hkeeps.trans hkeeps',
      List.forall_mem_cons.mpr ⟨⟨w, hkeeps'.2 hw hmerged, hmerged⟩, hall⟩⟩

/-- What a visit has become when everything is settled.  Its body holds what the final fragment
    of the node behind it says. -/
structure Final (target : Target) (c : Conversion) (v w : Visit) : Prop where
  merged : w.merged = true
  behind : w.target = v.target
  id : w.definitionId = v.definitionId
  cycle : w.cycle = v.cycle
  count : w.count = v.count
  hoisted : w.definition.isSome = v.definition.isSome
  fragment : v.definition.isSome → w.fragment = v.fragment
  body : w.body =
    match v.target with
    | none => v.body
    | some t => inherited target v.body t (c.survey.fragment t)

/-- A finished visit has its final form. -/
theorem Finished.final {w : Visit} (h : Finished target stack c v w) : Final target c v w := by
  have hmerged := h.merged
  unfold Finished at h
  split at h
  · rename_i htarget
    refine ⟨hmerged, by rw [h], by rw [h], by rw [h], by rw [h], by rw [h],
      fun _ => by rw [h], ?_⟩
    rw [htarget, h]
    rfl
  · rename_i t htarget
    obtain ⟨-, -, hw⟩ := h
    refine ⟨hmerged, by rw [hw, Visit.target_withBody], by rw [hw, Visit.definitionId_withBody],
      by rw [hw, Visit.cycle_withBody], by rw [hw, Visit.count_withBody],
      by rw [hw, Visit.isSome_definition_withBody], fun hsome => ?_, ?_⟩
    · have hmarked : { v with merged := true }.definition.isSome = true := hsome
      rw [hw, Visit.fragment_withBody hmarked]
    · rw [htarget, hw, Visit.body_withBody]

/-- **Settling.** In the end every visit is finished; nothing fails on the way. -/
theorem settleVisits_settles (hoverride : e.override = none) (hready : Ready e.target c) :
    Meets e.settleVisits c
      (fun _ c' => Rewrites c c' ∧ ∀ n v, c.survey.visit? n = some v →
        ∃ w, c'.survey.visit? n = some w ∧ Final e.target c' v w) (fun _ => False) := by
  unfold settleVisits
  refine .bind (P := fun x d => c = x ∧ c = d) ⟨rfl, rfl⟩ ?_
  rintro _ _ ⟨rfl, rfl⟩
  have hlinks : c.waiting < c.survey.size + 1 := Nat.lt_succ_of_le c.waiting_le_size
  have hns : ∀ n ∈ c.survey.order.reverse, c.survey.has n = true :=
    fun n hn => (Survey.has_iff _ _).mpr (List.mem_reverse.mp hn)
  refine (settleAll_settles hoverride hready hlinks hns (.refl _ c) (le_refl _)).mono ?_
    fun _ h => h
  rintro _ c' ⟨hc', -, hall⟩
  refine ⟨hc'.rewrites, fun n v hv => ?_⟩
  obtain ⟨w, hw, hmerged⟩ := hall n
    (List.mem_reverse.mpr ((Survey.has_iff _ _).mp (Survey.has_of_visit? hv)))
  obtain ⟨w', hw', hcases⟩ := hc'.visits hv
  obtain rfl : w' = w := Option.some.inj (hw'.symm.trans hw)
  refine ⟨w', hw', ?_⟩
  rcases hcases with rfl | ⟨hmem, -⟩ | ⟨-, hfinished⟩
  · rw [hready.unmerged hv] at hmerged
    cases hmerged
  · cases hmem
  · exact hfinished.final

end Emission

end SchemaGraph
