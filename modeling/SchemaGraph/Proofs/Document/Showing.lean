import SchemaGraph.Proofs.Document.Progress
import SchemaGraph.Proofs.Document.Session
import SchemaGraph.Proofs.Survey.Anchoring
import SchemaGraph.Proofs.Survey.Crediting

namespace SchemaGraph

open SchemaGraph.Action Conversion Emission

/-!
# What an emission shows

Settling shows each node to the override when it is finished, unless the node is marked as the
source of a clone.  A node is finished once, so that it is shown once at most.  An emission that
does not break off half-way leaves no node behind that was finished and not shown.

* `Conversion.seen`     — the nodes that were shown
* `Conversion.Still`    — nothing is finished or shown
* `Conversion.Views`    — what is finished and shown in between
* `Emission.document_exhibits` — what an emission shows
-/

/-- The nodes that were shown to the override, in order. -/
def Conversion.seen (c : Conversion) : List NodeId := c.shown.map (·.1)

/-- An override that never fails. -/
def Override.Lasting (o : Override) : Prop := ∀ store n body, (o store n body).2 = none

/-- What settling goes by: the target, whether the visit is finished, and whether it is marked as
    the source of a clone. -/
def Visit.progress (v : Visit) : Option NodeId × Bool × Bool := (v.target, v.merged, v.isSource)

/-- A new body makes no progress. -/
@[simp] theorem Visit.progress_withBody (v : Visit) (body : Entries) :
    (v.withBody body).progress = v.progress := by
  unfold withBody
  split <;> rfl

namespace Conversion

variable {c d f : Conversion} {ns ms : List NodeId} {n : NodeId}

/-- A node that waits was visited and is not finished. -/
theorem visit?_of_waits (h : c.waits n = true) :
    ∃ v, c.survey.visit? n = some v ∧ v.merged = false := by
  unfold waits at h
  split at h
  · rename_i v hv
    exact ⟨v, hv, by simpa using h⟩
  · cases h

/-- A visited node waits as long as it is not finished. -/
theorem waits_of_visit? {v : Visit} (hv : c.survey.visit? n = some v) : c.waits n = !v.merged := by
  unfold waits
  rw [hv]

/-- A node waits if it was visited and is not finished. -/
theorem waits_eq (c : Conversion) (n : NodeId) :
    c.waits n = ((c.survey.visit? n).map fun v => !v.merged).getD false := by
  unfold waits
  cases c.survey.visit? n <;> rfl

/-- The same nodes are visited, and nothing is finished or shown. -/
structure Still (c d : Conversion) : Prop where
  order : d.survey.order = c.survey.order := by rfl
  anchors : Anchors c d := by exact fun _ h => h
  waits : d.waits = c.waits := by rfl
  sources : d.survey.isSource = c.survey.isSource := by rfl
  seen : d.seen = c.seen := by rfl

instance : Std.Refl Still := ⟨fun _ => { }⟩

instance : Trans Still Still Still :=
  ⟨fun h₁ h₂ =>
    { order := h₂.order.trans h₁.order
      anchors := Trans.trans h₁.anchors h₂.anchors
      waits := h₂.waits.trans h₁.waits
      sources := h₂.sources.trans h₁.sources
      seen := h₂.seen.trans h₁.seen }⟩

/-- What happens in the store alone finishes and shows nothing. -/
theorem onStore_still {α : Type} (a : Action Store α) : Within Still (onStore a) := fun _ => { }

/-- A failure finishes and shows nothing. -/
theorem fail_still {α : Type} (g : Failure) : Within Still (fail g : Action Conversion α) :=
  onStore_still _

/-- Visits that are as far as before. -/
theorem Still.of_progress (horder : d.survey.order = c.survey.order) (hseen : d.seen = c.seen)
    (h : ∀ n, (d.survey.visit? n).map Visit.progress = (c.survey.visit? n).map Visit.progress) :
    Still c d where
  order := horder
  anchors more hc m w t hw ht := by
    have hprogress := h m
    rw [hw] at hprogress
    obtain ⟨v, hv, hvw⟩ := Option.map_eq_some_iff.mp hprogress.symm
    rw [Survey.has_iff, horder, ← Survey.has_iff]
    exact hc m v t hv ((congrArg (·.1) hvw).trans ht)
  waits := by
    funext n
    have hprogress := congrArg (Option.map fun p => !p.2.1) (h n)
    rw [Option.map_map, Option.map_map] at hprogress
    rw [waits_eq, waits_eq]
    exact congrArg (Option.getD · false) hprogress
  sources := by
    funext n
    have hprogress := congrArg (Option.map (·.2.2)) (h n)
    rw [Option.map_map, Option.map_map] at hprogress
    exact congrArg (Option.getD · false) hprogress
  seen := hseen

/-- A change of one visit that finishes nothing. -/
theorem onVisit_still {g : Visit → Visit} (hg : ∀ v, (g v).progress = v.progress) :
    Within Still (onVisit n g) := fun c =>
  .of_progress (Survey.order_modify c.survey n g) rfl (Survey.map_visit?_modify hg c.survey n)

/-- What is finished and shown in between: nodes that waited are shown once, and none that is
    marked as the source of a clone. -/
structure Views (ns : List NodeId) (c d : Conversion) : Prop where
  order : d.survey.order = c.survey.order
  anchors : Anchors c d
  waits : ∀ {n}, d.waits n = true → c.waits n = true
  sources : d.survey.isSource = c.survey.isSource
  seen : d.seen = c.seen ++ ns
  nodup : ns.Nodup
  shown : ∀ n ∈ ns, c.waits n = true ∧ d.waits n = false ∧ c.survey.isSource n = false

/-- Every node that is finished in between is shown, unless it is marked as a source. -/
def Completes (ns : List NodeId) (c d : Conversion) : Prop :=
  ∀ n, c.waits n = true → d.waits n = false → c.survey.isSource n = false → n ∈ ns

/-- Where nothing is finished, nothing is shown. -/
theorem Still.views (h : Still c d) : Views [] c d where
  order := h.order
  anchors := h.anchors
  waits hn := h.waits ▸ hn
  sources := h.sources
  seen := h.seen.trans (List.append_nil _).symm
  nodup := List.nodup_nil
  shown := nofun

/-- Where nothing is finished, nothing is left to be shown. -/
theorem Still.completes (h : Still c d) : Completes [] c d := by
  intro n hc hd
  rw [h.waits, hc] at hd
  cases hd

/-- A node that is shown behind others was not shown among them. -/
theorem Views.trans (h₁ : Views ns c d) (h₂ : Views ms d f) : Views (ns ++ ms) c f where
  order := h₂.order.trans h₁.order
  anchors := Trans.trans h₁.anchors h₂.anchors
  waits hn := h₁.waits (h₂.waits hn)
  sources := h₂.sources.trans h₁.sources
  seen := by rw [h₂.seen, h₁.seen, List.append_assoc]
  nodup := by
    -- what was shown first is finished, and what is shown later was waiting
    refine List.nodup_append.mpr ⟨h₁.nodup, h₂.nodup, ?_⟩
    rintro n hn _ hm rfl
    have hfinished := (h₁.shown n hn).2.1
    rw [(h₂.shown n hm).1] at hfinished
    cases hfinished
  shown n hn := by
    rcases List.mem_append.mp hn with hn | hn
    · obtain ⟨hc, hd, hsource⟩ := h₁.shown n hn
      refine ⟨hc, ?_, hsource⟩
      cases hf : f.waits n with
      | false => rfl
      | true => rw [h₂.waits hf] at hd; cases hd
    · obtain ⟨hd, hf, hsource⟩ := h₂.shown n hn
      exact ⟨h₁.waits hd, hf, h₁.sources ▸ hsource⟩

/-- What is complete in two parts is complete as a whole. -/
theorem Completes.trans (h₁ : Completes ns c d) (hcd : Views ns c d) (h₂ : Completes ms d f) :
    Completes (ns ++ ms) c f := by
  intro n hc hf hsource
  cases hd : d.waits n with
  | false => exact List.mem_append_left _ (h₁ n hc hd hsource)
  | true => exact List.mem_append_right _ (h₂ n hd hf (hcd.sources ▸ hsource))

end Conversion

namespace Emission

variable {e : Emission} {c d f : Conversion} {ns : List NodeId} {n : NodeId} {o : Override}

/-! ### One node -/

/-- One more element of a list of annotations finishes and shows nothing. -/
theorem appendShared_still (number : Nat) (t : NodeId) : Within Still (appendShared number t) :=
  .bind within_get fun _ => onStore_still _

/-- Taking over content finishes and shows nothing. -/
theorem inherit_still (own : Entries) (t : NodeId) : Within Still (e.inherit own t) := by
  intro c
  obtain ⟨-, hrun⟩ | ⟨-, ⟨xs, -, hrun⟩ | ⟨number, -, hrun⟩ | ⟨-, hrun⟩⟩ := e.inherit_cases own t c
  · rw [hrun]
    exact Std.Refl.refl c
  · rw [hrun]
    exact Std.Refl.refl c
  · rw [hrun]
    exact appendShared_still number t c
  · rw [hrun]
    exact fail_still _ c

/-- A new body finishes and shows nothing. -/
theorem withBody_still (body : Entries) : Within Still (onVisit n fun v => v.withBody body) :=
  onVisit_still fun v => v.progress_withBody body

/-- The override is shown one node. -/
theorem applyOverride_shows (o : Override) (n : NodeId) (c : Conversion) :
    ∃ body, Still { c with shown := c.shown ++ [(n, body)] } (applyOverride o n c).2 := by
  refine ⟨((c.survey.visit? n).getD {}).body, ?_⟩
  unfold applyOverride
  rw [run_bind, run_visitOf]
  dsimp only
  rw [run_bind, run_modify]
  dsimp only
  rw [run_bind, run_get]
  refine Within.bind (withBody_still _) (fun _ => ?_) _
  split
  · exact fail_still _
  · exact within_pure _

/-- The mark of a finished node. -/
theorem marked_views (hn : c.waits n = true) :
    Views [] c (marked c n) ∧ (marked c n).waits n = false ∧
      ∀ m, m ≠ n → (marked c n).waits m = c.waits m := by
  obtain ⟨v, hv, -⟩ := visit?_of_waits hn
  have hself := visit?_marked_self hv
  have hothers : ∀ m, m ≠ n → (marked c n).waits m = c.waits m := by
    intro m hm
    unfold waits
    rw [show (marked c n).survey.visit? m = _ from Survey.visit?_modify_of_ne hm c.survey _]
  refine ⟨?_, by rw [waits_of_visit? hself]; rfl, hothers⟩
  exact
    { order := Survey.order_modify c.survey n _
      anchors := onVisit_anchors (n := n) (f := fun v => { v with merged := true }) (fun _ => rfl) c
      waits := fun {m} hm => by
        by_cases hmn : m = n
        · exact hmn ▸ hn
        · exact (hothers m hmn).symm.trans hm
      sources := funext fun m =>
        isSource_modify (f := fun v => { v with merged := true }) (fun _ => rfl) c.survey m
      seen := (List.append_nil _).symm
      nodup := List.nodup_nil
      shown := nofun }

/-- A node that is the source of a clone is finished behind others. -/
theorem close_hidden (hn : c.waits n = true) (hsource : c.survey.isSource n = true)
    (hall : Completes ns (marked c n) d) : Completes ns c d := by
  obtain ⟨hmark, -, hothers⟩ := marked_views hn
  intro m hm hd hm'
  have hmn : m ≠ n := by
    rintro rfl
    rw [hsource] at hm'
    cases hm'
  exact hall m ((hothers m hmn).trans hm) hd (hmark.sources ▸ hm')

/-- A node is shown when it is finished, behind others. -/
theorem close_shown (hn : c.waits n = true) (hsource : c.survey.isSource n = false)
    (h : Views ns (marked c n) d) {body : Entries}
    (hd : Still { d with shown := d.shown ++ [(n, body)] } f) :
    Views (ns ++ [n]) c f ∧ (Completes ns (marked c n) d → Completes (ns ++ [n]) c f) := by
  obtain ⟨hmark, hdone, hothers⟩ := marked_views hn
  have hbefore : Views ns c d := hmark.trans h
  have hwaits : f.waits = d.waits := hd.waits
  -- The node was done with before those behind it were shown, so it is not among them.
  have hdn : d.waits n = false := by
    cases hdn : d.waits n with
    | false => rfl
    | true => rw [h.waits hdn] at hdone; cases hdone
  have hnew : n ∉ ns := by
    intro hmem
    rw [(h.shown n hmem).1] at hdone
    cases hdone
  refine ⟨?_, fun hall m hm hf hm' => ?_⟩
  · exact
      { order := hd.order.trans hbefore.order
        anchors := fun more hc => hd.anchors more (hbefore.anchors more hc)
        waits := fun {m} hm => hbefore.waits (hwaits ▸ hm)
        sources := (show f.survey.isSource = d.survey.isSource from hd.sources).trans hbefore.sources
        seen := by
          rw [hd.seen]
          show (d.shown ++ [(n, body)]).map (·.1) = _
          rw [List.map_append, ← List.append_assoc, ← hbefore.seen]
          rfl
        nodup := by
          refine List.nodup_append.mpr ⟨h.nodup, List.nodup_singleton n, ?_⟩
          rintro m hm _ hmn rfl
          exact hnew (List.mem_singleton.mp hmn ▸ hm)
        shown := fun m hm => by
          rw [hwaits]
          rcases List.mem_append.mp hm with hm | hm
          · exact hbefore.shown m hm
          · rw [List.mem_singleton.mp hm]
            exact ⟨hn, hdn, hsource⟩ }
  · by_cases hmn : m = n
    · exact List.mem_append_right _ (List.mem_singleton.mpr hmn)
    · refine List.mem_append_left _ (hall m ((hothers m hmn).trans hm) (hwaits ▸ hf) ?_)
      exact hmark.sources ▸ hm'

/-- What settling comes to: everything that is finished is shown, and if it fails, what is shown
    was finished. -/
def Exhibited (c : Conversion) (_ : Unit) (d : Conversion) : Prop :=
  ∃ ns, Views ns c d ∧ Completes ns c d

/-- What is exhibited in two parts is exhibited as a whole. -/
theorem Exhibited.trans {u : Unit} (h₁ : Exhibited c u d) (h₂ : Exhibited d u f) :
    Exhibited c u f := by
  obtain ⟨ns, hns, hall⟩ := h₁
  obtain ⟨ms, hms, hall'⟩ := h₂
  exact ⟨ns ++ ms, hns.trans hms, hall.trans hns hall'⟩

/-- Where nothing is finished or shown, there is nothing to exhibit. -/
theorem Exhibited.of_still (h : Still c d) : Exhibited c () d := ⟨[], h.views, h.completes⟩

/-- **Settling a node.** What is finished is shown once, unless it is the source of a clone. -/
theorem settle_views (ho : e.override = some o) (links : Nat) (n : NodeId)
    (hanchored : c.survey.Anchored []) (hn : c.survey.has n = true) :
    Meets (e.settle links n) c (Exhibited c) fun d => ∃ ns, Views ns c d := by
  induction links generalizing n c with
  | zero => exact .of_still (Std.Refl.refl c)
  | succ links ih =>
    obtain ⟨v, hv⟩ := Survey.visit?_of_has hn
    rw [settle_eq]
    refine .bind (P := fun w d => v = w ∧ c = d) ?_ ?_
    · unfold Meets
      rw [run_visitOf, hv]
      exact ⟨rfl, rfl⟩
    rintro _ _ ⟨rfl, rfl⟩
    split
    · exact .of_still (Std.Refl.refl c)
    rename_i hfresh
    have hwaits : c.waits n = true := by
      rw [waits_of_visit? hv]
      simpa using hfresh
    obtain ⟨hmark, -⟩ := marked_views hwaits
    have hmarked : (marked c n).survey.Anchored [] := hmark.anchors [] hanchored
    -- what is shown behind the mark and before the node itself
    have hfinish : Meets (e.finish links n v) (marked c n) (Exhibited (marked c n))
        fun d => ∃ ns, Views ns (marked c n) d := by
      unfold finish
      split
      · exact .of_still (Std.Refl.refl _)
      · rename_i t htarget
        have ht : (marked c n).survey.has t = true := by
          rw [show (marked c n).survey.has t = c.survey.has t from has_modify ..]
          exact (hanchored n v t hv htarget).resolve_right List.not_mem_nil
        refine .bind (ih t hmarked ht) fun _ d hd => ?_
        have hbody : Within Still (do
            let body ← e.inherit v.body t
            onVisit n fun v => v.withBody body) :=
          .bind (inherit_still v.body t) fun body => withBody_still body
        refine (meets_of_state (hbody d)).mono
          (fun _ f hf => hd.trans (.of_still hf)) fun f hf => ?_
        obtain ⟨ns, hns, -⟩ := hd
        exact ⟨_, hns.trans hf.views⟩
    refine .bind (P := fun _ d => d = marked c n) rfl ?_
    rintro _ _ rfl
    have hbreaks : ∀ d, (∃ ns, Views ns (marked c n) d) → ∃ ns, Views ns c d :=
      fun d ⟨ns, hns⟩ => ⟨_, hmark.trans hns⟩
    refine .bind (hfinish.mono (fun _ _ h => h) hbreaks) ?_
    rintro _ d ⟨ns, hns, hall⟩
    unfold amend
    rw [ho]
    dsimp only
    have hsource : c.survey.isSource n = v.isSource := Survey.isSource_of_visit? hv
    cases hvs : v.isSource with
    | true => exact ⟨ns, hmark.trans hns, close_hidden hwaits (hsource.trans hvs) hall⟩
    | false =>
      -- the node comes behind all that was shown below it
      rw [if_neg Bool.false_ne_true]
      obtain ⟨body, hshows⟩ := applyOverride_shows o n d
      obtain ⟨hviews, hcompletes⟩ := close_shown hwaits (hsource.trans hvs) hns hshows
      exact (meets_of_state (P := fun f => Exhibited c () f) ⟨_, hviews, hcompletes hall⟩).mono
        (fun _ _ h => h) fun _ ⟨ns, hns, _⟩ => ⟨ns, hns⟩

/-! ### All nodes -/

/-- Settling nodes one after the other exhibits them; broken off, it has shown only what was
    finished. By induction on the nodes. -/
theorem settleAll_views (ho : e.override = some o) (links : Nat) (ns : List NodeId)
    (hanchored : c.survey.Anchored []) (hns : ∀ n ∈ ns, c.survey.has n = true) :
    Meets (e.settleAll links ns) c (Exhibited c) fun d => ∃ ms, Views ms c d := by
  induction ns generalizing c with
  | nil => exact .of_still (Std.Refl.refl c)
  | cons n rest ih =>
    obtain ⟨hn, hrest⟩ := List.forall_mem_cons.mp hns
    refine .bind (settle_views ho links n hanchored hn) fun _ d hd => ?_
    obtain ⟨ms, hms, hall⟩ := hd
    have hhas : ∀ m ∈ rest, d.survey.has m = true := fun m hm => by
      rw [Survey.has_iff, hms.order, ← Survey.has_iff]
      exact hrest m hm
    refine (ih (hms.anchors [] hanchored) hhas).mono
      (fun _ f hf => .trans ⟨ms, hms, hall⟩ hf) ?_
    rintro f ⟨ks, hks⟩
    exact ⟨_, hms.trans hks⟩

/-- Settling all visits exhibits them; broken off, it has shown only what was finished. -/
theorem settleVisits_views (ho : e.override = some o) (hanchored : c.survey.Anchored []) :
    Meets e.settleVisits c (Exhibited c) fun d => ∃ ms, Views ms c d := by
  refine .bind (P := fun x d => c = x ∧ c = d) ⟨rfl, rfl⟩ ?_
  rintro _ _ ⟨rfl, rfl⟩
  exact settleAll_views ho _ _ hanchored fun n hn =>
    (Survey.has_iff _ _).mpr (List.mem_reverse.mp hn)

/-- Settling breaks off only at an annotation that asks for something besides, but holds no list;
    nothing else stops it if the override never fails. -/
theorem settleVisits_stops (ho : e.override = some o) (hlasting : o.Lasting) :
    Raises (· = .missingChild) e.settleVisits := by
  refine settleVisits_raises rfl fun ho' hstop => ?_
  cases ho.symm.trans ho'
  rw [hlasting] at hstop
  cases hstop

/-! ### Emissions -/

/-- The override was shown the same nodes. -/
def Hides (c d : Conversion) : Prop := d.seen = c.seen

instance : Std.Refl Hides := ⟨fun _ => rfl⟩

instance : Trans Hides Hides Hides := ⟨fun h₁ h₂ => Eq.trans h₂ h₁⟩

/-- No step of hoisting shows a node. -/
theorem carries_hides : Carries Hides where
  visit _ _ _ _ := rfl
  count _ := rfl
  log _ _ := rfl
  fail _ _ _ := rfl

/-- Making definitions finishes nothing. -/
theorem hoist_still : Within Still e.hoist := by
  intro c
  have hhoists := (hoist_hoists (e := e) c).state_of_and
  refine .of_progress hhoists.rewrites.order (carries_hides.hoist c) fun n => ?_
  cases hv : c.survey.visit? n with
  | none => rw [visit?_none hhoists.rewrites.order hv]
  | some v =>
    rcases hhoists.visits hv with hsame | ⟨-, ref, id, -, hmade⟩
    · rw [hsame]
    · rw [hmade]
      rfl

/-- What an action exhibits: everything that is finished in between is shown once, unless it is the
    source of a clone; only a failure for an annotation that holds no list may leave out some of
    it. -/
def Exhibits {α : Type} (a : Action Conversion α) : Prop :=
  ∀ c : Conversion, c.survey.Anchored [] → ∃ ns, Views ns c (a c).2 ∧
    ((a c).1 ≠ .error .missingChild → Completes ns c (a c).2)

/-- An action that finishes and shows nothing exhibits what it should. -/
theorem exhibits_of_still {α : Type} {a : Action Conversion α} (h : Within Still a) :
    Exhibits a := fun c _ => ⟨[], (h c).views, fun _ => (h c).completes⟩

/-- Actions that exhibit what they should do so one after the other. -/
theorem Exhibits.bind {α β : Type} {a : Action Conversion α} {g : α → Action Conversion β}
    (ha : Exhibits a) (hg : ∀ x, Exhibits (g x)) : Exhibits (a >>= g) := by
  intro c hc
  obtain ⟨ns, hns, hall⟩ := ha c hc
  rw [run_bind]
  rcases hrun : a c with ⟨f | x, d⟩ <;> rw [hrun] at hns hall
  · exact ⟨ns, hns, fun hf => hall fun h => hf (congrArg Except.error (Except.error.inj h))⟩
  · obtain ⟨ms, hms, hall'⟩ := hg x d (hns.anchors [] hc)
    exact ⟨ns ++ ms, hns.trans hms, fun hf => (hall nofun).trans hns (hall' hf)⟩

/-- Settling all visits exhibits what it should, if the override never fails. -/
theorem settleVisits_exhibits (ho : e.override = some o) (hlasting : o.Lasting) :
    Exhibits e.settleVisits := by
  intro c hc
  have hviews := settleVisits_views ho hc
  unfold Meets at hviews
  rcases hrun : e.settleVisits c with ⟨f | u, d⟩ <;> rw [hrun] at hviews
  · obtain ⟨ns, hns⟩ := hviews
    exact ⟨ns, hns, fun hf => absurd (settleVisits_stops ho hlasting c f d hrun)
      fun h => hf (congrArg Except.error h)⟩
  · obtain ⟨ns, hns, hall⟩ := hviews
    exact ⟨ns, hns, fun _ => hall⟩

/-- **Emissions.** Whatever comes of an emission, the override is shown each node that is finished
    by it, once, unless the node is the source of a clone. -/
theorem document_exhibits (ho : e.override = some o) (hlasting : o.Lasting) :
    Exhibits e.document := by
  have hget : Exhibits (get : Action Conversion Conversion) := exhibits_of_still within_get
  have hpure : ∀ {α : Type} (x : α), Exhibits (pure x : Action Conversion α) :=
    fun x => exhibits_of_still (within_pure x)
  have hfail : ∀ {α : Type} (f : Failure), Exhibits (fail f : Action Conversion α) :=
    fun f => exhibits_of_still (fail_still f)
  have hclaim : Exhibits e.claim := hget.bind fun _ => exhibits_of_still fun _ => { }
  have hlist : Exhibits e.listDefinitions := by
    refine hget.bind fun c => Exhibits.bind (exhibits_of_still fun _ => { }) fun _ => ?_
    split
    · exact hfail _
    · exact hpure _
  have hcompose : Exhibits e.compose := hclaim.bind fun _ =>
    (exhibits_of_still hoist_still).bind fun _ =>
      (settleVisits_exhibits ho hlasting).bind fun _ => hlist
  have hfinalize : ∀ v, Exhibits (finalize v) := by
    refine fun v => hget.bind fun c => ?_
    split
    · exact hpure _
    · exact hfail _
  refine hget.bind fun c => ?_
  split
  · exact hfail _
  · refine hcompose.bind fun _ => (hfinalize _).bind fun _ => Exhibits.bind ?_ fun _ => hpure _
    exact hget.bind fun c => exhibits_of_still (onStore_still _)

/-- An emission that returns has finished all visits. -/
theorem document_finishes {doc : Json} (h : Returns e.document c doc d) (n : NodeId) :
    d.waits n = false := by
  obtain ⟨entries, f, -, hcompose, -, -, hsurvey⟩ := document_returns h
  obtain ⟨_, b, -, hdone, hlist⟩ := compose_returns hcompose
  obtain ⟨-, rfl, -⟩ := listDefinitions_returns hlist
  obtain ⟨_, _, -, hsettle⟩ := returns_bind.mp hdone
  unfold waits
  rw [hsurvey]
  split
  · rename_i v hv
    rw [settleVisits_merges hsettle hv]
    rfl
  · rfl

end Emission

end SchemaGraph
