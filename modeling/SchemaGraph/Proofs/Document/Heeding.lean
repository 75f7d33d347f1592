import SchemaGraph.Proofs.Document.Disclosure
import SchemaGraph.Proofs.Document.Wrapping

namespace SchemaGraph

open SchemaGraph.Action Conversion Emission

/-!
# What an override finds

A node that passes content on is shown to the override when its target is finished.  The target was
shown before, unless it is the source of a clone, and what the override has made of it is what the
node takes over.  Nodes that pass content on to themselves are left out: the first one of a circle
is in progress when it is asked for.

* `Conversion.Heeded`   — a body is what the override has made of it
* `Conversion.Pending`  — what is finished but was not shown leads to the node that is settled
* `Conversion.BuildsOn` — a body that was shown builds on a target that was shown before
* `Conversion.Reveals`  — what is shown in between
* `Emission.settle_closes`  — how settling a node leaves it
* `Emission.settle_reveals` — what settling a node shows
-/

namespace Conversion

variable {o : Override} {target : Target} {reach more : NodeId → Prop} {a c d f : Conversion}
  {n t : NodeId} {own body : Entries} {before : List (NodeId × Entries)} {v w : Visit}

/-- The node is finished, and its body is what the override has made of the one that it was shown;
    the store has only grown since. -/
def Heeded (o : Override) (c : Conversion) (n : NodeId) (shown : Entries) : Prop :=
  ∃ v s, c.survey.visit? n = some v ∧ v.merged = true ∧ Store.Grows s c.store ∧
    v.body = (o s n shown).1

/-- Whatever was shown is heeded. -/
def Heeds (o : Override) (c : Conversion) : Prop := ∀ p ∈ c.shown, c.Heeded o p.1 p.2

/-- A node stays heeded as long as its visit is left and the store grows. -/
theorem Heeded.same (h : c.Heeded o n body) (hn : d.survey.visit? n = c.survey.visit? n)
    (hstore : Store.Grows c.store d.store) : d.Heeded o n body := by
  obtain ⟨v, s, hv, hmerged, hs, hbody⟩ := h
  exact ⟨v, s, hn.trans hv, hmerged, hs.trans hstore, hbody⟩

/-- A node that is heeded does not wait. -/
theorem Heeded.waits (h : c.Heeded o n body) : c.waits n = false := by
  obtain ⟨v, -, hv, hmerged, -⟩ := h
  rw [waits_of_visit? hv, hmerged]
  rfl

/-- What is finished, was not shown and is not the source of a clone passes its content on to the
    node, over some steps. -/
def Pending (c : Conversion) (n : NodeId) : Prop :=
  ∀ m, c.survey.has m = true → c.waits m = false → c.survey.isSource m = false → m ∉ c.seen →
    Relation.TransGen c.Next m n

/-- Where everything that is finished was shown, nothing is left to be shown on the way to a node.
    -/
theorem Covered.pending (h : Covered c) (n : NodeId) : c.Pending n :=
  fun m hm hwaits hsource hseen => absurd (h m hm hwaits hsource) hseen

/-- A body that was shown behind others, made of the keywords `own` of its node and the fragment of
    the target `t`.  The target is finished, and it was shown before, unless it is marked as the
    source of a clone.  If the dialect ignores what stands beside a reference, a reference is asked
    for besides; the lists that the keywords hold are those of the conversion `b`. -/
structure BuildsOn (target : Target) (c b : Conversion) (before : List (NodeId × Entries))
    (own : Entries) (t : NodeId) (body : Entries) : Prop where
  finished : ∃ u, c.survey.visit? t = some u ∧ u.merged = true
  shown : c.survey.isSource t = true ∨ t ∈ before.map (·.1)
  takes : Takes target own t (c.survey.fragment t) body
  asks : target = .draft7 → (c.survey.fragment t).has Visit.refKey = true → b.Attached own →
    c.Demands body t

/-- The target stays as it is. -/
theorem BuildsOn.same (h : c.BuildsOn target a before own t body)
    (ht : d.survey.visit? t = c.survey.visit? t) (hstore : Store.Grows c.store d.store)
    (hnumber : d.survey.number = c.survey.number) : d.BuildsOn target a before own t body := by
  have hfragment : d.survey.fragment t = c.survey.fragment t := fragment_eq ht
  have hsource : d.survey.isSource t = c.survey.isSource t := by
    unfold Survey.isSource
    rw [ht]
  refine ⟨ht ▸ h.finished, hsource ▸ h.shown, hfragment ▸ h.takes, fun htarget href hown => ?_⟩
  exact (h.asks htarget (hfragment ▸ href) hown).same hstore hnumber

/-- The lists that the keywords hold were there before already. -/
theorem BuildsOn.rebase (h : f.BuildsOn target d before own t body)
    (hstore : Store.Grows c.store d.store) : f.BuildsOn target c before own t body :=
  { h with asks := fun htarget href hown => h.asks htarget href (hown.grows hstore) }

/-! ### What is shown in between -/

/-- The override was shown nothing. -/
def Quiet (c d : Conversion) : Prop := d.shown = c.shown

instance : Std.Refl Quiet := ⟨fun _ => rfl⟩

instance : Trans Quiet Quiet Quiet := ⟨fun h₁ h₂ => Eq.trans h₂ h₁⟩

/-- No step of hoisting shows anything. -/
theorem carries_quiet : Carries Quiet where
  visit _ _ _ _ := rfl
  count _ := rfl
  log _ _ := rfl
  fail _ _ _ := rfl

/-- What settling does whatever the graph is like: finished visits stay, definitions stay what they
    are, and what was shown is only added to. -/
structure Moves (c d : Conversion) : Prop where
  advances : Advances c d
  persists : Persists c d
  number : d.survey.number = c.survey.number
  grown : c.shown <+: d.shown

instance : Std.Refl Moves := ⟨fun c => ⟨.of_survey rfl, .refl c, rfl, List.prefix_refl _⟩⟩

instance : Trans Moves Moves Moves where
  trans h₁ h₂ := ⟨h₁.advances.trans h₂.advances, h₁.persists.trans h₂.persists,
    h₂.number.trans h₁.number, h₁.grown.trans h₂.grown⟩

/-- What is shown in between: nodes of a kind that waited, each with a body that builds on the
    target of the node, unless the node passes its content on to itself.  Whatever was shown is
    heeded. -/
structure Reveals (o : Override) (target : Target) (reach : NodeId → Prop) (c d : Conversion) :
    Prop extends Moves c d where
  heeds : c.Heeds o → d.Heeds o
  waited : ∀ {before n body}, before ++ [(n, body)] <+: d.shown → c.shown <+: before →
    reach n ∧ c.waits n = true
  builds : ∀ {before n body v t}, before ++ [(n, body)] <+: d.shown → c.shown <+: before →
    c.survey.visit? n = some v → v.target = some t → ¬ Relation.TransGen c.Next n n →
    d.BuildsOn target c before v.body t body

/-- Nothing comes behind the end. -/
theorem not_prefix_concat {α : Type} {x : α} {before xs : List α} (h : before ++ [x] <+: xs)
    (hb : xs <+: before) : False := by
  have hlength := (h.trans hb).length_le
  rw [List.length_append, List.length_singleton] at hlength
  omega

/-- What was shown was shown before, or has its place in between. -/
theorem mem_shown {p : NodeId × Entries} (h : c.shown <+: d.shown) (hp : p ∈ d.shown) :
    p ∈ c.shown ∨ ∃ before, before ++ [p] <+: d.shown ∧ c.shown <+: before := by
  obtain ⟨views, hviews⟩ := h
  rw [← hviews] at hp ⊢
  refine (List.mem_append.mp hp).imp_right fun hp => ?_
  obtain ⟨front, rest, rfl⟩ := List.append_of_mem hp
  exact ⟨c.shown ++ front, ⟨rest, by simp⟩, List.prefix_append ..⟩

/-- Nothing is shown. -/
theorem Reveals.of_shown (hmoves : Moves c d) (hshown : d.shown = c.shown)
    (hheeds : c.Heeds o → d.Heeds o) : Reveals o target reach c d where
  toMoves := hmoves
  heeds := hheeds
  waited h hb := (not_prefix_concat (hshown ▸ h) hb).elim
  builds h hb := (not_prefix_concat (hshown ▸ h) hb).elim

/-- Nothing is shown in between. -/
theorem Reveals.refl (c : Conversion) : Reveals o target reach c c :=
  .of_shown (Std.Refl.refl c) rfl id

/-- What is shown may be of a larger kind. -/
theorem Reveals.mono (h : Reveals o target reach c d) (hreach : ∀ n, reach n → more n) :
    Reveals o target more c d :=
  { h with waited := fun hd hb => (h.waited hd hb).imp_left (hreach _) }

/-- What waits behind is the same visit before. -/
theorem Advances.waiting_visit? (h : Advances c d) (hv : c.survey.visit? n = some v)
    (hd : d.waits n = true) : d.survey.visit? n = some v := by
  obtain ⟨w, hw, rfl | ⟨-, hmerged, -⟩⟩ := h.visits hv
  · exact hw
  · rw [waits_of_visit? hw, hmerged] at hd
    cases hd

/-- What is shown in two parts is shown in both together. -/
theorem Reveals.trans (h₁ : Reveals o target reach c d) (h₂ : Reveals o target reach d f) :
    Reveals o target reach c f := by
  -- what is shown in between is shown first, or behind that
  have hcases : ∀ {before : List (NodeId × Entries)} {n body},
      before ++ [(n, body)] <+: f.shown →
      before ++ [(n, body)] <+: d.shown ∨ d.shown <+: before := by
    intro before n body h
    rcases List.prefix_or_prefix_of_prefix h h₂.grown with hd | hd
    · exact .inl hd
    · refine (List.prefix_concat_iff.mp hd).imp_left fun heq => ?_
      rw [heq]
  refine ⟨Trans.trans h₁.toMoves h₂.toMoves, h₂.heeds ∘ h₁.heeds, fun h hb => ?_,
    fun {before n body v t} h hb hv ht hloop => ?_⟩
  · rcases hcases h with hd | hd
    · exact h₁.waited hd hb
    · obtain ⟨hreach, hwaits⟩ := h₂.waited h hd
      exact ⟨hreach, h₁.advances.waits hwaits⟩
  · rcases hcases h with hd | hd
    · have hbuilds := h₁.builds hd hb hv ht hloop
      obtain ⟨u, hu, hmerged⟩ := hbuilds.finished
      exact hbuilds.same ((h₂.advances.finished hu hmerged).trans hu.symm) h₂.persists.store
        h₂.number
    · have hv' := h₁.advances.waiting_visit? hv (h₂.waited h hd).2
      exact (h₂.builds h hd hv' ht (h₁.advances.next ▸ hloop)).rebase h₁.persists.store

/-- Of the visits only that of the node changes, lists of annotations may grow, and nothing is said
    about what is shown. -/
structure Leaves (n : NodeId) (c d : Conversion) : Prop where
  others : ∀ m, m ≠ n → d.survey.visit? m = c.survey.visit? m := by exact fun _ _ => rfl
  store : Store.Grows c.store d.store := by exact .refl _
  number : d.survey.number = c.survey.number := by rfl

instance : Std.Refl (Leaves n) := ⟨fun _ => { }⟩

instance : Trans (Leaves n) (Leaves n) (Leaves n) where
  trans h₁ h₂ := ⟨fun m hm => (h₂.others m hm).trans (h₁.others m hm), h₁.store.trans h₂.store,
    h₂.number.trans h₁.number⟩

/-- A change to the visit of the node leaves the others. -/
theorem onVisit_leaves (g : Visit → Visit) : Within (Leaves n) (onVisit n g) :=
  fun c => { others := fun _ hm => Survey.visit?_modify_of_ne hm c.survey g }

end Conversion

namespace Emission

variable {e : Emission} {o : Override} {c d f g : Conversion} {n t : NodeId} {v : Visit}
  {own body : Entries} {reach : NodeId → Prop}

/-! ### Settling -/

/-- Settling moves on, whatever the graph is like. -/
theorem settle_moves (links : Nat) (n : NodeId) : Within Moves (e.settle links n) := by
  have hgrown : Bears fun c d => c.shown <+: d.shown :=
    { visit := fun _ _ _ _ => List.prefix_refl _
      append := fun _ _ _ => List.prefix_refl _
      shown := fun _ _ _ => List.prefix_append ..
      fail := fun _ _ _ => List.prefix_refl _ }
  have : Std.Refl fun c d : Conversion => c.shown <+: d.shown := ⟨fun _ => List.prefix_refl _⟩
  have : Trans (fun c d : Conversion => c.shown <+: d.shown)
      (fun c d : Conversion => c.shown <+: d.shown) (fun c d : Conversion => c.shown <+: d.shown) :=
    ⟨List.IsPrefix.trans⟩
  intro c
  exact ⟨settle_advances links n c, bears_persists.settle links n c,
    (bears_rests.settle links n c).number, hgrown.settle links n c⟩

/-- An override that never fails is shown the body of a node, which it replaces. -/
theorem run_applyOverride (hlasting : o.Lasting) (hv : c.survey.visit? n = some v) :
    applyOverride o n c = (.ok (), { c with
      shown := c.shown ++ [(n, v.body)]
      survey := c.survey.modify n fun v' => v'.withBody (o c.store n v.body).1 }) := by
  have hstop := hlasting c.store n v.body
  unfold applyOverride
  rw [run_bind, run_visitOf, hv]
  dsimp only [Option.getD_some]
  rw [run_bind, run_modify]
  dsimp only
  rw [run_bind, run_get]
  dsimp only
  rw [run_bind]
  rw [hstop]
  rfl

/-- The mark of a node that waits leaves what is heeded. -/
theorem heeds_marked (hn : c.waits n = true) (h : c.Heeds o) : (marked c n).Heeds o := by
  intro p hp
  refine (h p hp).same (visit?_marked_of_ne ?_) (.refl _)
  intro hpn
  rw [← hpn, (h p hp).waits] at hn
  cases hn

/-- Below a node in progress nothing is shown of the node itself. -/
theorem ne_of_shown {target : Target} (hn : c.waits n = true) (hheeds : c.Heeds o)
    (h : Reveals o target reach (marked c n) d) {p : NodeId × Entries} (hp : p ∈ d.shown) :
    p.1 ≠ n := by
  intro hpn
  rcases mem_shown h.grown hp with hp | ⟨before, hd, hb⟩
  · have hold : p ∈ c.shown := hp
    rw [← hpn, (hheeds p hold).waits] at hn
    cases hn
  · have hwaits := (h.waited hd hb).2
    rw [hpn, (marked_views hn).2.1] at hwaits
    cases hwaits

/-- A node in progress is finished behind what was shown below it: it is shown last, or not at all.
    -/
theorem reveals_close {target : Target} (hmoves : Moves c f) (hv : c.survey.visit? n = some v)
    (hfresh : v.merged = false) (h : Reveals o target reach (marked c n) d)
    (hreach : ∀ m, reach m → Relation.TransGen c.Next n m) (hleaves : Leaves n d f)
    (hshown : f.shown = d.shown ∨ ∃ body, f.shown = d.shown ++ [(n, body)] ∧ f.Heeded o n body ∧
      ∀ t, v.target = some t → ¬ Relation.TransGen c.Next n n →
        f.BuildsOn target c d.shown v.body t body) :
    Reveals o target (Relation.ReflTransGen c.Next n) c f := by
  obtain ⟨hothers, hstore, hnumber⟩ := hleaves
  have hn : c.waits n = true := by rw [waits_of_visit? hv, hfresh]; rfl
  obtain ⟨-, hdone, hwaits⟩ := marked_views hn
  have hcases : ∀ {before : List (NodeId × Entries)} {m body}, before ++ [(m, body)] <+: f.shown →
      before ++ [(m, body)] <+: d.shown ∨ before = d.shown ∧ m = n ∧
        ∀ t, v.target = some t → ¬ Relation.TransGen c.Next n n →
          f.BuildsOn target c d.shown v.body t body := by
    intro before m body hf
    rcases hshown with hsame | ⟨body', hlast, -, hbuilds⟩
    · exact .inl (hsame ▸ hf)
    · rw [hlast] at hf
      rcases List.prefix_concat_iff.mp hf with heq | hd
      · obtain ⟨rfl, hentry⟩ := List.append_inj' heq rfl
        obtain ⟨rfl, rfl⟩ := Prod.mk.inj (List.singleton_inj.mp hentry)
        exact .inr ⟨rfl, rfl, hbuilds⟩
      · exact .inl hd
  refine ⟨hmoves, fun hheeds p hp => ?_, fun {before m body} hf hb => ?_,
    fun {before m body u t} hf hb hu ht hloop => ?_⟩
  · have hbelow : ∀ p ∈ d.shown, f.Heeded o p.1 p.2 := fun p hp =>
      (h.heeds (heeds_marked hn hheeds) p hp).same
        (hothers p.1 (ne_of_shown hn hheeds h hp)) hstore
    rcases hshown with hsame | ⟨body, hlast, hheeded, -⟩
    · exact hbelow p (hsame ▸ hp)
    · rw [hlast] at hp
      rcases List.mem_append.mp hp with hp | hp
      · exact hbelow p hp
      · obtain rfl := List.mem_singleton.mp hp
        exact hheeded
  · rcases hcases hf with hd | ⟨-, rfl, -⟩
    · obtain ⟨hm, hmwaits⟩ := h.waited hd hb
      refine ⟨(hreach m hm).to_reflTransGen, ?_⟩
      rwa [← hwaits m fun hmn => by rw [hmn, hdone] at hmwaits; cases hmwaits]
    · exact ⟨.refl, hn⟩
  · rcases hcases hf with hd | ⟨rfl, rfl, hbuilds⟩
    · obtain ⟨hm, hmwaits⟩ := h.waited hd hb
      have hmn : m ≠ n := fun hmn => by rw [hmn, hdone] at hmwaits; cases hmwaits
      have hbuilds := h.builds hd hb ((visit?_marked_of_ne hmn).trans hu) ht
        ((marked_advances c n).next ▸ hloop)
      refine (hbuilds.same (hothers t ?_) hstore hnumber).rebase (.refl _)
      -- else the node would pass its content on to itself
      rintro rfl
      exact hloop (.head ⟨u, hu, ht⟩ (hreach m hm))
    · obtain rfl := Option.some.inj (hu.symm.trans hv)
      exact hbuilds t ht hloop

/-- The last part of finishing a node: the override is shown its body and replaces it, unless the
    node is the source of a clone. -/
theorem amend_shows (ho : e.override = some o) (hlasting : o.Lasting)
    (hn : c.survey.visit? n = some v) (hmerged : v.merged = true) (w : Visit) :
    ∃ d, e.amend n w c = (.ok (), d) ∧ Leaves n c d ∧
      (d.shown = c.shown ∨ d.shown = c.shown ++ [(n, v.body)] ∧ d.Heeded o n v.body) := by
  unfold amend
  rw [ho]
  dsimp only
  split
  · exact ⟨c, rfl, { }, .inl rfl⟩
  · refine ⟨_, run_applyOverride hlasting hn,
      { others := fun m hm => Survey.visit?_modify_of_ne hm c.survey _ }, .inr ⟨rfl, ?_⟩⟩
    exact ⟨_, c.store, Survey.visit?_modify_of_visit? hn _, (v.merged_withBody _).trans hmerged,
      .refl _, v.body_withBody _⟩

/-- Taking over content leaves the visits of other nodes. -/
theorem inherit_leaves (own : Entries) (t : NodeId) (c : Conversion) :
    Leaves n c (e.inherit own t c).2 := by
  have hsurvey := inherit_survey (e := e) own t c
  have hpersists := bears_persists.inherit (e := e) own t c
  exact ⟨fun m _ => by rw [hsurvey], hpersists.store, by rw [hsurvey]⟩

/-- Taking over content shows nothing. -/
theorem inherit_shown (own : Entries) (t : NodeId) (c : Conversion) :
    (e.inherit own t c).2.shown = c.shown := by
  obtain ⟨-, hrun⟩ | ⟨-, ⟨xs, -, hrun⟩ | ⟨number, -, hrun⟩ | ⟨-, hrun⟩⟩ := e.inherit_cases own t c
  · rw [hrun]
  · rw [hrun]
  · rw [hrun]
    rfl
  · rw [hrun]
    exact carries_quiet.fail _ _ c

/-- What is left below a node in progress. -/
def below (e : Emission) (links : Nat) (v : Visit) (c : Conversion) : Conversion :=
  match v.target with
  | none => c
  | some t => (e.settle links t c).2

/-- Below a node without a target nothing is left to settle. -/
theorem below_of_none (links : Nat) (h : v.target = none) (c : Conversion) :
    e.below links v c = c := by
  unfold below
  rw [h]

/-- Below a node with a target this is settled. -/
theorem below_of_some (links : Nat) (h : v.target = some t) (c : Conversion) :
    e.below links v c = (e.settle links t c).2 := by
  unfold below
  rw [h]

/-- The body of the node takes over the content of its target, when this was settled. -/
def TakesOver (e : Emission) (links : Nat) (n : NodeId) (v : Visit) (body : Entries)
    (c d : Conversion) : Prop :=
  ∀ t, v.target = some t → Returns (e.settle links t) c () (e.below links v c) ∧
    ∃ g, Returns (e.inherit v.body t) (e.below links v c) body g ∧ Leaves n g d

/-- A node in progress takes over the content of its target.  If that fails, nothing more is shown.
    -/
theorem finish_leaves (links : Nat) (hn : c.survey.visit? n = some { v with merged := true }) :
    Meets (e.finish links n v) c
      (fun _ d => Leaves n (e.below links v c) d ∧ d.shown = (e.below links v c).shown ∧
        ∃ w, d.survey.visit? n = some w ∧ w.merged = true ∧ e.TakesOver links n v w.body c d)
      (fun d => Leaves n (e.below links v c) d ∧ d.shown = (e.below links v c).shown) := by
  unfold TakesOver below finish
  cases v.target with
  | none => exact ⟨{ }, rfl, _, hn, rfl, nofun⟩
  | some t =>
    have hself := (settle_advances (e := e) links t c).finished hn rfl
    dsimp only
    -- The target is settled first; if that fails, nothing more happens to `n`.
    refine .bind (P := fun _ d => Returns (e.settle links t) c () d) ?_ ?_
    · unfold Meets
      rcases hrun : e.settle links t c with ⟨f | u, d⟩
      · exact ⟨{ }, rfl⟩
      · exact hrun
    intro _ d hsettle
    have hd : (e.settle links t c).2 = d := congrArg (·.2) hsettle
    rw [hd] at hself ⊢
    have hleaves := inherit_leaves (e := e) (n := n) v.body t d
    have hshown := inherit_shown (e := e) v.body t d
    -- Then content is taken over, which leaves all visits.
    refine .bind (P := fun body g => Returns (e.inherit v.body t) d body g) ?_ ?_
    · unfold Meets
      rcases hrun : e.inherit v.body t d with ⟨f | body, g⟩
      · rw [hrun] at hleaves hshown
        exact ⟨hleaves, hshown⟩
      · exact hrun
    intro body g hinherit
    rw [show e.inherit v.body t d = (.ok body, g) from hinherit] at hleaves hshown
    have hwrite := onVisit_leaves (n := n) (fun v => v.withBody body) g
    refine ⟨Trans.trans hleaves hwrite, hshown, _, Survey.visit?_modify_of_visit?
      (survey_of_inherit hinherit ▸ hself) _, Visit.merged_withBody _ _, ?_⟩
    rintro _ ⟨⟩
    rw [Visit.body_withBody]
    exact ⟨hsettle, g, hinherit, hwrite⟩

/-- How a node in progress is left.  It is shown, if at all, behind what is left below it, with the
    content that it has taken over. -/
structure Closes (e : Emission) (o : Override) (links : Nat) (n : NodeId) (v : Visit)
    (c f : Conversion) : Prop where
  leaves : Leaves n (e.below links v c) f
  shown : f.shown = (e.below links v c).shown ∨
    ∃ body, f.shown = (e.below links v c).shown ++ [(n, body)] ∧ f.Heeded o n body ∧
      e.TakesOver links n v body c f

/-- A node that is finished is left as it is. -/
theorem settle_of_merged (links : Nat) (hv : c.survey.visit? n = some v)
    (hmerged : v.merged = true) : e.settle (links + 1) n c = (.ok (), c) := by
  rw [settle_eq, run_bind, run_visitOf, hv, Option.getD_some]
  dsimp only
  rw [if_pos hmerged]
  rfl

/-- A node that waits is marked, finished and shown. -/
theorem settle_of_fresh (links : Nat) (hv : c.survey.visit? n = some v)
    (hfresh : v.merged = false) :
    e.settle (links + 1) n c = (do e.finish links n v; e.amend n v) (marked c n) := by
  rw [settle_eq, run_bind, run_visitOf, hv, Option.getD_some]
  dsimp only
  rw [if_neg (by simp [hfresh]), run_bind]
  rfl

/-- **A step of settling.** With an override that never fails, settling a node that waits marks it,
    settles its target and closes it. -/
theorem settle_closes (ho : e.override = some o) (hlasting : o.Lasting) (links : Nat)
    (hv : c.survey.visit? n = some v) (hfresh : v.merged = false) :
    e.Closes o links n v (marked c n) (e.settle (links + 1) n c).2 := by
  have hcloses : Meets (do e.finish links n v; e.amend n v) (marked c n)
      (fun _ => e.Closes o links n v (marked c n)) (e.Closes o links n v (marked c n)) := by
    refine .bind ((finish_leaves links (visit?_marked_self hv)).mono (fun _ _ h => h)
      fun _ ⟨hleaves, hshown⟩ => ⟨hleaves, .inl hshown⟩) ?_
    rintro _ g ⟨hleaves, hshown, w, hw, hmerged, htakes⟩
    obtain ⟨f, hrun, hlast, hcases⟩ := amend_shows ho hlasting hw hmerged v
    unfold Meets
    rw [hrun]
    refine ⟨Trans.trans hleaves hlast, ?_⟩
    rw [hshown] at hcases
    refine hcases.imp_right fun ⟨hlast', hheeded⟩ => ⟨_, hlast', hheeded, fun t ht => ?_⟩
    obtain ⟨hsettle, g', hinherit, hg⟩ := htakes t ht
    exact ⟨hsettle, g', hinherit, Trans.trans hg hlast⟩
  rw [settle_of_fresh links hv hfresh]
  exact hcloses.state

/-- The target of a node was shown when it is settled, unless it is the source of a clone, or the
    node passes its content on to itself. -/
theorem target_shown (ho : e.override = some o) {links : Nat} (hanchored : c.survey.Anchored [])
    (hv : c.survey.visit? n = some v) (hfresh : v.merged = false) (htarget : v.target = some t)
    (hpending : c.Pending n) (h : Returns (e.settle (links + 1) t) (marked c n) () d)
    (hloop : ¬ Relation.TransGen c.Next n n) :
    d.survey.isSource t = true ∨ t ∈ d.shown.map (·.1) := by
  have hn : c.waits n = true := by rw [waits_of_visit? hv, hfresh]; rfl
  obtain ⟨hmark, -, hothers⟩ := marked_views hn
  have hnext : c.Next n t := ⟨v, hv, htarget⟩
  have htn : t ≠ n := by
    rintro rfl
    exact hloop (.single hnext)
  have hhas : c.survey.has t = true := (hanchored n v t hv htarget).resolve_right List.not_mem_nil
  have hmarked : (marked c n).survey.has t = true := ((marked_advances c n).has t).trans hhas
  obtain ⟨ns, hviews, hall⟩ := (settle_views ho (links + 1) t (hmark.anchors [] hanchored)
    hmarked).of_returns h
  have hseen : d.shown.map (·.1) = c.seen ++ ns := hviews.seen
  rw [hviews.sources, hseen]
  cases hsource : (marked c n).survey.isSource t with
  | true => exact .inl rfl
  | false =>
    refine .inr (List.mem_append.mpr ?_)
    cases hwaits : (marked c n).waits t with
    | true =>
      obtain ⟨u, hu⟩ := Survey.visit?_of_has hmarked
      obtain ⟨w, hw, hmerged⟩ := settle_merges hu h
      exact .inr (hall t hwaits (by rw [waits_of_visit? hw, hmerged]; rfl) hsource)
    | false =>
      -- what is finished and was not shown is in progress, and leads to the node
      refine .inl (by_contra fun hnot => hloop ?_)
      exact .head hnext (hpending t hhas ((hothers t htn).symm.trans hwaits)
        (hmark.sources ▸ hsource) hnot)

/-- What is pending for a node that is marked is pending for its target. -/
theorem pending_marked (hpending : c.Pending n) (hn : c.waits n = true) (hnext : c.Next n t) :
    (marked c n).Pending t := by
  obtain ⟨hmark, -, hothers⟩ := marked_views hn
  intro m hm hwaits hsource hseen
  rw [(marked_advances c n).next]
  by_cases hmn : m = n
  · exact hmn ▸ .single hnext
  · refine .tail (hpending m (((marked_advances c n).has m).symm.trans hm)
      ((hothers m hmn).symm.trans hwaits) (hmark.sources ▸ hsource) hseen) hnext

/-- A node that takes over the content of its target when this was settled builds on it, unless it
    passes its content on to itself. -/
theorem builds_close (ho : e.override = some o) {links : Nat} (hanchored : c.survey.Anchored [])
    (hv : c.survey.visit? n = some v) (hfresh : v.merged = false) (htarget : v.target = some t)
    (hpending : c.Pending n) (hloop : ¬ Relation.TransGen c.Next n n)
    (hsettle : Returns (e.settle (links + 1) t) (marked c n) () d)
    (hinherit : Returns (e.inherit v.body t) d body g) (hleaves : Leaves n g f) :
    f.BuildsOn e.target c d.shown v.body t body := by
  -- A node that passes itself on would be a circle.
  have htn : t ≠ n := by
    rintro rfl
    exact hloop (.single ⟨v, hv, htarget⟩)
  have hsurvey := survey_of_inherit hinherit
  have hstore : Store.Grows c.store d.store :=
    ((marked_persists c n).trans ((bears_persists.settle _ t).of_returns hsettle)).store
  obtain ⟨u, hu⟩ := Survey.visit?_of_has (((marked_advances c n).has t).trans
    ((hanchored n v t hv htarget).resolve_right List.not_mem_nil))
  have htaken : g.BuildsOn e.target c d.shown v.body t body :=
    { finished := by
        rw [hsurvey]
        exact settle_merges hu hsettle
      shown := by
        rw [hsurvey]
        exact target_shown ho hanchored hv hfresh htarget hpending hsettle hloop
      takes := by
        rw [hsurvey]
        exact inherit_takes hinherit
      asks := fun hold href hown =>
        inherit_demands hold (hown.grows hstore) (hsurvey ▸ href) hinherit }
  exact htaken.same (hleaves.others t htn) hleaves.store hleaves.number

/-- **Settling a node.** What is shown on the way builds on targets that were shown before. -/
theorem settle_reveals (ho : e.override = some o) (hlasting : o.Lasting) (links : Nat) (n : NodeId)
    (hanchored : c.survey.Anchored []) (hn : c.survey.has n = true) (hpending : c.Pending n)
    (hlinks : c.waiting < links) :
    Reveals o e.target (Relation.ReflTransGen c.Next n) c (e.settle links n c).2 := by
  induction links generalizing n c with
  | zero => omega
  | succ links ih =>
    obtain ⟨v, hv⟩ := Survey.visit?_of_has hn
    cases hmerged : v.merged with
    | true =>
      rw [settle_of_merged links hv hmerged]
      exact .refl c
    | false =>
      have hmoves := settle_moves (e := e) (links + 1) n c
      have hwaits : c.waits n = true := by rw [waits_of_visit? hv, hmerged]; rfl
      obtain ⟨hmark, hdone, -⟩ := marked_views hwaits
      obtain ⟨hleaves, hshown⟩ := settle_closes ho hlasting links hv hmerged
      cases htarget : v.target with
      | none =>
        -- nothing is shown below the node
        rw [below_of_none links htarget] at hleaves hshown
        have hnothing : Reveals o e.target (fun _ => False) (marked c n) (marked c n) := .refl _
        refine reveals_close hmoves hv hmerged hnothing nofun hleaves (hshown.imp_right ?_)
        rintro ⟨body, hlast, hheeded, -⟩
        refine ⟨body, hlast, hheeded, fun t ht => ?_⟩
        rw [htarget] at ht
        cases ht
      | some t =>
        have hnext : c.Next n t := ⟨v, hv, htarget⟩
        have ht : (marked c n).survey.has t = true := ((marked_advances c n).has t).trans
          ((hanchored n v t hv htarget).resolve_right List.not_mem_nil)
        have hlt := (marked_advances c n).waiting_lt hwaits hdone
        have hreveals := ih t (hmark.anchors [] hanchored) ht (pending_marked hpending hwaits hnext)
          (by omega)
        rw [← below_of_some links htarget, (marked_advances c n).next] at hreveals
        refine reveals_close hmoves hv hmerged hreveals (fun m hm => .head' hnext hm) hleaves
          (hshown.imp_right ?_)
        rintro ⟨body, hlast, hheeded, htakes⟩
        refine ⟨body, hlast, hheeded, fun t' ht' hloop => ?_⟩
        obtain rfl := Option.some.inj (htarget.symm.trans ht')
        obtain ⟨links, rfl⟩ : ∃ k, links = k + 1 := ⟨links - 1, by omega⟩
        obtain ⟨hsettle, g, hinherit, hgf⟩ := htakes t htarget
        exact builds_close ho hanchored hv hmerged htarget hpending hloop hsettle hinherit hgf

/-- Settling covers what it finishes. -/
theorem covered_settle (ho : e.override = some o) {links : Nat} (hanchored : c.survey.Anchored [])
    (hn : c.survey.has n = true) (hcovered : c.Covered) (h : Returns (e.settle links n) c () d) :
    d.Covered := by
  obtain ⟨ns, hviews, hall⟩ := (settle_views ho links n hanchored hn).of_returns h
  exact hcovered.views hviews ((bears_outlines.settle links n).of_returns h) hall

/-- Settling nodes one after the other reveals what settling each of them does. By induction on the
    nodes. -/
theorem settleAll_reveals (ho : e.override = some o) (hlasting : o.Lasting) {links : Nat}
    (ns : List NodeId) (hanchored : c.survey.Anchored []) (hns : ∀ n ∈ ns, c.survey.has n = true)
    (hcovered : c.Covered) (hlinks : c.waiting < links) :
    Reveals o e.target (fun _ => True) c (e.settleAll links ns c).2 := by
  induction ns generalizing c with
  | nil => exact .refl c
  | cons n rest ih =>
    obtain ⟨hn, hrest⟩ := List.forall_mem_cons.mp hns
    have hfirst : Reveals o e.target (fun _ => True) c (e.settle links n c).2 :=
      (settle_reveals ho hlasting links n hanchored hn (hcovered.pending n) hlinks).mono
        fun _ _ => trivial
    unfold settleAll
    rw [run_bind]
    rcases hrun : e.settle links n c with ⟨f | u, d⟩ <;> rw [hrun] at hfirst
    · exact hfirst
    · have hadvances : Advances c d := hfirst.advances
      -- Whatever waits behind the first node has its target among the visited ones still.
      have hanchors : Anchors c d := by
        obtain ⟨_, hviews, -⟩ := (settle_views ho links n hanchored hn).of_returns hrun
        exact hviews.anchors
      exact hfirst.trans (ih (hanchors [] hanchored)
        (fun m hm => (hadvances.has m).trans (hrest m hm))
        (covered_settle ho hanchored hn hcovered hrun)
        (lt_of_le_of_lt hadvances.waiting_le hlinks))

/-- Settling all visits reveals only bodies that build on their targets. -/
theorem settleVisits_reveals (ho : e.override = some o) (hlasting : o.Lasting)
    (hanchored : c.survey.Anchored []) (hcovered : c.Covered) :
    Reveals o e.target (fun _ => True) c (e.settleVisits c).2 := by
  unfold settleVisits
  rw [run_bind, run_get]
  exact settleAll_reveals ho hlasting _ hanchored
    (fun n hn => (Survey.has_iff _ _).mpr (List.mem_reverse.mp hn)) hcovered
    (Nat.lt_succ_of_le c.waiting_le_size)

end Emission

end SchemaGraph
