import SchemaGraph.Proofs.Document.Settling
import SchemaGraph.Proofs.Value.Entries

namespace SchemaGraph

open SchemaGraph.Action Conversion

/-!
# What settling keeps

Whatever the graph and the override are like, settling leaves alone which visits are
definitions, the ids of these and the references to them, and it finishes every visit.  No
keyword that a node has of its own is lost when it takes over the content of another one.

* `Conversion.Persists`  — definitions, their ids and their references are the same
* `Emission.settleVisits_persists` — settling persists, whatever comes of it
* `Emission.settleVisits_merges`   — settling that returns has finished all visits
* `Emission.Takes`       — a body that has taken over the content of a fragment
-/

/-- Whether a node is a definition. -/
def Survey.defines (s : Survey) (n : NodeId) : Bool := ((s.visit? n).bind Visit.definition).isSome

/-- A visit that is as much of a definition as before. -/
structure Visit.Persists (v w : Visit) : Prop where
  hoisted : w.definition.isSome = v.definition.isSome := by rfl
  id : w.definitionId = v.definitionId := by rfl
  cycle : w.cycle = v.cycle := by rfl
  count : w.count = v.count := by rfl
  merged : v.merged = true → w.merged = true := by exact fun h => h
  fragment : v.definition.isSome → w.fragment = v.fragment := by exact fun _ => rfl

/-- A visit is as much of a definition as itself. -/
theorem Visit.Persists.refl (v : Visit) : v.Persists v where

/-- What a visit is stays the same over two changes. -/
theorem Visit.Persists.trans {u v w : Visit} (h₁ : u.Persists v) (h₂ : v.Persists w) :
    u.Persists w where
  hoisted := h₂.hoisted.trans h₁.hoisted
  id := h₂.id.trans h₁.id
  cycle := h₂.cycle.trans h₁.cycle
  count := h₂.count.trans h₁.count
  merged := h₂.merged ∘ h₁.merged
  fragment h := (h₂.fragment (h₁.hoisted ▸ h)).trans (h₁.fragment h)

/-- A new body leaves what a visit is. -/
theorem Visit.persists_withBody (v : Visit) (body : Entries) : v.Persists (v.withBody body) where
  hoisted := v.isSome_definition_withBody body
  id := v.definitionId_withBody body
  cycle := v.cycle_withBody body
  count := v.count_withBody body
  merged h := (v.merged_withBody body).trans h
  fragment h := fragment_withBody h

namespace Conversion

/-- The store has grown, the same nodes are visited, and each visit is as much of a definition as
    before. -/
structure Persists (c c' : Conversion) : Prop where
  store : Store.Grows c.store c'.store := by exact .refl _
  catalog : ∀ name, c'.store.catalog name = c.store.catalog name := by exact fun _ => rfl
  linkage : c'.linkage = c.linkage := by rfl
  counter : c'.survey.counter = c.survey.counter := by rfl
  order : c'.survey.order = c.survey.order := by rfl
  visits : ∀ {n v}, c.survey.visit? n = some v →
    ∃ w, c'.survey.visit? n = some w ∧ v.Persists w := by exact fun h => ⟨_, h, .refl _⟩

/-- Everything persists if nothing changes. -/
theorem Persists.refl (c : Conversion) : Persists c c where

/-- What persists may persist again. -/
theorem Persists.trans {c d e : Conversion} (h₁ : Persists c d) (h₂ : Persists d e) :
    Persists c e where
  store := h₁.store.trans h₂.store
  catalog name := (h₂.catalog name).trans (h₁.catalog name)
  linkage := h₂.linkage.trans h₁.linkage
  counter := h₂.counter.trans h₁.counter
  order := h₂.order.trans h₁.order
  visits h := by
    obtain ⟨v, hv, hpersists⟩ := h₁.visits h
    obtain ⟨w, hw, hpersists'⟩ := h₂.visits hv
    exact ⟨w, hw, hpersists.trans hpersists'⟩

instance : Std.Refl Persists := ⟨Persists.refl⟩

instance : Trans Persists Persists Persists := ⟨Persists.trans⟩

/-- The same nodes are visited behind. -/
theorem Persists.has {c c' : Conversion} (h : Persists c c') (n : NodeId) :
    c'.survey.has n = c.survey.has n := by
  rw [Bool.eq_iff_iff, Survey.has_iff, Survey.has_iff, h.order]

/-- A visit behind, and the one that it was. -/
theorem Persists.back {c c' : Conversion} (h : Persists c c') {n : NodeId} {w : Visit}
    (hw : c'.survey.visit? n = some w) : ∃ v, c.survey.visit? n = some v ∧ v.Persists w := by
  obtain ⟨v, hv⟩ := Survey.visit?_of_has ((h.has n).symm.trans (Survey.has_of_visit? hw))
  obtain ⟨w', hw', hpersists⟩ := h.visits hv
  obtain rfl : w' = w := Option.some.inj (hw'.symm.trans hw)
  exact ⟨v, hv, hpersists⟩

/-- A change to a visit that leaves what the visit is persists. -/
theorem onVisit_persists {n : NodeId} {f : Visit → Visit} (hf : ∀ v : Visit, v.Persists (f v)) :
    Within Persists (onVisit n f) := fun c =>
  { order := Survey.order_modify c.survey n f
    visits := fun {m v} hv => by
      show ∃ w, (c.survey.modify n f).visit? m = some w ∧ v.Persists w
      by_cases hm : m = n
      · subst hm
        exact ⟨f v, Survey.visit?_modify_of_visit? hv f, hf v⟩
      · exact ⟨v, by rw [Survey.visit?_modify_of_ne hm, hv], .refl v⟩ }

/-- A failure leaves all definitions. -/
theorem fail_persists {α : Type} (f : Failure) :
    Within Persists (fail f : Action Conversion α) := by
  intro c
  obtain ⟨c', hrun, hrewrites, hsurvey⟩ := run_fail α f c
  rw [hrun]
  exact
    { store := hrewrites.grows
      catalog := fun name => by rw [hrewrites.store]; rfl
      linkage := hrewrites.linkage
      counter := by rw [hsurvey]
      order := hrewrites.order
      visits := fun hv => by
        rw [hsurvey]
        exact ⟨_, hv, .refl _⟩ }

end Conversion

namespace Emission

variable {e : Emission} {c d : Conversion}

/-- One more element of a list of annotations leaves all definitions. -/
theorem appendShared_persists (number : Nat) (t : NodeId) :
    Within Persists (appendShared number t) := fun c =>
  { store := by
      refine ⟨List.prefix_refl _, fun h => h, fun _ _ _ => rfl, fun {k xs} h => ?_, rfl⟩
      show ∃ ys, (List.modify c.store.lists number _)[k]? = some (xs ++ ys)
      rw [List.getElem?_modify, h]
      split
      · exact ⟨_, rfl⟩
      · exact ⟨[], by rw [List.append_nil]; rfl⟩ }

/-- A relation that each single step of settling keeps to: changes of one visit that persists,
    one more element of a list, and what is left behind by the override and by failures. -/
structure Bears (R : Conversion → Conversion → Prop) : Prop where
  visit : ∀ (n : NodeId) {f : Visit → Visit}, (∀ v : Visit, v.Persists (f v)) →
    Within R (onVisit n f)
  append : ∀ (number : Nat) (t : NodeId), Within R (appendShared number t)
  shown : ∀ (n : NodeId) (body : Entries),
    Within R (modify fun c => { c with shown := c.shown ++ [(n, body)] })
  fail : ∀ (α : Type) (f : Failure), Within R (fail f : Action Conversion α)

/-- The last part of finishing a node: the override sees it, unless it is the source of a
    clone. -/
def amend (e : Emission) (n : NodeId) (v : Visit) : Action Conversion Unit :=
  match e.override with
  | some override => if v.isSource then pure () else applyOverride override n
  | none => pure ()

/-- The parts of finishing a node: its target and its own body, then the override. -/
theorem settle_eq (links : Nat) (n : NodeId) :
    e.settle (links + 1) n = (do
      let v ← visitOf n
      if v.merged then pure ()
      else
        onVisit n fun v => { v with merged := true }
        e.finish links n v
        e.amend n v) := by
  unfold settle finish amend
  refine bind_congr fun v => ?_
  split
  · rfl
  · refine bind_congr fun _ => ?_
    cases v.target with
    | none => cases e.override <;> simp
    | some t => cases e.override <;> simp

section Bears

variable {R : Conversion → Conversion → Prop} [Std.Refl R] [Trans R R R] (h : Bears R)
include h

omit [Trans R R R] in
/-- Taking over content keeps to what the steps of settling keep to. -/
theorem Bears.inherit (own : Entries) (t : NodeId) : Within R (e.inherit own t) := by
  intro c
  obtain ⟨-, hrun⟩ | ⟨-, ⟨xs, -, hrun⟩ | ⟨number, -, hrun⟩ | ⟨-, hrun⟩⟩ := e.inherit_cases own t c
  · rw [hrun]
    exact Std.Refl.refl c
  · rw [hrun]
    exact Std.Refl.refl c
  · rw [hrun]
    exact h.append number t c
  · rw [hrun]
    exact h.fail _ _ c

/-- The override keeps to what the steps of settling keep to. -/
theorem Bears.applyOverride (override : Override) (n : NodeId) :
    Within R (applyOverride override n) := by
  refine .bind (.bind within_get fun _ => within_pure _) fun v => ?_
  refine .bind (h.shown n _) fun _ => .bind within_get fun c => ?_
  dsimp only
  refine .bind (h.visit n fun v => v.persists_withBody _) fun _ => ?_
  split
  · exact h.fail _ _
  · exact within_pure _

/-- Finishing a node keeps to what the steps of settling keep to, if settling its target does. -/
theorem Bears.finish {links : Nat} (hsettle : ∀ t, Within R (e.settle links t)) (n : NodeId)
    (v : Visit) : Within R (e.finish links n v) := by
  unfold Emission.finish
  split
  · exact within_pure _
  · refine .bind (hsettle _) fun _ => .bind (h.inherit _ _) fun body => ?_
    exact h.visit n fun v => v.persists_withBody body

/-- Showing a node keeps to what the steps of settling keep to. -/
theorem Bears.amend (n : NodeId) (v : Visit) : Within R (e.amend n v) := by
  unfold Emission.amend
  split
  · split
    · exact within_pure _
    · exact h.applyOverride _ n
  · exact within_pure _

/-- Settling a node keeps to what its steps keep to. By induction on the links that are followed. -/
theorem Bears.settle (links : Nat) (n : NodeId) : Within R (e.settle links n) := by
  induction links generalizing n with
  | zero => exact within_pure _
  | succ links ih =>
    rw [settle_eq]
    refine .bind (.bind within_get fun _ => within_pure _) fun v => ?_
    split
    · exact within_pure _
    · refine .bind (h.visit n fun v => { merged := fun _ => rfl }) fun _ => ?_
      exact .bind (h.finish ih n v) fun _ => h.amend n v

/-- Settling nodes one after the other keeps to what its steps keep to. -/
theorem Bears.settleAll (links : Nat) (ns : List NodeId) : Within R (e.settleAll links ns) := by
  induction ns with
  | nil => exact within_pure _
  | cons n rest ih => exact .bind (h.settle links n) fun _ => ih

/-- **Steps of settling.** What each step keeps to, settling keeps to, whatever comes of it. -/
theorem Bears.settleVisits : Within R e.settleVisits :=
  .bind within_get fun _ => h.settleAll _ _

end Bears

/-- The steps of settling leave all definitions. -/
theorem bears_persists : Bears Persists where
  visit _ _ := onVisit_persists
  append := appendShared_persists
  shown _ _ _ := { }
  fail _ := fail_persists

/-- **Persistence.** Whatever comes of settling, definitions stay definitions, with their ids and
    their references, and nothing else becomes one. -/
theorem settleVisits_persists : Within Persists e.settleVisits := bears_persists.settleVisits

/-! ### Steps of settling -/

/-- **A step of settling.** Without an override, settling a node finds it finished, or marks it; if
    the node has a target, this is settled next, and its content is taken over. -/
theorem settle_meets (hoverride : e.override = none) {links : Nat} {n : NodeId}
    {P Q : Conversion → Prop} (hfinished : ((c.survey.visit? n).getD {}).merged = true → P c)
    (hplain : ((c.survey.visit? n).getD {}).merged = false →
      ((c.survey.visit? n).getD {}).target = none → P (marked c n))
    (hpassing : ∀ v t, c.survey.visit? n = some v → v.merged = false → v.target = some t →
      Meets (do
        e.settle links t
        let body ← e.inherit v.body t
        onVisit n fun v => v.withBody body) (marked c n) (fun _ => P) Q) :
    Meets (e.settle (links + 1) n) c (fun _ => P) Q := by
  rw [settle_eq]
  refine .bind (P := fun v d => v = (c.survey.visit? n).getD {} ∧ c = d) ⟨rfl, rfl⟩ ?_
  rintro _ _ ⟨rfl, rfl⟩
  split
  · rename_i hmerged
    exact hfinished hmerged
  · rename_i hwaits
    have hfresh : ((c.survey.visit? n).getD {}).merged = false := by simpa using hwaits
    refine .bind (P := fun _ d => d = marked c n) rfl ?_
    rintro _ _ rfl
    -- Only a node that passes content on needs anything besides the mark.
    have hfinish : Meets (e.finish links n ((c.survey.visit? n).getD {})) (marked c n)
        (fun _ => P) Q := by
      unfold finish
      split
      · rename_i hnone
        exact hplain hfresh hnone
      · rename_i t htarget
        cases hv : c.survey.visit? n with
        | none =>
          rw [hv] at htarget
          cases htarget
        | some v =>
          rw [hv, Option.getD_some] at htarget hfresh
          exact hpassing v t hv hfresh htarget
    refine .bind hfinish fun _ d hd => ?_
    unfold amend
    rw [hoverride]
    exact hd

/-- What settling a node does without an override, when it returns. -/
inductive SettlesAs (e : Emission) (links : Nat) (n : NodeId) (c : Conversion) : Conversion → Prop
  | finished (h : ((c.survey.visit? n).getD {}).merged = true) : SettlesAs e links n c c
  | plain (h : ((c.survey.visit? n).getD {}).target = none) : SettlesAs e links n c (marked c n)
  | passing {v : Visit} {t : NodeId} {f g : Conversion} {body : Entries}
      (visited : c.survey.visit? n = some v) (fresh : v.merged = false) (target : v.target = some t)
      (settled : Returns (e.settle links t) (marked c n) () f)
      (inherited : Returns (e.inherit v.body t) f body g) :
      SettlesAs e links n c { g with survey := g.survey.modify n fun v => v.withBody body }

/-- Settling a node without an override comes to one of the four ways. -/
theorem settle_settlesAs (hoverride : e.override = none) {links : Nat} {n : NodeId}
    (h : Returns (e.settle (links + 1) n) c () d) : e.SettlesAs links n c d := by
  have hmeets : Meets (e.settle (links + 1) n) c (fun _ => e.SettlesAs links n c) fun _ => True := by
    refine settle_meets hoverride .finished (fun _ => .plain) fun v t hv hfresh htarget => ?_
    refine meets_of_returns fun _ d hrun => ?_
    obtain ⟨_, f, hsettle, hfinish⟩ := returns_bind.mp hrun
    obtain ⟨body, g, hinherit, hwrite⟩ := returns_bind.mp hfinish
    obtain rfl := returns_onVisit.mp hwrite
    exact .passing hv hfresh htarget hsettle hinherit
  exact hmeets.of_returns h

/-! ### Finished visits -/

/-- A node that was visited is finished when settling it returns. -/
theorem settle_merges {links : Nat} {n : NodeId} {v : Visit} (hv : c.survey.visit? n = some v)
    (h : Returns (e.settle (links + 1) n) c () d) :
    ∃ w, d.survey.visit? n = some w ∧ w.merged = true := by
  rw [settle_eq] at h
  obtain ⟨_, _, hvisit, h₁⟩ := returns_bind.mp h
  obtain ⟨hread, rfl⟩ := Prod.mk.inj hvisit
  rw [hv] at hread
  obtain rfl := Except.ok.inj hread
  rw [Option.getD_some] at h₁
  split at h₁
  · rename_i hmerged
    obtain ⟨-, rfl⟩ := returns_pure.mp h₁
    exact ⟨v, hv, hmerged⟩
  · obtain ⟨_, c₁, hmark, h₂⟩ := returns_bind.mp h₁
    have hmarked := (visit?_onVisit hmark hv).2
    have hrest : Within Persists (do e.finish links n v; e.amend n v) :=
      .bind (bears_persists.finish (bears_persists.settle links) n v) fun _ => bears_persists.amend n v
    obtain ⟨w, hw, hpersists⟩ := (hrest.of_returns h₂).visits hmarked
    exact ⟨w, hw, hpersists.merged rfl⟩

/-- **Finishing.** When settling returns, every visit is finished. -/
theorem settleVisits_merges (h : Returns e.settleVisits c () d) :
    ∀ {n w}, d.survey.visit? n = some w → w.merged = true := by
  -- A node that was settled stays finished while the rest is settled.
  have hmerges : ∀ (links : Nat) (ns : List NodeId) {b : Conversion},
      (∀ n ∈ ns, b.survey.has n = true) → Returns (e.settleAll (links + 1) ns) b () d →
      ∀ n ∈ ns, ∃ w, d.survey.visit? n = some w ∧ w.merged = true := by
    intro links ns
    induction ns with
    | nil => nofun
    | cons n rest ih =>
      intro b hns hrun
      obtain ⟨hn, hrest⟩ := List.forall_mem_cons.mp hns
      obtain ⟨_, b', hfirst, hrun⟩ := returns_bind.mp hrun
      obtain ⟨v, hv⟩ := Survey.visit?_of_has hn
      obtain ⟨w, hw, hmerged⟩ := settle_merges hv hfirst
      obtain ⟨w', hw', hpersists⟩ := ((bears_persists.settleAll _ rest).of_returns hrun).visits hw
      have hstep := (bears_persists.settle (e := e) _ n).of_returns hfirst
      refine List.forall_mem_cons.mpr ⟨⟨w', hw', hpersists.merged hmerged⟩, ?_⟩
      exact ih (fun m hm => (hstep.has m).trans (hrest m hm)) hrun
  intro n w hw
  have hpersists := settleVisits_persists.of_returns h
  have hn := (hpersists.has n).symm.trans (Survey.has_of_visit? hw)
  obtain ⟨_, _, hget, hall⟩ := returns_bind.mp h
  obtain ⟨rfl, rfl⟩ := returns_get.mp hget
  obtain ⟨w', hw', hmerged⟩ := hmerges _ _ (fun m hm =>
    (Survey.has_iff _ _).mpr (List.mem_reverse.mp hm)) hall n
    (List.mem_reverse.mpr ((Survey.has_iff _ _).mp hn))
  obtain rfl := Option.some.inj (hw'.symm.trans hw)
  exact hmerged

/-! ### Content taken over -/

/-- Taking over content leaves all visits alone. -/
theorem inherit_survey (own : Entries) (t : NodeId) (c : Conversion) :
    (e.inherit own t c).2.survey = c.survey := by
  obtain ⟨-, hrun⟩ | ⟨-, ⟨xs, -, hrun⟩ | ⟨number, -, hrun⟩ | ⟨-, hrun⟩⟩ := e.inherit_cases own t c
  · rw [hrun]
  · rw [hrun]
  · rw [hrun]
    rfl
  · rw [hrun]
    obtain ⟨c', hfail, -, hsurvey⟩ := run_fail Entries .missingChild c
    rw [hfail, hsurvey]

/-- Taking over content leaves the survey. -/
theorem survey_of_inherit {own body : Entries} {t : NodeId}
    (h : Returns (e.inherit own t) c body d) : d.survey = c.survey := by
  have hrun := inherit_survey (e := e) own t c
  rwa [show e.inherit own t c = (.ok body, d) from h] at hrun

/-- A body that has taken over the content of a fragment.  In the dialect that ignores all keywords
    beside a reference, a reference becomes one more element of `allOf`; a list of annotations that
    stands apart grows where it stands. -/
def Takes (target : Target) (own : Entries) (t : NodeId) (below body : Entries) : Prop :=
  if below.has Visit.refKey ∧ target = .draft7 then
    match own.get? allOfKey with
    | none => body = own.set allOfKey (.list [.fragment t])
    | some (.items .list xs) => body = own.set allOfKey (.list (xs ++ [.fragment t]))
    | some _ => body = own
  else body = mergeBelow own below

/-- What is returned has taken over the content of the fragment. -/
theorem inherit_takes {own body : Entries} {t : NodeId} (h : Returns (e.inherit own t) c body d) :
    Takes e.target own t (c.survey.fragment t) body := by
  unfold Takes
  unfold Returns at h
  obtain ⟨hbare, hrun⟩ | ⟨hbare, hrun⟩ := e.inherit_cases own t c
  · rw [if_neg hbare]
    cases hrun.symm.trans h
    rfl
  · rw [if_pos hbare]
    obtain ⟨xs, hown, hrun⟩ | ⟨number, hown, hrun⟩ | ⟨-, hrun⟩ := hrun
    · cases hrun.symm.trans h
      obtain ⟨hown, rfl⟩ | hown := hown <;> rw [hown]
      rfl
    · cases hrun.symm.trans h
      rw [hown]
    · exact absurd (hrun.symm.trans h) not_returns_fail

/-- A body that takes over content: as it is, with one more requirement, or over the fragment of
    its target. -/
theorem Takes.cases {target : Target} {own below body : Entries} {t : NodeId}
    (h : Takes target own t below body) :
    body = own ∨ (∃ x, body = own.set allOfKey x) ∨ body = mergeBelow own below := by
  unfold Takes at h
  split at h
  · split at h
    · exact .inr (.inl ⟨_, h⟩)
    · exact .inr (.inl ⟨_, h⟩)
    · exact .inl h
  · exact .inr (.inr h)

/-- Marking a node as finished leaves all definitions. -/
theorem marked_persists (c : Conversion) (n : NodeId) : Persists c (marked c n) :=
  onVisit_persists (fun v => { merged := fun _ => rfl }) c

end Emission

end SchemaGraph
