import SchemaGraph.Proofs.Survey.Failing
import SchemaGraph.Proofs.Survey.Lowering
import SchemaGraph.Proofs.Survey.Preorder

namespace SchemaGraph

open SchemaGraph.Action

/-!
# Marks of clone sources

The source of a clone is marked as soon as the visit to it is over.  Marks stay, and every mark is
owed to a clone that was visited.  The other way round, a descent that returns has marked the
sources of all clones that it has entered.

* `Store.source?`          — the source that a clone takes its content from
* `Conversion.Credits`     — marks stay, and new ones are owed to clones
* `Conversion.Pays`        — the sources of entered clones are marked
* `Conversion.visit_marks` — what was entered for clones alone is marked
-/

/-! ### Clones -/

/-- The source that a clone takes its content from; with a custom lowering it does not. -/
def Node.source? (node : Node) : Option NodeId :=
  if node.lowering ≠ .null ∨ node.parent = .gap then none else some node.parent

/-- The source that the clone of a place takes its content from. -/
def Store.source? (s : Store) (n : NodeId) : Option NodeId := (s.node? n).bind Node.source?

/-- Whether a node is marked as the source of a clone. -/
def Survey.isSource (s : Survey) (n : NodeId) : Bool := ((s.visit? n).map (·.isSource)).getD false

/-- The source of a clone stays its source while the store grows. -/
theorem Store.source?_mono {s t : Store} (h : s.Grows t) {n m : NodeId}
    (hm : s.source? n = some m) : t.source? n = some m := by
  obtain ⟨node, hnode, hsource⟩ := Option.bind_eq_some_iff.mp hm
  exact Option.bind_eq_some_iff.mpr ⟨node, h.node? hnode, hsource⟩

/-- Whether a visited node is marked stands in its visit. -/
theorem Survey.isSource_of_visit? {s : Survey} {n : NodeId} {v : Visit} (h : s.visit? n = some v) :
    s.isSource n = v.isSource := by simp [isSource, h]

/-- Only visited nodes are marked. -/
theorem Survey.has_of_isSource {s : Survey} {n : NodeId} (h : s.isSource n = true) :
    s.has n = true := by
  unfold isSource at h
  cases hv : s.visit? n with
  | none => simp [hv] at h
  | some v => exact has_of_visit? hv

section Recipes

variable {settings : LoweringSettings} {catchall : Option Kind} {node : Node} {path p : Path}
  {child : NodeId}

/-- The rules for the kinds visit no sources of clones. -/
theorem not_mem_kindSteps_inheritSource :
    Step.inheritSource child p ∉ kindSteps settings catchall node path := by
  intro h
  cases byRule_kindSteps h

/-- The recipe of a clone is the visit to its source. -/
theorem recipe_of_source? {m : NodeId} (h : node.source? = some m) :
    node.recipe settings catchall path = [.inheritSource m path] := by
  unfold Node.source? at h
  split at h
  · cases h
  · rename_i hclone
    obtain ⟨hlowering, hparent⟩ := not_or.mp hclone
    cases h
    unfold Node.recipe
    rw [if_neg hlowering, if_pos hparent]

/-- All other recipes visit no sources of clones. -/
theorem recipe_of_source?_none (h : node.source? = none) :
    Step.inheritSource child p ∉ node.recipe settings catchall path := by
  unfold Node.source? at h
  unfold Node.recipe
  split
  · intro hmem
    cases lead?_of_mem (leadsOf_loweringSteps _) hmem
  · rename_i hlowering
    split
    · rename_i hparent
      rw [if_neg (not_or.mpr ⟨hlowering, hparent⟩)] at h
      cases h
    · exact not_mem_kindSteps_inheritSource

end Recipes

namespace Conversion

/-! ### Marks are owed to clones -/

/-- A conversion that has grown by a descent: marks stay, and each new one is owed to a clone that
    was visited. -/
structure Credits (own : List NodeId) (c d : Conversion) : Prop extends Descends own c d where
  kept : ∀ {n}, c.survey.isSource n = true → d.survey.isSource n = true
  owed : c.store.Closed → ∀ {n}, d.survey.isSource n = true →
    c.survey.isSource n = true ∨ ∃ m, d.survey.has m = true ∧ d.store.source? m = some n

variable {own : List NodeId} {c d e : Conversion} {n : NodeId}

/-- No descent owes nothing. -/
theorem Credits.refl (c : Conversion) : Credits own c c where
  toDescends := .refl c
  kept h := h
  owed _ _ h := .inl h

/-- Descents one after the other owe what each of them owes. -/
theorem Credits.trans (h₁ : Credits own c d) (h₂ : Credits own d e) : Credits own c e where
  toDescends := h₁.toDescends.trans h₂.toDescends
  kept h := h₂.kept (h₁.kept h)
  owed hs n hn := by
    obtain ⟨-, hd⟩ := h₁.store hs
    rcases h₂.owed hd hn with hn | hnew
    · refine (h₁.owed hs hn).imp_right ?_
      rintro ⟨m, hm, hsource⟩
      exact ⟨m, h₂.has hm, Store.source?_mono (h₂.store hd).1 hsource⟩
    · exact .inr hnew

instance : Std.Refl (Credits own) := ⟨Credits.refl⟩

instance : Trans (Credits own) (Credits own) (Credits own) := ⟨Credits.trans⟩

/-- A descent may write to more nodes than it does. -/
theorem Credits.mono {more : List NodeId} (hsub : own ⊆ more) (h : Credits own c d) :
    Credits more c d :=
  { h with toDescends := h.toDescends.mono hsub }

/-- A descent that leaves the marks alone. -/
theorem Credits.of_same (h : Descends own c d)
    (hsame : ∀ n, d.survey.isSource n = c.survey.isSource n) : Credits own c d where
  toDescends := h
  kept {n} hn := (hsame n).trans hn
  owed _ n hn := .inl ((hsame n).symm.trans hn)

/-- A change to a visit that leaves its mark leaves all marks. -/
theorem isSource_modify {f : Visit → Visit} (hf : ∀ v, (f v).isSource = v.isSource)
    (s : Survey) (m : NodeId) : (s.modify n f).isSource m = s.isSource m := by
  unfold Survey.isSource
  rw [Survey.map_visit?_modify hf]

/-- What happens in the store alone marks nothing. -/
theorem onStore_credits {α : Type} {a : Action Store α} (h : Within Store.Keeps a) :
    Within (Credits own) (onStore a) := fun c => .of_same (onStore_within h c) fun _ => rfl

/-- A failure marks nothing. -/
theorem fail_credits {α : Type} (f : Failure) :
    Within (Credits own) (fail f : Action Conversion α) :=
  onStore_credits fun s => (Store.fail_makes f s).keeps

/-- A change to a visit that leaves its mark is credited. -/
theorem onVisit_credits {f : Visit → Visit} (h : Within (Descends own) (onVisit n f))
    (hf : ∀ v, (f v).isSource = v.isSource) : Within (Credits own) (onVisit n f) :=
  fun c => .of_same (h c) fun m => isSource_modify hf c.survey m

/-- A change to a fragment marks nothing. -/
theorem onFragment_credits (n : NodeId) (f : Entries → Entries) :
    Within (Credits [n]) (onFragment n f) :=
  onVisit_credits (onFragment_within n f) fun _ => rfl

/-- Passing on content marks nothing. -/
theorem passOn_credits (n child : NodeId) : Within (Credits [n]) (passOn n child) :=
  onVisit_credits (passOn_within n child) fun _ => rfl

variable {guide : Guide} {visit : NodeId → Path → Action Conversion Unit}

/-- The steps at a node mark no sources, but for the visit to the source of a clone. -/
theorem treads_credits (n : NodeId) : Treads n (Credits [n]) where
  fetch := onStore_credits fun s => (Store.fetch_makes n s).keeps
  requiredNames side shape := onStore_credits (Store.requiredNames_keeps side shape)
  resolve := onStore_credits (Store.resolve_keeps n)
  fail := fail_credits
  write _ _ := onFragment_credits n _
  merge _ := onFragment_credits n _
  passOn := passOn_credits n
  prefault value := onVisit_credits ((treads_within n).prefault value) fun _ => rfl
  settle kind := onVisit_credits ((treads_within n).settle kind) fun _ => rfl

/-- A step that is not the one to the source of a clone marks nothing itself. -/
theorem perform_credits {side : Side} (hvisit : ∀ m path, Within (Credits []) (visit m path))
    (n : NodeId) {step : Step} (hstep : ∀ child path, step ≠ .inheritSource child path) :
    Within (Credits [n]) (perform side visit n step) :=
  (treads_credits n).perform (fun m path c => (hvisit m path c).mono (List.nil_subset _)) step
    fun child path heq => absurd heq (hstep child path)

/-- Steps none of which leads to the source of a clone mark nothing themselves. -/
theorem performAll_credits {side : Side} (hvisit : ∀ m path, Within (Credits []) (visit m path))
    (n : NodeId) {steps : List Step} (hsteps : ∀ child path, .inheritSource child path ∉ steps) :
    Within (Credits [n]) (performAll side visit n steps) :=
  (treads_credits n).performAll (fun m path c => (hvisit m path c).mono (List.nil_subset _))
    fun child path hmem => absurd hmem (hsteps child path)

/-- The mark of a source, owed to a clone. -/
theorem Credits.mark (h : Credits own c d) {child : NodeId} (hn : c.survey.has n = true)
    (hclone : c.store.source? n = some child) :
    Credits own c { d with
      survey := d.survey.modify child fun v => { v with isSource := true } } where
  toDescends := by
    refine h.toDescends.trans (onVisit_within (f := fun v => { v with isSource := true })
      (fun _ => rfl) (fun _ h => h) (fun _ _ => rfl) d)
  kept {m} hm := by
    have hmd := h.kept hm
    obtain ⟨v, hv⟩ := Survey.visit?_of_has (Survey.has_of_isSource hmd)
    rw [Survey.isSource_of_visit? hv] at hmd
    by_cases hmn : m = child
    · subst hmn
      exact Survey.isSource_of_visit? (Survey.visit?_modify_of_visit? hv _)
    · rw [Survey.isSource_of_visit? ((Survey.visit?_modify_of_ne hmn ..).trans hv), hmd]
  owed hs m hm := by
    by_cases hmn : m = child
    · -- the new mark is owed to the node itself
      subst hmn
      exact .inr ⟨n, (has_modify ..).trans (h.has hn), Store.source?_mono (h.store hs).1 hclone⟩
    · rcases h.owed hs (n := m) (by
        unfold Survey.isSource at hm ⊢
        rwa [Survey.visit?_modify_of_ne hmn] at hm) with hold | ⟨k, hk, hsource⟩
      · exact .inl hold
      · exact .inr ⟨k, (has_modify ..).trans hk, hsource⟩

/-- The visit to the source of a clone. -/
theorem inheritSource_credits {side : Side}
    (hvisit : ∀ m path, Within (Credits []) (visit m path)) {child : NodeId} (path : Path)
    (hn : c.survey.has n = true) (hclone : c.store.source? n = some child) :
    Credits [n] c (perform side visit n (.inheritSource child path) c).2 := by
  refine Meets.state (.bind (meets_of_state (passOn_credits n child c)) fun _ d hd => ?_)
  refine .bind ((meets_of_state ((hvisit child path d).mono (List.nil_subset _))).mono
    (fun _ _ h => hd.trans h) fun _ h => hd.trans h) fun _ e he => ?_
  exact meets_of_state (he.mark hn hclone)

/-- The recipe of a node: the visit to the source of a clone, or steps that visit no sources. -/
theorem recipe_credits (side : Side) (hvisit : ∀ m path, Within (Credits []) (visit m path))
    {node : Node} (hn : c.survey.has n = true) (hnode : c.store.node? n = some node)
    (settings : LoweringSettings) (catchall : Option Kind) (path : Path) :
    Credits [n] c (performAll side visit n (node.recipe settings catchall path) c).2 := by
  cases hsource : node.source? with
  | none => exact performAll_credits hvisit n (fun _ _ => recipe_of_source?_none hsource) c
  | some m =>
    have hclone : c.store.source? n = some m :=
      Option.bind_eq_some_iff.mpr ⟨node, hnode, hsource⟩
    rw [recipe_of_source? hsource]
    refine Meets.state (.bind (meets_of_state
      (inheritSource_credits hvisit path hn hclone)) fun _ d hd => ?_)
    exact meets_pure hd

/-- Describing a visited node marks at most the source of that node, if it is a clone. -/
theorem lower_credits (hvisit : ∀ m path, Within (Credits []) (visit m path)) (path : Path)
    (hn : c.survey.has n = true) :
    Credits [n] c (lower guide visit n path c).2 := by
  have hfetch : Within (Credits [n]) (onStore (Store.fetch n)) :=
    onStore_credits fun s => (Store.fetch_makes n s).keeps
  refine Meets.state (.bind (hfetch.meets (Q := fun node d => d = c ∧ c.store.node? n = some node)
    fun node d h => ?_) ?_)
  · obtain ⟨s, hfetched, rfl⟩ := returns_onStore.mp h
    obtain ⟨hnode, rfl⟩ := Store.returns_fetch.mp hfetched
    exact ⟨rfl, hnode⟩
  · rintro node d ⟨hd, hnode⟩
    rw [hd]
    refine .bind (P := fun a b => c = a ∧ c = b) ⟨rfl, rfl⟩ ?_
    rintro _ _ ⟨rfl, rfl⟩
    have hall := recipe_credits guide.settings.side hvisit hn hnode guide.settings
      (c.store.catchallKind node) path
    refine .bind (meets_of_state hall) fun _ d hd => ?_
    refine .bind (meets_of_state (hd.trans ((treads_credits n).annotate guide.catalog d))) fun _ e he => ?_
    exact meets_of_state (he.trans ((treads_credits n).settleDefault guide.settings.side node.kind e))

/-- A visit to a node that was visited before marks nothing. -/
theorem revisit_credits (ancestors : List NodeId) (n : NodeId) (path : Path) :
    Within (Credits []) (revisit ancestors n path) := by
  refine .bind (onVisit_credits (onVisit_within (fun _ => rfl) (fun _ h => h) fun _ _ => rfl)
    fun _ => rfl) fun _ => ?_
  split
  · refine .bind (onVisit_credits (onVisit_within (fun _ => rfl) (fun _ _ => rfl) fun _ _ => rfl)
      fun _ => rfl) fun _ => ?_
    exact onStore_credits fun s => (Store.log_makes _ s).keeps
  · exact within_pure _

/-- A node that is entered is not marked, and no other mark changes. -/
theorem isSource_entered (hn : c.survey.has n = false) (m : NodeId) :
    (c.entered n).survey.isSource m = c.survey.isSource m := by
  unfold Survey.isSource entered
  by_cases hm : m = n
  · subst hm
    have hnone : c.survey.visit? m = none := by simpa [Survey.has] using hn
    rw [Survey.visit?_enter_self hn, hnone]
    rfl
  · rw [Survey.visit?_enter_of_ne hm]

/-- A node that was just entered has no mark. -/
theorem Credits.of_entered (hn : c.survey.has n = false) (h : Credits [n] (c.entered n) d) :
    Credits [] c d where
  toDescends := .of_entered hn h.toDescends
  kept {m} hm := h.kept ((isSource_entered hn m).trans hm)
  owed hs m hm := (h.owed hs hm).imp_left fun hold => (isSource_entered hn m).symm.trans hold

/-- **Marks.** Whatever comes of an arrival, marks stay, and new ones are owed to clones. -/
theorem arrive_credits : ∀ (depth : Nat) (ancestors : List NodeId) (n : NodeId) (path : Path),
    Within (Credits []) (arrive guide depth ancestors n path) := by
  intro depth
  induction depth with
  | zero =>
    intro ancestors n path c
    rw [arrive_eq]
    split
    · exact revisit_credits ancestors n path c
    · rename_i hn
      exact .of_entered (by simpa using hn) (fail_credits _ (c.entered n))
  | succ depth ih =>
    intro ancestors n path c
    rw [arrive_eq]
    split
    · exact revisit_credits ancestors n path c
    · rename_i hn
      have hn : c.survey.has n = false := by simpa using hn
      exact .of_entered hn (lower_credits (fun m path => ih (n :: ancestors) m path) path
        (Survey.has_of_visit? (Survey.visit?_enter_self hn)))

/-- Visits mark only what is owed to clones. By induction on the nodes that are left to visit. -/
theorem visit_credits (n : NodeId) (ancestors : List NodeId) (path : Path) :
    Within (Credits []) (Conversion.visit guide n ancestors path) :=
  .bind within_get fun _ => arrive_credits _ ancestors n path

/-! ### Clones mark their sources -/

/-- The sources of all clones that were entered in between are marked; what is a clone can be told
    from a store that holds everything. -/
def Pays (final : Store) (c d : Conversion) : Prop :=
  ∀ n m, c.survey.has n = false → d.survey.has n = true → final.source? n = some m →
    d.survey.isSource m = true

/-- Descents one after the other pay for what each of them enters. -/
theorem Pays.trans {final : Store} (h₁ : Pays final c d) (h₂ : Pays final d e)
    (hde : Credits own d e) : Pays final c e := by
  intro n m hn he hsource
  -- whichever half has entered the clone has marked its source
  cases hd : d.survey.has n with
  | false => exact h₂ n m hd he hsource
  | true => exact hde.kept (h₁ n m hn hd hsource)

/-- Where no node is entered there is nothing to pay. -/
theorem Pays.quiet {final : Store} (horder : d.survey.order = c.survey.order) : Pays final c d := by
  intro n m hn hd
  rw [Survey.has_iff, horder, ← Survey.has_iff, hn] at hd
  cases hd

/-- What is known of visits: they credit, they leave the node visited, and they pay if they
    return. -/
structure Paying (final : Store) (visit : NodeId → Path → Action Conversion Unit) : Prop where
  credits : ∀ m path, Within (Credits []) (visit m path)
  has : ∀ m path c, (visit m path c).2.survey.has m = true
  pays : ∀ {m path c d}, Returns (visit m path) c () d → c.store.Closed →
    Store.Grows d.store final → Pays final c d

variable {final : Store}

/-- A change to a visit enters nothing. -/
theorem pays_onVisit {f : Visit → Visit} {u : Unit} (h : Returns (onVisit n f) c u d) :
    Pays final c d := by
  rw [returns_onVisit] at h
  subst h
  exact .quiet (Survey.order_modify c.survey n f)

/-- What happens in the store alone enters nothing. -/
theorem pays_onStore {α : Type} {a : Action Store α} {x : α} (h : Returns (onStore a) c x d) :
    Pays final c d := by
  obtain ⟨s, -, rfl⟩ := returns_onStore.mp h
  exact .quiet rfl

/-- A step that is not the one to the source of a clone pays for what it enters. -/
theorem perform_pays {side : Side} (hvisit : Paying final visit) {step : Step}
    (hstep : ∀ child path, step ≠ .inheritSource child path) (hs : c.store.Closed)
    (hfinal : Store.Grows d.store final) (h : Returns (perform side visit n step) c () d) :
    Pays final c d := by
  -- Visiting a child pays for it, and setting the target costs nothing.
  have hpassed : ∀ {child : NodeId} {path : Path} {a b : Conversion}, a.store.Closed →
      Store.Grows b.store final →
      Returns (do visit child path; passOn n child) a () b → Pays final a b := by
    intro child path a b ha hb h
    obtain ⟨_, e, he, hpass⟩ := returns_bind.mp h
    have hpasses : Credits [n] e b := (passOn_credits n child).of_returns hpass
    have hpays : Pays final e b := pays_onVisit hpass
    have hstore : e.store = b.store := by rw [returns_onVisit.mp hpass]
    exact (hvisit.pays he ha (hstore ▸ hb)).trans hpays hpasses
  cases step with
  | write key value => exact pays_onVisit h
  | merge entries => exact pays_onVisit h
  | property name child => exact pays_onVisit h
  | prefault v => exact pays_onVisit h
  | visit child path => exact hvisit.pays h hs hfinal
  | inherit child path => exact hpassed hs hfinal h
  | inheritResolved path =>
    obtain ⟨answer, e, he, h⟩ := returns_bind.mp h
    have hask : Credits [] c e := (onStore_credits (Store.resolve_keeps n)).of_returns he
    cases answer with
    | value v => exact absurd h not_returns_fail
    | node child =>
      have hrest : Credits [n] e d := by
        refine Within.of_returns (.bind (fun f => ?_) fun _ => passOn_credits n child) h
        exact (hvisit.credits child path f).mono (List.nil_subset _)
      exact (pays_onStore he).trans (hpassed (hask.store hs).2 hfinal h) hrest
  | require shape =>
    obtain ⟨names, e, he, h⟩ := returns_bind.mp h
    exact (pays_onStore he).trans (pays_onVisit h) ((onFragment_credits n _).of_returns h)
  | inheritSource child path => exact absurd rfl (hstep child path)
  | fail f => exact absurd h not_returns_fail

/-- Steps none of which leads to the source of a clone pay for what they enter. -/
theorem performAll_pays {side : Side} (hvisit : Paying final visit) {steps : List Step}
    (hsteps : ∀ child path, .inheritSource child path ∉ steps) (hs : c.store.Closed)
    (hfinal : Store.Grows d.store final) (h : Returns (performAll side visit n steps) c () d) :
    Pays final c d := by
  induction steps generalizing c with
  | nil =>
    obtain ⟨-, rfl⟩ := returns_pure.mp h
    exact .quiet rfl
  | cons step rest ih =>
    have hfirst : ∀ child path, step ≠ .inheritSource child path :=
      fun child path hstep => hsteps child path (hstep ▸ List.mem_cons_self ..)
    have hrest : ∀ child path, .inheritSource child path ∉ rest :=
      fun child path hmem => hsteps child path (List.mem_cons_of_mem _ hmem)
    obtain ⟨_, e, he, h⟩ := returns_bind.mp h
    have hstep : Credits [n] c e := (perform_credits hvisit.credits n hfirst).of_returns he
    have hmore : Credits [n] e d := (performAll_credits hvisit.credits n hrest).of_returns h
    have hes := (hstep.store hs).2
    exact (perform_pays hvisit hfirst hs ((hmore.store hes).1.trans hfinal) he).trans
      (ih hrest hes h) hmore

/-- The visit to the source of a clone marks it. -/
theorem inheritSource_pays {side : Side} (hvisit : Paying final visit) {child : NodeId} {path : Path}
    (hs : c.store.Closed) (hfinal : Store.Grows d.store final)
    (h : Returns (perform side visit n (.inheritSource child path)) c () d) :
    Pays final c d ∧ d.survey.isSource child = true := by
  obtain ⟨_, e, hpass, h⟩ := returns_bind.mp h
  obtain ⟨_, b, hb, hmark⟩ := returns_bind.mp h
  have hquiet : Pays final c e := pays_onVisit hpass
  have hpassed : Credits [n] c e := (passOn_credits n child).of_returns hpass
  have hstore : b.store = d.store := by rw [returns_onVisit.mp hmark]
  have hdescent := (hvisit.credits child path).of_returns hb
  have hhas : b.survey.has child = true := by
    have := hvisit.has child path e
    rwa [show visit child path e = (.ok (), b) from hb] at this
  obtain ⟨v, hv⟩ := Survey.visit?_of_has hhas
  obtain ⟨-, hmarked⟩ := visit?_onVisit hmark hv
  refine ⟨?_, Survey.isSource_of_visit? hmarked⟩
  have hpays : Pays final e b := hvisit.pays hb (hpassed.store hs).2 (hstore ▸ hfinal)
  have hbefore : Pays final c b := hquiet.trans hpays hdescent
  intro k m hk hkd hsource
  have hkb : b.survey.has k = true := by
    rw [returns_onVisit.mp hmark] at hkd
    exact (has_modify ..).symm.trans hkd
  have hold := hbefore k m hk hkb hsource
  -- one more mark takes none away
  obtain ⟨w, hw⟩ := Survey.visit?_of_has (Survey.has_of_isSource hold)
  by_cases hm : m = child
  · subst hm
    exact Survey.isSource_of_visit? hmarked
  · rw [returns_onVisit.mp hmark]
    unfold Survey.isSource at hold ⊢
    rwa [Survey.visit?_modify_of_ne hm]

/-- Annotating a node enters nothing. -/
theorem annotate_pays {catalog : String} (h : Returns (annotate catalog n) c () d) :
    Pays final c d := by
  obtain ⟨_, _, hget, hput⟩ := returns_bind.mp h
  obtain ⟨rfl, rfl⟩ := returns_get.mp hget
  split at hput
  · exact pays_onVisit hput
  · obtain ⟨-, rfl⟩ := returns_pure.mp hput
    exact .quiet rfl

/-- Settling a default enters nothing. -/
theorem settleDefault_pays {side : Side} {kind : Kind}
    (h : Returns (if side = .input then onVisit n (settleDefault kind) else pure ()) c () d) :
    Pays final c d := by
  split at h
  · exact pays_onVisit h
  · obtain ⟨-, rfl⟩ := returns_pure.mp h
    exact .quiet rfl

/-- A node that is lowered has marked the sources below it, and its own one if it is a clone. -/
theorem lower_pays (hvisit : Paying final visit) {path : Path} (hs : c.store.Closed)
    (hn : c.survey.has n = true) (hfinal : Store.Grows d.store final)
    (h : Returns (lower guide visit n path) c () d) :
    Pays final c d ∧ ∀ m, final.source? n = some m → d.survey.isSource m = true := by
  obtain ⟨node, b, e, hnode, hb, he, hsettle⟩ := lower_returns h
  have hdefault : Credits [n] e d := ((treads_credits n).settleDefault _ node.kind).of_returns hsettle
  have hbehind : Credits [n] b d :=
    (((treads_credits n).annotate guide.catalog).of_returns he).trans hdefault
  have hpaid : Pays final b d := (annotate_pays he).trans (settleDefault_pays hsettle) hdefault
  have hall : Credits [n] c b := by
    have hcredits := recipe_credits guide.settings.side hvisit.credits hn hnode
      guide.settings (c.store.catchallKind node) path
    rwa [show performAll _ visit n _ c = (.ok (), b) from hb] at hcredits
  have hbfinal : Store.Grows b.store final := (hbehind.store (hall.store hs).2).1.trans hfinal
  have hsource? : final.source? n = node.source? := by
    rw [Store.source?, ((hall.store hs).1.trans hbfinal).node? hnode]
    rfl
  -- a clone does nothing but visit its source, and nothing else does that
  cases hsource : node.source? with
  | none =>
    have hpays : Pays final c b :=
      performAll_pays hvisit (fun _ _ => recipe_of_source?_none hsource) hs hbfinal hb
    refine ⟨hpays.trans hpaid hbehind, fun m hm => ?_⟩
    rw [hsource?, hsource] at hm
    cases hm
  | some k =>
    rw [recipe_of_source? hsource] at hb
    obtain ⟨_, a, ha, hdone⟩ := returns_bind.mp hb
    obtain ⟨-, rfl⟩ := returns_pure.mp hdone
    obtain ⟨hpays, hmarked⟩ := inheritSource_pays hvisit hs hbfinal ha
    refine ⟨hpays.trans hpaid hbehind, fun m hm => ?_⟩
    rw [hsource?, hsource] at hm
    cases hm
    exact hbehind.kept hmarked

/-- A visit to a node that was visited before enters nothing. -/
theorem revisit_pays {ancestors : List NodeId} {path : Path} (hn : c.survey.has n = true)
    (h : Returns (revisit ancestors n path) c () d) : Pays final c d := by
  obtain ⟨v, hv⟩ := Survey.visit?_of_has hn
  exact .quiet (revisit_returns hv h).1

/-- **Arrivals pay.** An arrival that returns has marked the sources of all clones that it has
    entered. -/
theorem arrive_paying (final : Store) (depth : Nat) (ancestors : List NodeId) :
    Paying final (arrive guide depth ancestors) := by
  induction depth generalizing ancestors with
  | zero =>
    refine ⟨arrive_credits 0 ancestors, has_arrive 0 ancestors, fun {m path c d} h _ _ => ?_⟩
    unfold Returns at h
    rw [arrive_eq] at h
    split at h
    · rename_i hm
      exact revisit_pays hm h
    · exact absurd h not_returns_fail
  | succ depth ih =>
    refine ⟨arrive_credits _ ancestors, has_arrive _ ancestors, fun {m path c d} h hs hfinal => ?_⟩
    unfold Returns at h
    rw [arrive_eq] at h
    split at h
    · rename_i hm
      exact revisit_pays hm h
    · rename_i hm
      have hm : c.survey.has m = false := by simpa using hm
      obtain ⟨hpays, hown⟩ := lower_pays (c := c.entered m) (ih (m :: ancestors)) hs
        (Survey.has_of_visit? (Survey.visit?_enter_self hm)) hfinal h
      intro k l hk hkd hsource
      -- What the node itself owes is paid by its own recipe; the rest was owed below it.
      by_cases hkm : k = m
      · exact hown l (hkm ▸ hsource)
      · refine hpays k l ?_ hkd hsource
        show (Survey.visit? (c.survey.enter m) k).isSome = false
        rw [Survey.visit?_enter_of_ne hkm]
        exact hk

end Conversion

/-! ### Nodes that clones alone lead to -/

/-- What is entered stands among the nodes to go through, or an entered node leads to it. -/
theorem DepthFirst.entered_from {α : Type} {next : α → List α} {seen out ns : List α}
    (h : DepthFirst next seen ns out) :
    ∀ m ∈ out, m ∉ seen → m ∈ ns ∨ ∃ k ∈ out, k ∉ seen ∧ m ∈ next k := by
  induction h with
  | done seen => exact fun m hm hnew => absurd hm hnew
  | again _ _ ih => exact fun m hm hnew => (ih m hm hnew).imp_left (List.mem_cons_of_mem _)
  | @enter seen below rest out n hn hbelow h ihbelow ih =>
    intro m hm hnew
    have hentered : n ∈ out := h.isPrefix.subset
      (hbelow.isPrefix.subset (List.mem_append_right _ (List.mem_singleton_self n)))
    by_cases hmn : m = n
    · exact .inl (hmn ▸ List.mem_cons_self ..)
    by_cases hmbelow : m ∈ below
    · rcases ihbelow m hmbelow (by simp [hnew, hmn]) with hnext | ⟨k, hk, hkseen, hnext⟩
      · exact .inr ⟨n, hentered, hn, hnext⟩
      · exact .inr ⟨k, h.isPrefix.subset hk, fun hks => hkseen (List.mem_append_left _ hks), hnext⟩
    · rcases ih m hm hmbelow with hrest | ⟨k, hk, hkbelow, hnext⟩
      · exact .inl (List.mem_cons_of_mem _ hrest)
      · refine .inr ⟨k, hk, fun hks => hkbelow ?_, hnext⟩
        exact hbelow.isPrefix.subset (List.mem_append_left _ hks)

namespace Conversion

variable {guide : Guide} {c d : Conversion} {n m : NodeId}

/-- **Sources of clones.** A descent that returns has marked every node that it has entered below
    its root and that clones alone lead to. -/
theorem visit_marks {ancestors : List NodeId} {path : Path} (hs : c.store.Closed)
    (h : Returns (Conversion.visit guide n ancestors path) c () d) (hm : c.survey.has m = false)
    (hmd : d.survey.has m = true) (hmn : m ≠ n)
    (hclones : ∀ k, d.survey.has k = true → d.store.Edge guide.settings.side k m →
      d.store.source? k = some m) : d.survey.isSource m = true := by
  obtain ⟨a, b, hget, harrive⟩ := returns_bind.mp h
  rw [(returns_get.mp hget).2] at harrive
  have hwalks := (arrive_walking d.store _ ancestors).walks harrive hs (.refl _)
  have hnew : m ∉ c.survey.order := fun hmem => by
    rw [← Survey.has_iff, hm] at hmem
    cases hmem
  rcases hwalks.order.entered_from m ((Survey.has_iff _ m).mp hmd) hnew with hroot | ⟨k, hk, hkc, hnext⟩
  · exact absurd (List.mem_singleton.mp hroot) hmn
  · have hkd := (Survey.has_iff _ k).mpr hk
    have hkc : c.survey.has k = false := by
      rw [Bool.eq_false_iff, Ne, Survey.has_iff]
      exact hkc
    exact (arrive_paying d.store _ ancestors).pays harrive hs (.refl _) k m hkc hkd
      (hclones k hkd (Store.mem_children.mp hnext))

end Conversion

end SchemaGraph
