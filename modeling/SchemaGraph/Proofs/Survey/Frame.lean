import SchemaGraph.Proofs.Store.Answers
import SchemaGraph.Survey.Descent

namespace SchemaGraph

open SchemaGraph.Action

/-!
# What a descent leaves alone

A descent enters nodes behind those that were visited before.  Of a node that was visited
before it touches nothing but the marks: how often the node was reached, whether it lies on
a cycle and whether it is the source of a clone.

* `Visit.content`, `Visit.stage`   — what a visit holds besides the marks
* `Conversion.Descends own c c'`   — `c'` has grown out of `c`; of the visits in `c` only those
  of the nodes in `own` have other contents
* `Conversion.Treads n R`          — what the steps at a node keep to
* `Conversion.arrive_within`       — every arrival descends, whatever comes of it
-/

/-- What a visit knows about its node alone: the keywords written, the node passed on, and
    the default found on the way. -/
def Visit.content (v : Visit) : Entries × Option NodeId × Value :=
  (v.fragment, v.target, v.prefault)

/-- How far a visit has come on its way into documents. -/
def Visit.stage (v : Visit) : Option Entries × Value × Bool :=
  (v.definition, v.definitionId, v.merged)

namespace Survey

/-- A visit is found among the first ones, else among the others. -/
theorem find?_append (n : NodeId) (vs ws : List (NodeId × Visit)) :
    find? n (vs ++ ws) = (find? n vs).or (find? n ws) := by
  induction vs with
  | nil => rfl
  | cons p rest ih =>
    obtain ⟨m, v⟩ := p
    by_cases h : m = n <;> simp [find?, h, ih]

/-- Exactly the nodes that are listed have visits. -/
theorem isSome_find? (n : NodeId) (vs : List (NodeId × Visit)) :
    (find? n vs).isSome ↔ n ∈ vs.map (·.1) := by
  induction vs with
  | nil => simp [find?]
  | cons p rest ih =>
    obtain ⟨m, v⟩ := p
    by_cases h : m = n
    · simp [find?, h]
    · simp [find?, h, ih, Ne.symm h]

/-- A node was visited exactly if it stands in the order of visits. -/
theorem has_iff (s : Survey) (n : NodeId) : s.has n = true ↔ n ∈ s.order := isSome_find? n s.visits

/-- A node with a visit was visited. -/
theorem has_of_visit? {s : Survey} {n : NodeId} {v : Visit} (h : s.visit? n = some v) :
    s.has n = true := by simp [has, h]

/-- A node that was visited has a visit. -/
theorem visit?_of_has {s : Survey} {n : NodeId} (h : s.has n = true) :
    ∃ v, s.visit? n = some v := Option.isSome_iff_exists.mp h

/-- A node that is entered is the last one. -/
@[simp] theorem order_enter (s : Survey) (n : NodeId) : (s.enter n).order = s.order ++ [n] := by
  simp [order, enter]

/-- Entering a node leaves the visits of others. -/
theorem visit?_enter_of_ne {s : Survey} {n m : NodeId} (h : m ≠ n) :
    (s.enter n).visit? m = s.visit? m := by
  simp [visit?, enter, find?_append, find?, h.symm]

/-- A node that is entered has an empty visit. -/
theorem visit?_enter_self {s : Survey} {n : NodeId} (h : s.has n = false) :
    (s.enter n).visit? n = some {} := by
  have hnone : find? n s.visits = none := by
    simpa [has, visit?] using h
  simp [visit?, enter, find?_append, find?, hnone]

/-- Behind the entry of a node, a visit is the empty one of that node, or was there before. -/
theorem visit?_enter_cases {s : Survey} {n m : NodeId} {v : Visit} (hn : s.has n = false)
    (h : (s.enter n).visit? m = some v) : m = n ∧ v = {} ∨ m ≠ n ∧ s.visit? m = some v := by
  by_cases hm : m = n
  · subst hm
    exact .inl ⟨rfl, Option.some.inj (h.symm.trans (visit?_enter_self hn))⟩
  · exact .inr ⟨hm, (visit?_enter_of_ne hm).symm.trans h⟩

/-- Behind a change of one visit, a visit is the changed one, or was there before. -/
theorem visit?_modify_cases {s : Survey} {n m : NodeId} {f : Visit → Visit} {v : Visit}
    (h : (s.modify n f).visit? m = some v) :
    (m = n ∧ ∃ w, s.visit? n = some w ∧ f w = v) ∨ (m ≠ n ∧ s.visit? m = some v) := by
  by_cases hm : m = n
  · subst hm
    rw [visit?_modify_self] at h
    exact .inl ⟨rfl, Option.map_eq_some_iff.mp h⟩
  · exact .inr ⟨hm, (visit?_modify_of_ne hm s f).symm.trans h⟩

/-- A change of one visit leaves what it leaves in every visit. -/
theorem map_visit?_modify {α : Type} {g : Visit → α} {f : Visit → Visit}
    (hg : ∀ v, g (f v) = g v) (s : Survey) (n m : NodeId) :
    ((s.modify n f).visit? m).map g = (s.visit? m).map g := by
  by_cases hm : m = n
  · subst hm
    rw [visit?_modify_self, Option.map_map]
    exact congrArg (Option.map · _) (funext hg)
  · rw [visit?_modify_of_ne hm]

end Survey

namespace Conversion

/-- A conversion that has grown by a descent.  The visits of the nodes in `own` may have got
    other contents; all others keep theirs. -/
structure Descends (own : List NodeId) (c c' : Conversion) : Prop where
  store : Store.Keeps c.store c'.store
  linkage : c'.linkage = c.linkage := by rfl
  shown : c'.shown = c.shown := by rfl
  number : c'.survey.number = c.survey.number := by rfl
  counter : c'.survey.counter = c.survey.counter := by rfl
  emitted : c'.survey.emitted = c.survey.emitted := by rfl
  standalone : c'.survey.standalone = c.survey.standalone := by rfl
  order : c.survey.order <+: c'.survey.order
  nodup : c.survey.order.Nodup → c'.survey.order.Nodup
  visits : ∀ {m v}, c.survey.visit? m = some v → ∃ v', c'.survey.visit? m = some v' ∧
    v'.stage = v.stage ∧ (v.cycle.isSome → v'.cycle.isSome) ∧
    (m ∉ own → v'.content = v.content)
  entered : ∀ {m v'}, c.survey.visit? m = none → c'.survey.visit? m = some v' →
    v'.stage = Visit.stage {}

variable {own : List NodeId}

/-- Nothing changes without a descent. -/
theorem Descends.refl (c : Conversion) : Descends own c c where
  store := .refl _
  order := List.prefix_refl _
  nodup := id
  visits h := ⟨_, h, rfl, id, fun _ => rfl⟩
  entered h h' := by simp [h] at h'

/-- Descents may follow each other. -/
theorem Descends.trans {c d e : Conversion} (h₁ : Descends own c d) (h₂ : Descends own d e) :
    Descends own c e where
  store := h₁.store.trans h₂.store
  linkage := h₂.linkage.trans h₁.linkage
  shown := h₂.shown.trans h₁.shown
  number := h₂.number.trans h₁.number
  counter := h₂.counter.trans h₁.counter
  emitted := h₂.emitted.trans h₁.emitted
  standalone := h₂.standalone.trans h₁.standalone
  order := h₁.order.trans h₂.order
  nodup := h₂.nodup ∘ h₁.nodup
  visits h := by
    obtain ⟨v, hv, hstage, hcycle, hcontent⟩ := h₁.visits h
    obtain ⟨w, hw, hstage', hcycle', hcontent'⟩ := h₂.visits hv
    exact ⟨w, hw, hstage'.trans hstage, hcycle' ∘ hcycle,
      fun hm => (hcontent' hm).trans (hcontent hm)⟩
  entered {m v'} hnone hv' := by
    -- The visit was entered by the second part, or by the first and kept by the second.
    cases hd : d.survey.visit? m with
    | none => exact h₂.entered hd hv'
    | some w =>
      obtain ⟨x, hx, hstage, -⟩ := h₂.visits hd
      obtain rfl : x = v' := Option.some.inj (hx.symm.trans hv')
      exact hstage.trans (h₁.entered hnone hd)

instance : Std.Refl (Descends own) := ⟨Descends.refl⟩

instance : Trans (Descends own) (Descends own) (Descends own) := ⟨Descends.trans⟩

/-- A descent may have other contents for more nodes than it does. -/
theorem Descends.mono {more : List NodeId} (hsub : own ⊆ more) {c c' : Conversion}
    (h : Descends own c c') : Descends more c c' :=
  { h with
    visits := fun hv => by
      obtain ⟨v', hv', hstage, hcycle, hcontent⟩ := h.visits hv
      exact ⟨v', hv', hstage, hcycle, fun hm => hcontent fun hmem => hm (hsub hmem)⟩ }

/-- What was visited stays visited. -/
theorem Descends.has {c c' : Conversion} (h : Descends own c c') {n : NodeId}
    (hn : c.survey.has n = true) : c'.survey.has n = true := by
  obtain ⟨v, hv⟩ := Survey.visit?_of_has hn
  obtain ⟨v', hv', -⟩ := h.visits hv
  exact Survey.has_of_visit? hv'

/-! ### Steps of a descent -/

/-- What the steps at a node keep to, but for the visits to other nodes and the marks of
    sources. -/
structure Treads (n : NodeId) (R : Conversion → Conversion → Prop) : Prop where
  fetch : Within R (onStore (Store.fetch n))
  requiredNames : ∀ (side : Side) (shape : List (String × NodeId)),
    Within R (onStore (Store.requiredNames side shape))
  resolve : Within R (onStore (Store.resolve n))
  fail : ∀ f : Failure, Within R (Conversion.fail f : Action Conversion Unit)
  write : ∀ (key : String) (value : Entries → Value),
    Within R (onFragment n fun es => es.set (.str key) (value es))
  merge : ∀ more : Entries, Within R (onFragment n fun es => es.update more)
  passOn : ∀ child : NodeId, Within R (passOn n child)
  prefault : ∀ value : Value, Within R (onVisit n fun v => { v with prefault := value })
  settle : ∀ kind : Kind, Within R (onVisit n (settleDefault kind))

section Treads

variable {R : Conversion → Conversion → Prop} {n : NodeId}
  {visit : NodeId → Path → Action Conversion Unit}

/-- Settling a default keeps to what the steps at the node keep to. -/
theorem Treads.settleDefault [Std.Refl R] (h : Treads n R) (side : Side) (kind : Kind) :
    Within R (if side = .input then onVisit n (settleDefault kind) else pure ()) := by
  split
  · exact h.settle kind
  · exact within_pure _

variable [Trans R R R] (h : Treads n R)
include h

/-- **Steps.** What the steps at a node and the visits to other nodes keep to, every step of a
    recipe keeps to. -/
theorem Treads.perform {side : Side} (hvisit : ∀ m path, Within R (visit m path)) (step : Step)
    (hmark : ∀ child path, step = .inheritSource child path →
      Within R (onVisit child fun v => { v with isSource := true })) :
    Within R (perform side visit n step) := by
  -- One case per step; each writes into the visit of `n`, visits a child or fails.
  cases step with
  | write key value => exact h.write key fun _ => value
  | merge entries => exact h.merge entries
  | visit child path => exact hvisit child path
  | property name child => exact h.write "properties" _
  | require shape =>
    exact .bind (h.requiredNames side shape) fun names => h.write "required" fun _ => _
  | inherit child path => exact .bind (hvisit child path) fun _ => h.passOn child
  | inheritResolved path =>
    refine .bind h.resolve fun answer => ?_
    cases answer with
    | node child => exact .bind (hvisit child path) fun _ => h.passOn child
    | value v => exact h.fail _
  | inheritSource child path =>
    exact .bind (h.passOn child) fun _ => .bind (hvisit child path) fun _ => hmark child path rfl
  | prefault v => exact h.prefault v
  | fail f => exact h.fail f

variable [Std.Refl R]

/-- Steps keep to what the steps at the node keep to, if visits to children and marks of sources do.
    By induction on the steps. -/
theorem Treads.performAll {side : Side} (hvisit : ∀ m path, Within R (visit m path))
    {steps : List Step} (hmark : ∀ child path, .inheritSource child path ∈ steps →
      Within R (onVisit child fun v => { v with isSource := true })) :
    Within R (performAll side visit n steps) := by
  induction steps with
  | nil => exact within_pure _
  | cons step rest ih =>
    refine .bind (h.perform hvisit step fun child path hstep => ?_) fun _ =>
      ih fun child path hrest => hmark child path (List.mem_cons_of_mem _ hrest)
    exact hmark child path (hstep ▸ List.mem_cons_self ..)

/-- Annotating a node keeps to what the steps at the node keep to. -/
theorem Treads.annotate (catalog : String) : Within R (annotate catalog n) := by
  refine .bind within_get fun c => ?_
  split
  · exact h.merge _
  · exact within_pure _

/-- Describing a node keeps to what the steps at the node keep to, if visits to children and marks
    of sources do. -/
theorem Treads.lower {guide : Guide} (hvisit : ∀ m path, Within R (visit m path))
    (hmark : ∀ child : NodeId, Within R (onVisit child fun v => { v with isSource := true }))
    (path : Path) : Within R (lower guide visit n path) := by
  refine .bind h.fetch fun node => .bind within_get fun c => ?_
  refine .bind (h.performAll hvisit fun child _ _ => hmark child) fun _ => ?_
  exact .bind (h.annotate guide.catalog) fun _ => h.settleDefault guide.settings.side node.kind

end Treads

/-- What keeps the store closed is a descent that visits nothing. -/
theorem onStore_within {α : Type} {a : Action Store α} (h : Within Store.Keeps a) :
    Within (Descends own) (onStore a) := fun c =>
  { store := h c.store
    order := List.prefix_refl _
    nodup := id
    visits := fun hv => ⟨_, hv, rfl, id, fun _ => rfl⟩
    entered := fun hn hv => absurd (hn.symm.trans hv) nofun }

/-- A change of one visit that keeps its stage and its mark of a cycle. -/
theorem onVisit_within {n : NodeId} {f : Visit → Visit} (hstage : ∀ v, (f v).stage = v.stage)
    (hcycle : ∀ v, v.cycle.isSome → (f v).cycle.isSome)
    (hcontent : n ∉ own → ∀ v, (f v).content = v.content) :
    Within (Descends own) (onVisit n f) := by
  intro c
  refine
    { store := .refl _
      order := ?_
      nodup := ?_
      visits := fun {m v} hv => ?_
      entered := fun {m v'} hn hv => ?_ }
  · exact ⟨[], (List.append_nil _).trans (Survey.order_modify c.survey n f).symm⟩
  · show _ → (c.survey.modify n f).order.Nodup
    rw [Survey.order_modify]
    exact id
  · show ∃ v', (c.survey.modify n f).visit? m = some v' ∧ _
    by_cases hm : m = n
    · subst hm
      exact ⟨f v, Survey.visit?_modify_of_visit? hv f, hstage v, hcycle v,
        fun h => hcontent h v⟩
    · exact ⟨v, by rw [Survey.visit?_modify_of_ne hm, hv], rfl, id, fun _ => rfl⟩
  -- Changing a visit enters none.
  · have hv : (c.survey.modify n f).visit? m = some v' := hv
    by_cases hm : m = n
    · subst hm
      rw [Survey.visit?_modify_self, hn] at hv
      cases hv
    · rw [Survey.visit?_modify_of_ne hm, hn] at hv
      cases hv

/-- A failure changes no visit. -/
theorem fail_within {α : Type} (f : Failure) :
    Within (Descends own) (fail f : Action Conversion α) :=
  onStore_within fun s => (Store.fail_makes f s).keeps

/-- Recording an event changes no visit. -/
theorem log_within (e : Event) : Within (Descends own) (log e) :=
  onStore_within fun s => (Store.log_makes e s).keeps

/-- The content of a node of its own may be written. -/
theorem onFragment_within (n : NodeId) (f : Entries → Entries) :
    Within (Descends [n]) (onFragment n f) :=
  onVisit_within (fun _ => rfl) (fun _ h => h) fun h => absurd (List.mem_singleton_self n) h

/-- Passing on content changes the visit of the node alone. -/
theorem passOn_within (n child : NodeId) : Within (Descends [n]) (passOn n child) :=
  onVisit_within (fun _ => rfl) (fun _ h => h) fun h => absurd (List.mem_singleton_self n) h

variable {guide : Guide} {visit : NodeId → Path → Action Conversion Unit}

/-- Settling a default leaves how far a visit has come. -/
@[simp] theorem stage_settleDefault (kind : Kind) (v : Visit) :
    (settleDefault kind v).stage = v.stage := rfl

/-- The steps at a node write its own content. -/
theorem treads_within (n : NodeId) : Treads n (Descends [n]) where
  fetch := onStore_within fun s => (Store.fetch_makes n s).keeps
  requiredNames side shape := onStore_within (Store.requiredNames_keeps side shape)
  resolve := onStore_within (Store.resolve_keeps n)
  fail := fail_within
  write _ _ := onFragment_within n _
  merge _ := onFragment_within n _
  passOn := passOn_within n
  prefault _ := onVisit_within (fun _ => rfl) (fun _ h => h)
    fun h => absurd (List.mem_singleton_self n) h
  settle _ := onVisit_within (fun _ => rfl) (fun _ h => h)
    fun h => absurd (List.mem_singleton_self n) h

/-- Marking the source of a clone leaves contents. -/
theorem isSource_within (child : NodeId) :
    Within (Descends own) (onVisit child fun v => { v with isSource := true }) :=
  onVisit_within (fun _ => rfl) (fun _ h => h) fun _ _ => rfl

/-- A step at a node changes the contents of that node alone, if visits to children change none that
    there are. -/
theorem perform_within {side : Side} (hvisit : ∀ m path, Within (Descends []) (visit m path))
    (n : NodeId) (step : Step) : Within (Descends [n]) (perform side visit n step) :=
  (treads_within n).perform (fun m path c => (hvisit m path c).mono (List.nil_subset _)) step
    fun child _ _ => isSource_within child

/-- Steps at a node change the contents of that node alone. -/
theorem performAll_within {side : Side}
    (hvisit : ∀ m path, Within (Descends []) (visit m path)) (n : NodeId) (steps : List Step) :
    Within (Descends [n]) (performAll side visit n steps) :=
  (treads_within n).performAll (fun m path c => (hvisit m path c).mono (List.nil_subset _))
    fun child _ _ => isSource_within child

/-- Describing a node changes the contents of that node alone. -/
theorem lower_within (hvisit : ∀ m path, Within (Descends []) (visit m path)) (n : NodeId)
    (path : Path) : Within (Descends [n]) (lower guide visit n path) :=
  (treads_within n).lower (fun m path c => (hvisit m path c).mono (List.nil_subset _))
    isSource_within path

/-- A visit to a node that was visited before changes no contents. -/
theorem revisit_within (ancestors : List NodeId) (n : NodeId) (path : Path) :
    Within (Descends []) (revisit ancestors n path) := by
  refine .bind (onVisit_within (fun _ => rfl) (fun _ h => h) fun _ _ => rfl) fun _ => ?_
  split
  · exact .bind (onVisit_within (fun _ => rfl) (fun _ _ => rfl) fun _ _ => rfl) fun _ =>
      log_within _
  · exact within_pure _

/-- A conversion that has just entered a node. -/
def entered (c : Conversion) (n : NodeId) : Conversion :=
  { c with survey := c.survey.enter n }

/-- A node that was just entered counts as new. -/
theorem Descends.of_entered {c c' : Conversion} {n : NodeId} (hn : c.survey.has n = false)
    (h : Descends [n] (c.entered n) c') : Descends [] c c' where
  store := h.store
  linkage := h.linkage
  shown := h.shown
  number := h.number
  counter := h.counter
  emitted := h.emitted
  standalone := h.standalone
  order := by
    refine List.IsPrefix.trans ⟨[n], ?_⟩ h.order
    exact (Survey.order_enter c.survey n).symm
  nodup hd := by
    refine h.nodup ?_
    have hmem : n ∉ c.survey.order := fun hmem => by
      rw [← Survey.has_iff, hn] at hmem
      cases hmem
    show (c.survey.enter n).order.Nodup
    rw [Survey.order_enter]
    refine List.nodup_append.mpr ⟨hd, by simp, fun a ha b hb hab => ?_⟩
    rw [List.mem_singleton.mp hb] at hab
    exact hmem (hab ▸ ha)
  -- The new node was not visited before, so the frame for it is not needed any more.
  visits {m v} hv := by
    have hm : m ≠ n := by
      rintro rfl
      simp [Survey.has_of_visit? hv] at hn
    obtain ⟨v', hv', hstage, hcycle, hcontent⟩ := h.visits
      (show (c.entered n).survey.visit? m = some v from (Survey.visit?_enter_of_ne hm).trans hv)
    exact ⟨v', hv', hstage, hcycle, fun _ => hcontent (by simpa using hm)⟩
  -- It was entered as an empty visit, or it is one that was entered further on.
  entered {m v'} hnone hv' := by
    by_cases hm : m = n
    · subst hm
      obtain ⟨w, hw, hstage, -⟩ := h.visits
        (show (c.entered m).survey.visit? m = some {} from Survey.visit?_enter_self hn)
      obtain rfl : w = v' := Option.some.inj (hw.symm.trans hv')
      exact hstage
    · exact h.entered ((Survey.visit?_enter_of_ne hm).trans hnone) hv'

/-- The two sides of an arrival. -/
theorem arrive_eq (depth : Nat) (ancestors : List NodeId) (n : NodeId) (path : Path)
    (c : Conversion) :
    arrive guide depth ancestors n path c =
      if c.survey.has n then revisit ancestors n path c
      else
        match depth with
        | 0 => (fail .endless : Action Conversion Unit) (c.entered n)
        | depth + 1 => lower guide (arrive guide depth (n :: ancestors)) n path (c.entered n) := by
  cases depth <;> (unfold arrive; rw [run_bind]; simp only [run_get]; split <;> rfl)

/-- **Arrivals.** Whatever comes of an arrival, it leaves the contents of all nodes alone that
    were visited before. -/
theorem arrive_within : ∀ (depth : Nat) (ancestors : List NodeId) (n : NodeId) (path : Path),
    Within (Descends []) (arrive guide depth ancestors n path) := by
  intro depth
  induction depth with
  | zero =>
    intro ancestors n path c
    rw [arrive_eq]
    split
    · exact revisit_within ancestors n path c
    · rename_i hn
      exact .of_entered (by simpa using hn) (fail_within _ (c.entered n))
  | succ depth ih =>
    intro ancestors n path c
    rw [arrive_eq]
    split
    · exact revisit_within ancestors n path c
    · rename_i hn
      exact .of_entered (by simpa using hn)
        (lower_within (fun m path => ih (n :: ancestors) m path) n path (c.entered n))

/-- A visit changes no contents that there are. By induction on the nodes that are left to visit. -/
theorem visit_within (n : NodeId) (ancestors : List NodeId) (path : Path) :
    Within (Descends []) (Conversion.visit guide n ancestors path) :=
  .bind within_get fun _ => arrive_within _ ancestors n path

end Conversion

end SchemaGraph
