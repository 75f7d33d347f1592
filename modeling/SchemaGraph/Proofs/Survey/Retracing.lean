import SchemaGraph.Proofs.Store.Echoes
import SchemaGraph.Proofs.Survey.Cycles
import SchemaGraph.Proofs.Survey.Lowering
import SchemaGraph.Proofs.Survey.Replaying

namespace SchemaGraph

open SchemaGraph.Action

/-!
# Descents among known nodes

A node below which everything was explored before can be explored again, alone: all lazy nodes on
the way have answered, no step of a recipe fails, and no descent goes deeper than there are nodes.
What is found of each node is what was found before, and nothing is left in the store but events.

* `Store.optional?_extent` — what is answered at all is answered within the bound
* `Conversion.Retraces`    — a survey of known nodes, over a store that was left alone
* `Conversion.arrive_retraces` — arrivals at known nodes return
* `Converter.process_retraces` — a known node can be explored alone
* `Explored.same_content`  — two surveys of the same nodes hold the same of them
-/

namespace Store

variable {s t : Store} {side : Side} {links : Nat} {n : NodeId}

/-! ### Questions -/

/-- There are no more nodes than the store holds. -/
theorem length_le_of_nodup {ns : List NodeId} (hnodup : ns.Nodup)
    (hns : ∀ n ∈ ns, (s.node? n).isSome) : ns.length ≤ s.nodes.length := by
  have hsub : ns ⊆ (List.range s.nodes.length).map .node := by
    intro n hn
    obtain ⟨node, hnode⟩ := Option.isSome_iff_exists.mp (hns n hn)
    cases n with
    | gap => cases hnode
    | node i =>
      refine List.mem_map_of_mem (List.mem_range.mpr ?_)
      exact (List.getElem?_eq_some_iff.mp hnode).1
  have hle := (hnodup.subperm hsub).length_le
  rwa [List.length_map, List.length_range] at hle

/-- A question that is passed on meets no node twice, if it comes to an answer: the nodes on the
    path are those that are further from it. -/
theorem optional?_within {b : Bool} (h : s.optional? side links n = some b) {depth : Nat}
    {path : List NodeId} (hnodup : path.Nodup)
    (hpath : ∀ m ∈ path, (s.node? m).isSome ∧ s.optional? side links m = none)
    (hdepth : s.nodes.length < depth + path.length) : s.optional? side depth n = some b := by
  induction links generalizing depth path n with
  | zero => cases h
  | succ links ih =>
    have hfewer : ∀ m ∈ path, (s.node? m).isSome ∧ s.optional? side links m = none := by
      intro m hm
      refine ⟨(hpath m hm).1, Option.eq_none_iff_forall_ne_some.mpr fun a ha => ?_⟩
      have hmore := optional?_mono (.refl s) (Nat.le_succ links) ha
      rw [(hpath m hm).2] at hmore
      cases hmore
    cases hless : s.optional? side links n with
    | some a =>
      have hmore := optional?_mono (.refl s) (Nat.le_succ links) hless
      obtain rfl := Option.some.inj (hmore.symm.trans h)
      exact ih hless hnodup hfewer hdepth
    | none =>
      have hfresh : n ∉ path := fun hmem => by
        rw [(hpath n hmem).2] at h
        cases h
      unfold optional? at h
      cases hnode : s.node? n with
      | none =>
        rw [hnode] at h
        cases h
      | some node =>
        have hexists : ∀ m ∈ n :: path, (s.node? m).isSome :=
          List.forall_mem_cons.mpr ⟨by rw [hnode]; rfl, fun m hm => (hpath m hm).1⟩
        have hcons := List.nodup_cons.mpr ⟨hfresh, hnodup⟩
        have hlength := length_le_of_nodup hcons hexists
        rw [List.length_cons] at hlength
        obtain ⟨depth, rfl⟩ : ∃ k, depth = k + 1 := ⟨depth - 1, by omega⟩
        -- the node itself is further from the answer than those behind it
        have hnext : ∀ {m}, s.optional? side links m = some b →
            s.optional? side depth m = some b := fun hm =>
          ih hm hcons (List.forall_mem_cons.mpr ⟨⟨by rw [hnode]; rfl, hless⟩, hfewer⟩)
            (by rw [List.length_cons]; omega)
        unfold optional?
        simp only [hnode] at h ⊢
        cases ho : node.optionality side with
        | known answer => simpa only [ho] using h
        | sameAs m =>
          simp only [ho] at h ⊢
          split at h
          · rename_i hm
            rw [if_pos hm]
            exact h
          · rename_i hm
            rw [if_neg hm]
            exact hnext h
        | asResolved =>
          simp only [ho] at h ⊢
          split at h
          · exact hnext h
          · cases h

/-- What is answered at all is answered within the bound for questions. -/
theorem optional?_extent {b : Bool} (h : s.optional? side links n = some b) :
    s.optional? side (s.extent + 1) n = some b := by
  refine optional?_within h List.nodup_nil nofun ?_
  unfold extent
  simp only [List.length_nil]
  omega

/-- The question which properties must be there is answered without a getter, if the answer can be
    read off. -/
theorem run_requiredNames {shape : List (String × NodeId)} {names : List String}
    (h : s.required? side links shape = some names) (ht : s.Recalls t) :
    requiredNames side shape t = (.ok names, t) := by
  induction shape generalizing names with
  | nil =>
    cases h
    rfl
  | cons p rest ih =>
    obtain ⟨name, child⟩ := p
    unfold required? at h
    split at h
    · rename_i skip others hskip hothers
      cases h
      -- The pure answer had at most as many links as the run allows itself.
      have hasked : isOptional side child t = (.ok skip, t) :=
        isOptionalWithin_of_optional?
          (ht.optional? (Nat.succ_le_succ ht.extent) (optional?_extent hskip))
      unfold requiredNames
      rw [run_bind, hasked]
      dsimp only
      rw [run_bind, ih hothers]
      rfl
    · cases h

/-- Events are not recalled. -/
theorem Recalls.echoes {u : Store} (h : s.Recalls t) (hu : t.Echoes u) : s.Recalls u := by
  obtain ⟨events, rfl⟩ := hu.exists_eq
  exact ⟨h.nodes, h.resolved, h.notes, h.extent⟩

/-- What a node contributes depends neither on surveys that are over nor on events. -/
theorem contents?_archive (archive : List (List (NodeId × Entries))) (events : List Event)
    {guide : Guide} (links : Nat) (n : NodeId) :
    ({ s with archive, events } : Store).contents? guide links n = s.contents? guide links n := by
  have hnode : ∀ n, ({ s with archive, events } : Store).node? n = s.node? n := by
    intro n
    cases n <;> rfl
  -- No question about a node looks at the archive or the events; induction on the links.
  have hoptional : ∀ side links n,
      ({ s with archive, events } : Store).optional? side links n = s.optional? side links n := by
    intro side links
    induction links with
    | zero => exact fun _ => rfl
    | succ links ih =>
      intro n
      unfold Store.optional?
      simp only [hnode, ih]
      rfl
  have hrequired : ∀ side links,
      ({ s with archive, events } : Store).required? side links = s.required? side links := by
    intro side links
    funext shape
    induction shape with
    | nil => rfl
    | cons p rest ih =>
      obtain ⟨name, child⟩ := p
      unfold Store.required?
      rw [hoptional, ih]
  unfold Store.contents? Store.catchallKind
  simp only [hnode, hrequired]
  rfl

end Store

/-! ### Steps that are known -/

namespace Step

variable {required : List (String × NodeId) → Option (List String)} {answer : Option Resolved}

/-- What a step asks for can be read off. -/
def Answered (required : List (String × NodeId) → Option (List String))
    (answer : Option Resolved) (step : Step) : Prop :=
  ∃ v w, replay required answer v step = some w

/-- Steps that were replayed can be read off, each of them. -/
theorem answered_of_replayAll {steps : List Step} {v w : Visit}
    (h : replayAll required answer steps v = some w) :
    ∀ step ∈ steps, step.Answered required answer := by
  induction steps generalizing v with
  | nil => nofun
  | cons step rest ih =>
    obtain ⟨u, hu, h⟩ := replayAll_cons.mp h
    exact List.forall_mem_cons.mpr ⟨⟨v, u, hu⟩, ih h⟩

/-- A step that can be read off does not fail. -/
theorem runs_of_answered {steps : List Step}
    (h : ∀ step ∈ steps, step.Answered required answer) : Runs steps := by
  intro f hf
  obtain ⟨v, w, hw⟩ := h _ hf
  cases hw

end Step

namespace Conversion

/-! ### Descents -/

/-- The ancestors are visited, and all that is visited are known nodes.  The store has changed in
    its events alone. -/
structure Retraces (base : Store) (known : Survey) (ancestors : List NodeId) (c : Conversion) :
    Prop where
  store : base.Echoes c.store
  visited : ∀ n, c.survey.has n = true → known.has n = true
  beneath : ∀ n ∈ ancestors, c.survey.has n = true

variable {guide : Guide} {s base : Store} {known : Survey} {ancestors : List NodeId}

/-- A change of one visit enters nothing. -/
theorem onVisit_retraces (n : NodeId) (f : Visit → Visit) :
    Secures (Retraces base known ancestors) (onVisit n f) := by
  refine secures_modify fun c hc => ?_
  have hhas : ∀ m, (c.survey.modify n f).has m = c.survey.has m := fun m => by
    rw [Bool.eq_iff_iff, Survey.has_iff, Survey.has_iff, Survey.order_modify]
  exact ⟨hc.store, fun m hm => hc.visited m ((hhas m).symm.trans hm),
    fun m hm => (hhas m).trans (hc.beneath m hm)⟩

/-- An event changes nothing that is retraced. -/
theorem log_retraces (e : Event) : Secures (Retraces base known ancestors) (log e) := by
  intro c hc
  obtain ⟨events, hevents⟩ := hc.store.exists_eq
  refine ⟨?_, hc.visited, hc.beneath⟩
  show base.Echoes (c.store.record e)
  rw [hevents]
  rfl

/-- A question that the store answers without changing. -/
theorem onStore_retraces {α : Type} {a : Action Store α} {x : α}
    (ha : ∀ t, base.Echoes t → a t = (.ok x, t)) {c : Conversion}
    (hc : Retraces base known ancestors c) :
    Meets (onStore a) c (fun y d => x = y ∧ c = d) fun _ => False := by
  unfold Meets onStore
  rw [ha c.store hc.store]
  exact ⟨rfl, rfl⟩

variable {visit : NodeId → Path → Action Conversion Unit} {n : NodeId} {links : Nat}

/-- A step of a recipe that can be read off, and that leads to known nodes. -/
theorem perform_retraces (hbase : s.Recalls base)
    (hvisit : ∀ m path, known.has m = true → Secures (Retraces base known ancestors) (visit m path))
    {step : Step}
    (hstep : step.Answered (s.required? guide.settings.side links) (s.resolved? n))
    (hlead : ∀ lead ∈ step.lead?, ∃ m, s.follow? n lead = some m ∧ known.has m = true) :
    Secures (Retraces base known ancestors) (perform guide.settings.side visit n step) := by
  -- Children are known nodes, so that visiting them retraces.
  have hchild : ∀ {m}, step.lead? = some (.child m) → known.has m = true := by
    intro m hm
    obtain ⟨k, hk, hknown⟩ := hlead _ hm
    cases hk
    exact hknown
  obtain ⟨v, w, hw⟩ := hstep
  cases step with
  | write key value => exact onVisit_retraces n _
  | merge entries => exact onVisit_retraces n _
  | visit child path => exact hvisit child path (hchild rfl)
  | property name child => exact onVisit_retraces n _
  | require shape =>
    obtain ⟨names, hnames, -⟩ := Step.replay_require.mp hw
    intro c hc
    -- The store has the answers, and asking again changes nothing but events.
    refine (onStore_retraces (fun t ht => Store.run_requiredNames hnames (hbase.echoes ht))
      hc).bind ?_
    rintro _ _ ⟨rfl, rfl⟩
    exact onVisit_retraces n _ _ hc
  | inherit child path =>
    exact (hvisit child path (hchild rfl)).bind fun _ => onVisit_retraces n _
  | inheritResolved path =>
    obtain ⟨m, hm, hknown⟩ := hlead .answer rfl
    obtain ⟨child, hanswer, -⟩ := Step.replay_inheritResolved.mp hw
    obtain rfl : child = m := by simpa [Store.follow?, hanswer] using hm
    intro c hc
    refine (onStore_retraces (fun t ht =>
      Store.run_resolve ((hbase.echoes ht).resolved hanswer)) hc).bind ?_
    rintro _ _ ⟨rfl, rfl⟩
    exact ((hvisit child path hknown).bind fun _ => onVisit_retraces n _) _ hc
  | inheritSource child path =>
    refine (onVisit_retraces n _).bind fun _ => (hvisit child path (hchild rfl)).bind fun _ => ?_
    exact onVisit_retraces child _
  | prefault value => exact onVisit_retraces n _
  | fail f => cases hw

/-- Steps keep to known nodes if each of them does: induction on the steps. -/
theorem performAll_retraces {side : Side} {steps : List Step}
    (hsteps : ∀ step ∈ steps,
      Secures (Retraces base known ancestors) (perform side visit n step)) :
    Secures (Retraces base known ancestors) (performAll side visit n steps) := by
  induction steps with
  | nil => exact secures_pure _
  | cons step rest ih =>
    obtain ⟨hstep, hrest⟩ := List.forall_mem_cons.mp hsteps
    exact hstep.bind fun _ => ih hrest

/-- A node that was entered is lowered, if all that it leads to can be visited. -/
theorem lower_retraces (hs : s.Closed) (hbase : s.Recalls base) (hknown : Explored guide s known)
    (hvisit : ∀ m path, known.has m = true → Secures (Retraces base known ancestors) (visit m path))
    (hn : known.has n = true) (path : Path) :
    Secures (Retraces base known ancestors) (lower guide visit n path) := by
  obtain ⟨v, hv⟩ := Survey.visit?_of_has hn
  obtain ⟨links, w, hw, -⟩ := hknown.contents hv
  obtain ⟨node, u, hnode, hu, -⟩ := Store.contents?_eq_some.mp hw
  rw [← Step.replayAll_path _ _ node path] at hu
  -- The contents of the node were found, so every question of its recipe has its answer.
  have hanswered := Step.answered_of_replayAll hu
  -- And all steps lead to what the node leads to, hence to known nodes.
  have hleads : Step.leadsOf (node.recipe guide.settings (s.catchallKind node) path)
      = s.leads guide.settings.side n := by
    rw [leadsOf_recipe (Step.runs_of_answered hanswered)]
    simp [Store.leads, hnode]
  have hcatchall : s.Has node.catchall := hs.links hnode _ (by simp [Node.links])
  have hperform : Secures (Retraces base known ancestors) (performAll guide.settings.side visit
      n (node.recipe guide.settings (s.catchallKind node) path)) := by
    refine performAll_retraces fun step hstep => ?_
    refine perform_retraces hbase hvisit (hanswered step hstep) fun lead hlead => ?_
    refine hknown.leads hn lead (hleads ▸ ?_)
    exact List.mem_filterMap.mpr ⟨step, hstep, hlead⟩
  -- The annotation is written over what the steps have left.
  have hannotate : Secures (Retraces base known ancestors) (annotate guide.catalog n) := by
    refine secures_read fun d => ?_
    split
    · exact onVisit_retraces n _
    · exact secures_pure _
  intro c hc
  unfold lower
  refine (onStore_retraces (fun t ht => Store.returns_fetch.mpr
    ⟨(hbase.echoes ht).node? hnode, rfl⟩) hc).bind ?_
  rintro _ _ ⟨rfl, rfl⟩
  refine Meets.bind (P := fun x d => c = x ∧ c = d) ⟨rfl, rfl⟩ ?_
  rintro _ _ ⟨rfl, rfl⟩
  rw [(hbase.echoes hc.store).node?_eq hcatchall]
  refine (hperform.bind fun _ => hannotate.bind fun _ => ?_) c hc
  split
  · exact onVisit_retraces n _
  · exact secures_pure _

/-- Arriving once more keeps to known nodes. -/
theorem revisit_retraces (above : List NodeId) (n : NodeId) (path : Path) :
    Secures (Retraces base known ancestors) (revisit above n path) := by
  refine (onVisit_retraces n _).bind fun _ => ?_
  split
  · exact (onVisit_retraces n _).bind fun _ => log_retraces _
  · exact secures_pure _

/-- A known node that is entered becomes one of the ancestors. -/
theorem Retraces.entered {c : Conversion} (h : Retraces base known ancestors c)
    (hn : known.has n = true) : Retraces base known (n :: ancestors) (c.entered n) := by
  have horder := Survey.order_enter c.survey n
  refine ⟨h.store, fun m hm => ?_, fun m hm => ?_⟩
  · rw [Survey.has_iff] at hm
    rcases List.mem_append.mp (horder ▸ hm) with hm | hm
    · exact h.visited m ((Survey.has_iff _ _).mpr hm)
    · rwa [List.mem_singleton.mp hm]
  · rw [Survey.has_iff]
    show m ∈ (c.survey.enter n).order
    rw [horder]
    rcases List.mem_cons.mp hm with rfl | hm
    · exact List.mem_append_right _ (List.mem_singleton.mpr rfl)
    · exact List.mem_append_left _ ((Survey.has_iff _ _).mp (h.beneath m hm))

/-- **Arrivals.** An arrival at a known node returns, if the descent may go down over as many nodes
    as are known. -/
theorem arrive_retraces (hs : s.Closed) (hbase : s.Recalls base) (hknown : Explored guide s known)
    {depth : Nat} (hnodup : ancestors.Nodup) (hdepth : known.size ≤ depth + ancestors.length)
    {n : NodeId} (hn : known.has n = true) (path : Path) :
    Secures (Retraces base known ancestors) (arrive guide depth ancestors n path) := by
  induction depth generalizing ancestors n path with
  | zero =>
    intro c hc
    unfold Meets
    rw [arrive_eq]
    by_cases hvisited : c.survey.has n = true
    · rw [if_pos hvisited]
      exact revisit_retraces ancestors n path c hc
    · -- the ancestors are all nodes that are known
      have hfresh : n ∉ ancestors := fun hmem => hvisited (hc.beneath n hmem)
      have hsub : n :: ancestors ⊆ known.order := by
        intro m hm
        refine (Survey.has_iff _ _).mp ?_
        rcases List.mem_cons.mp hm with rfl | hm
        · exact hn
        · exact hc.visited m (hc.beneath m hm)
      have hlength := ((List.nodup_cons.mpr ⟨hfresh, hnodup⟩).subperm hsub).length_le
      rw [List.length_cons, Survey.order, List.length_map] at hlength
      unfold Survey.size at hdepth
      omega
  | succ depth ih =>
    intro c hc
    unfold Meets
    rw [arrive_eq]
    by_cases hvisited : c.survey.has n = true
    · rw [if_pos hvisited]
      exact revisit_retraces ancestors n path c hc
    · rw [if_neg hvisited]
      have hfresh : n ∉ ancestors := fun hmem => hvisited (hc.beneath n hmem)
      -- Induction: a new node joins the ancestors, of which there are no more than known nodes.
      have hlower := lower_retraces hs hbase hknown
        (fun m path hm => ih (List.nodup_cons.mpr ⟨hfresh, hnodup⟩)
          (by rw [List.length_cons]; omega) hm path) hn path
      refine (hlower _ (hc.entered hn)).mono (fun _ d hd => ?_) fun _ h => h
      exact ⟨hd.store, hd.visited, fun m hm => hd.beneath m (List.mem_cons_of_mem n hm)⟩

end Conversion

/-! ### Surveys of known nodes -/

namespace Explored

variable {guide : Guide} {s : Store} {known survey : Survey}

/-- The nodes of a survey exist. -/
theorem size_le (h : Explored guide s known) (hnodup : known.order.Nodup) :
    known.size ≤ s.nodes.length := by
  have hle := Store.length_le_of_nodup hnodup fun n hn => by
    obtain ⟨v, hv⟩ := Survey.visit?_of_has ((Survey.has_iff _ _).mpr hn)
    obtain ⟨links, w, hw, -⟩ := h.contents hv
    exact Conversion.isSome_of_contents? hw
  rwa [Survey.order, List.length_map] at hle

/-- A survey is complete whatever surveys are over, and whatever events there were. -/
theorem of_archive {archive : List (List (NodeId × Entries))} {events : List Event}
    (h : Explored guide { s with archive, events } survey) : Explored guide s survey where
  contents hv := by
    obtain ⟨links, w, hw, hsame⟩ := h.contents hv
    rw [Store.contents?_archive] at hw
    exact ⟨links, w, hw, hsame⟩
  leads {n} hn lead hlead := by
    obtain ⟨m, hm, hhas⟩ := h.leads hn lead (by cases n <;> exact hlead)
    exact ⟨m, hm, hhas⟩

/-- **Contents.** Two surveys over the same nodes hold the same content of each of them. -/
theorem same_content (h : Explored guide s known) (hs : s.Closed) (h' : Explored guide s survey)
    {n : NodeId} {v w : Visit} (hv : known.visit? n = some v) (hw : survey.visit? n = some w) :
    w.content = v.content := by
  obtain ⟨links, x, hx, hxv⟩ := h.contents hv
  obtain ⟨more, y, hy, hyw⟩ := h'.contents hw
  have hx' := Store.contents?_mono (.refl s) hs (le_max_left links more) hx
  have hy' := Store.contents?_mono (.refl s) hs (le_max_right links more) hy
  obtain rfl := Option.some.inj (hx'.symm.trans hy')
  exact hyw.symm.trans hxv

end Explored

/-- **Known nodes.** A node that was visited can be explored alone: nothing is found below it that
    was not known. -/
theorem Converter.process_retraces {conv : Converter} {s : Store} (hs : s.Closed) {known : Survey}
    (hknown : Explored conv.guide s known) (hnodup : known.order.Nodup) {c : Conversion}
    (hc : s.Recalls c.store) (hnew : ∀ n, c.survey.has n = false) {root : NodeId}
    (hroot : known.has root = true) :
    ∃ d, Returns (conv.process root) c () d ∧ c.store.Echoes d.store ∧
      ∀ n, d.survey.has n = true → known.has n = true := by
  have hdepth : known.size ≤ (c.store.extent + 2) + ([] : List NodeId).length := by
    have hsize := hknown.size_le hnodup
    have hextent := hc.extent
    unfold Store.extent at hextent ⊢
    omega
  have hstart : Conversion.Retraces c.store known [] c :=
    ⟨.refl _, fun n hn => absurd ((hnew n).symm.trans hn) nofun, nofun⟩
  have hprocess : Meets (conv.process root) c (fun _ => Conversion.Retraces c.store known [])
      fun _ => False := by
    unfold process Conversion.visit
    refine Meets.bind (P := fun _ => Conversion.Retraces c.store known []) ?_ fun _ d hd => ?_
    · refine Meets.bind (P := fun x d => c = x ∧ c = d) ⟨rfl, rfl⟩ ?_
      rintro _ _ ⟨rfl, rfl⟩
      exact Conversion.arrive_retraces hs hc hknown List.nodup_nil hdepth hroot [] c hstart
    · exact Conversion.log_retraces _ d hd
  obtain ⟨_, d, hrun, hd⟩ := hprocess.returns
  exact ⟨d, hrun, hd.store, hd.visited⟩

end SchemaGraph
