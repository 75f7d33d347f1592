import SchemaGraph.Proofs.Survey.Exploration
import SchemaGraph.Proofs.Survey.Failing

namespace SchemaGraph

open SchemaGraph.Action

/-!
# Targets are visited

A node passes on the content of nodes that were visited.  The clone of a node says so before it
visits its source, so that in the midst of a descent targets may be outstanding; when the descent is
over, whatever came of it, none is.

* `Survey.Anchored`         — all targets are visited, but for those that are outstanding
* `Conversion.Anchors`      — nothing more is outstanding
* `Conversion.visit_anchors` — descents anchor what they visit
-/

/-- All nodes whose content is passed on are visited, but for those that are outstanding. -/
def Survey.Anchored (outstanding : List NodeId) (s : Survey) : Prop :=
  ∀ n v t, s.visit? n = some v → v.target = some t → s.has t = true ∨ t ∈ outstanding

/-- A visited node is not outstanding. -/
theorem Survey.Anchored.visited {s : Survey} {n : NodeId} {outstanding : List NodeId}
    (h : s.Anchored (n :: outstanding))
    (hn : s.has n = true) : s.Anchored outstanding := by
  intro m v t hv ht
  rcases h m v t hv ht with hhas | hmem
  · exact .inl hhas
  · rcases List.mem_cons.mp hmem with rfl | hmem
    · exact .inl hn
    · exact .inr hmem

namespace Conversion

variable {c d : Conversion} {n : NodeId} {outstanding : List NodeId}

/-- Nothing more is outstanding than before. -/
def Anchors (c d : Conversion) : Prop :=
  ∀ outstanding, c.survey.Anchored outstanding → d.survey.Anchored outstanding

instance : Std.Refl Anchors := ⟨fun _ _ h => h⟩

instance : Trans Anchors Anchors Anchors := ⟨fun h₁ h₂ more h => h₂ more (h₁ more h)⟩

/-- What concerns the store alone leaves nothing outstanding. -/
theorem onStore_anchors {α : Type} (a : Action Store α) : Within Anchors (onStore a) :=
  fun _ _ h => h

/-- A change of a visit that keeps its target leaves nothing outstanding. -/
theorem onVisit_anchors {f : Visit → Visit} (hf : ∀ v, (f v).target = v.target) :
    Within Anchors (onVisit n f) := by
  intro c more h m v t hv ht
  rw [show (onVisit n f c).2.survey.has t = c.survey.has t from has_modify ..]
  obtain ⟨rfl, w, hw, rfl⟩ | ⟨-, hv⟩ := Survey.visit?_modify_cases hv
  · exact h m w t hw ((hf w).symm.trans ht)
  · exact h m v t hv ht

/-- A change of a fragment leaves nothing outstanding. -/
theorem onFragment_anchors (f : Entries → Entries) : Within Anchors (onFragment n f) :=
  onVisit_anchors fun _ => rfl

/-- A node that says whose content it passes on. -/
theorem passOn_anchored (n child : NodeId) (h : c.survey.Anchored outstanding) :
    (passOn n child c).2.survey.Anchored (child :: outstanding) := by
  intro m v t hv ht
  rw [show (passOn n child c).2.survey.has t = c.survey.has t from has_modify ..]
  obtain ⟨rfl, w, -, rfl⟩ | ⟨-, hv⟩ := Survey.visit?_modify_cases hv
  · -- the only new target is the child
    cases ht
    exact .inr (List.mem_cons_self ..)
  · exact (h m v t hv ht).imp_right (List.mem_cons_of_mem _)

/-- What is known of visits: they anchor, and they leave the node visited. -/
structure Anchoring (visit : NodeId → Path → Action Conversion Unit) : Prop where
  anchors : ∀ m path, Within Anchors (visit m path)
  has : ∀ m path c, (visit m path c).2.survey.has m = true

variable {guide : Guide} {visit : NodeId → Path → Action Conversion Unit}

/-- A visit leaves the node visited, and nothing more is outstanding. -/
theorem Anchoring.meets (hvisit : Anchoring visit) (child : NodeId) (path : Path)
    (h : c.survey.Anchored outstanding) :
    Meets (visit child path) c
      (fun _ d => d.survey.Anchored outstanding ∧ d.survey.has child = true)
      fun d => d.survey.Anchored outstanding ∧ d.survey.has child = true :=
  meets_of_state (P := fun d : Conversion =>
      d.survey.Anchored outstanding ∧ d.survey.has child = true)
    ⟨hvisit.anchors child path c outstanding h, hvisit.has child path c⟩

/-- The content of a node is passed on that was visited before. -/
theorem visit_passOn_anchors (hvisit : Anchoring visit) (n child : NodeId) (path : Path) :
    Within Anchors (do visit child path; passOn n child) := by
  intro c more h
  refine Meets.state (P := fun d : Conversion => d.survey.Anchored more) (.bind
    ((hvisit.meets child path h).mono (fun _ _ hd => hd) fun _ hd => hd.1) fun _ d hd => ?_)
  refine meets_of_state ((passOn_anchored n child hd.1).visited ?_)
  exact (has_modify ..).trans hd.2

/-- The source of a clone is visited behind the clone. -/
theorem inheritSource_anchors {side : Side} (hvisit : Anchoring visit) (n child : NodeId)
    (path : Path) : Within Anchors (perform side visit n (.inheritSource child path)) := by
  intro c more h
  -- the clone passes the content of its source on before that is visited
  refine Meets.state (P := fun d : Conversion => d.survey.Anchored more) (.bind
    (P := fun _ (d : Conversion) => d.survey.Anchored (child :: more))
    (passOn_anchored n child h :) fun _ d hd => ?_)
  refine .bind ((hvisit.meets child path hd).mono (fun _ _ he => he)
    fun _ he => he.1.visited he.2) fun _ f hf => ?_
  have hmark : Within Anchors (onVisit child fun v => { v with isSource := true }) :=
    onVisit_anchors fun _ => rfl
  exact meets_of_state (hmark f more (hf.1.visited hf.2))

/-- A step visits the target that it sets, so nothing remains outstanding behind it. -/
theorem perform_anchors {side : Side} (hvisit : Anchoring visit) (n : NodeId) (step : Step) :
    Within Anchors (perform side visit n step) := by
  cases step with
  | write key value => exact onFragment_anchors _
  | merge entries => exact onFragment_anchors _
  | visit child path => exact hvisit.anchors child path
  | property name child => exact onFragment_anchors _
  | require shape => exact .bind (onStore_anchors _) fun _ => onFragment_anchors _
  | inherit child path => exact visit_passOn_anchors hvisit n child path
  | inheritResolved path =>
    refine .bind (onStore_anchors _) fun answer => ?_
    cases answer with
    | node child => exact visit_passOn_anchors hvisit n child path
    | value v => exact onStore_anchors _
  | inheritSource child path => exact inheritSource_anchors hvisit n child path
  | prefault v => exact onVisit_anchors fun _ => rfl
  | fail f => exact onStore_anchors _

/-- Nor behind many steps: induction on the steps. -/
theorem performAll_anchors {side : Side} (hvisit : Anchoring visit) (n : NodeId)
    (steps : List Step) : Within Anchors (performAll side visit n steps) := by
  induction steps with
  | nil => exact within_pure _
  | cons step rest ih => exact .bind (perform_anchors hvisit n step) fun _ => ih

/-- Nor behind the lowering of a node. -/
theorem lower_anchors (hvisit : Anchoring visit) (n : NodeId) (path : Path) :
    Within Anchors (lower guide visit n path) := by
  refine .bind (onStore_anchors _) fun node => .bind within_get fun c => ?_
  refine .bind (performAll_anchors hvisit n _) fun _ => .bind (.bind within_get fun c => ?_) fun _ => ?_
  · split
    · exact onFragment_anchors _
    · exact within_pure _
  · split
    · exact onVisit_anchors fun _ => rfl
    · exact within_pure _

/-- Arriving once more changes no target. -/
theorem revisit_anchors (ancestors : List NodeId) (n : NodeId) (path : Path) :
    Within Anchors (revisit ancestors n path) := by
  refine .bind (onVisit_anchors fun _ => rfl) fun _ => ?_
  split
  · exact .bind (onVisit_anchors fun _ => rfl) fun _ => onStore_anchors _
  · exact within_pure _

/-- A node that was just entered passes nothing on. -/
theorem entered_anchors (hn : c.survey.has n = false) : Anchors c (c.entered n) := by
  intro more h m v t hv ht
  obtain ⟨-, rfl⟩ | ⟨-, hv⟩ := Survey.visit?_enter_cases hn hv
  · cases ht
  · refine (h m v t hv ht).imp_left fun hhas => ?_
    show (c.survey.enter n).has t = true
    rw [Survey.has_iff, Survey.order_enter]
    exact List.mem_append_left _ ((Survey.has_iff _ t).mp hhas)

/-- **Arrivals anchor.** Whatever comes of an arrival, nothing more is outstanding. -/
theorem arrive_anchoring (depth : Nat) (ancestors : List NodeId) :
    Anchoring (arrive guide depth ancestors) := by
  induction depth generalizing ancestors with
  | zero =>
    refine ⟨fun n path c => ?_, has_arrive 0 ancestors⟩
    rw [arrive_eq]
    split
    · exact revisit_anchors ancestors n path c
    · rename_i hn
      exact entered_anchors (by simpa using hn)
  | succ depth ih =>
    refine ⟨fun n path c => ?_, has_arrive _ ancestors⟩
    rw [arrive_eq]
    split
    · exact revisit_anchors ancestors n path c
    · rename_i hn
      exact Trans.trans (entered_anchors (by simpa using hn))
        (lower_anchors (ih (n :: ancestors)) n path (c.entered n))

/-- **Anchors.** Whatever comes of a descent, nothing more is outstanding. -/
theorem visit_anchors (n : NodeId) (ancestors : List NodeId) (path : Path) :
    Within Anchors (Conversion.visit guide n ancestors path) :=
  .bind within_get fun _ => (arrive_anchoring _ ancestors).anchors n path

end Conversion

end SchemaGraph
