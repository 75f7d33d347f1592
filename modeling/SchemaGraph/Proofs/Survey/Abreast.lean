import Mathlib.Data.List.Forall2
import SchemaGraph.Converter
import SchemaGraph.Proofs.Store.Echoes

namespace SchemaGraph

open SchemaGraph.Action

/-!
# Descents in two dialects

The dialect decides under which keywords a tuple holds its items, and nothing else in a descent.
No keyword is read while nodes are visited.  So a descent in another dialect visits the same nodes
in the same order, marks the same cycles, asks the same of the store, and fails in the same way.

* `Action.Corresponds`  — two results that are the same failure, or related
* `Action.Abreast`      — two actions that agree wherever they start from related states
* `Conversion.Alongside` — conversions with related surveys, over stores that differ in their events
* `Step.Alike`          — steps that differ at most in the keyword that they write
* `Converter.process_abreast` — descents in two dialects
-/

/-! ### Actions abreast -/

namespace Action

variable {ε α α' β β' σ τ : Type}

/-- The same failure, or results that are related. -/
inductive Corresponds (Q : α → β → Prop) : Except ε α → Except ε β → Prop
  | error (f : ε) : Corresponds Q (.error f) (.error f)
  | ok {x : α} {y : β} (h : Q x y) : Corresponds Q (.ok x) (.ok y)

/-- Results that correspond go on to ones that do. -/
theorem Corresponds.bind {Q : α → β → Prop} {P : α' → β' → Prop} {x : Except ε α}
    {y : Except ε β} {f : α → Except ε α'} {g : β → Except ε β'} (h : Corresponds Q x y)
    (hf : ∀ a b, Q a b → Corresponds P (f a) (g b)) : Corresponds P (x >>= f) (y >>= g) := by
  cases h with
  | error e => exact .error e
  | ok h => exact hf _ _ h

/-- Results may be related more loosely. -/
theorem Corresponds.imp {Q P : α → β → Prop} {x : Except ε α} {y : Except ε β}
    (h : Corresponds Q x y) (hsub : ∀ a b, Q a b → P a b) : Corresponds P x y := by
  cases h with
  | error e => exact .error e
  | ok h => exact .ok (hsub _ _ h)

/-- From two states the actions agree, and leave related states. -/
abbrev AbreastAt (R : σ → τ → Prop) (Q : α → β → Prop) (a : Action σ α) (b : Action τ β) (s : σ)
    (t : τ) : Prop := Corresponds Q (a s).1 (b t).1 ∧ R (a s).2 (b t).2

/-- From related states the actions agree, and leave related states. -/
def Abreast (R : σ → τ → Prop) (Q : α → β → Prop) (a : Action σ α) (b : Action τ β) : Prop :=
  ∀ s t, R s t → AbreastAt R Q a b s t

variable {R : σ → τ → Prop} {Q : α → β → Prop} {P : α' → β' → Prop}

/-- In sequence, what the first actions leave may be known to the second, and be more than what both
    leave. -/
theorem AbreastAt.bindOf {R' : σ → τ → Prop} {a : Action σ α} {b : Action τ β}
    {f : α → Action σ α'} {g : β → Action τ β'} {s : σ} {t : τ} (h : AbreastAt R' Q a b s t)
    (hsub : ∀ s t, R' s t → R s t)
    (hf : ∀ x y s' t', Returns a s x s' → Returns b t y t' → Q x y → R' s' t' →
      AbreastAt R P (f x) (g y) s' t') : AbreastAt R P (a >>= f) (b >>= g) s t := by
  unfold AbreastAt
  rw [run_bind, run_bind]
  obtain ⟨hresult, hstate⟩ := h
  rcases ha : a s with ⟨e | x, s'⟩ <;> rw [ha] at hresult hstate <;>
    rcases hb : b t with ⟨e' | y, t'⟩ <;> rw [hb] at hresult hstate <;> cases hresult
  · exact ⟨.error e, hsub _ _ hstate⟩
  · rename_i hxy
    exact hf x y s' t' ha hb hxy hstate

/-- Actions that agree from two states go on together if they do from wherever both return. -/
theorem AbreastAt.bind {a : Action σ α} {b : Action τ β} {f : α → Action σ α'}
    {g : β → Action τ β'} {s : σ} {t : τ} (h : AbreastAt R Q a b s t)
    (hf : ∀ x y s' t', Returns a s x s' → Returns b t y t' → Q x y → R s' t' →
      AbreastAt R P (f x) (g y) s' t') : AbreastAt R P (a >>= f) (b >>= g) s t :=
  h.bindOf (fun _ _ hst => hst) hf

/-- Actions that agree go on together. -/
theorem Abreast.bind {a : Action σ α} {b : Action τ β} {f : α → Action σ α'} {g : β → Action τ β'}
    (h : Abreast R Q a b) (hf : ∀ x y, Q x y → Abreast R P (f x) (g y)) :
    Abreast R P (a >>= f) (b >>= g) := fun s t hst =>
  (h s t hst).bind fun x y s' t' _ _ hxy hst' => hf x y hxy s' t' hst'

/-- Related results alone agree. -/
theorem abreast_pure {x : α} {y : β} (h : Q x y) : Abreast R Q (pure x) (pure y) :=
  fun _ _ hst => ⟨.ok h, hst⟩

/-- Changes that relate what they make of related states agree. -/
theorem abreast_modify {f : σ → σ} {g : τ → τ} (h : ∀ s t, R s t → R (f s) (g t)) :
    Abreast R (fun _ _ => True) (modify f : Action σ PUnit) (modify g : Action τ PUnit) :=
  fun s t hst => ⟨.ok trivial, h s t hst⟩

/-- Actions that look at their states first. -/
theorem abreast_read {f : σ → Action σ α} {g : τ → Action τ β}
    (h : ∀ s t, R s t → Abreast R Q (f s) (g t)) : Abreast R Q (get >>= f) (get >>= g) :=
  fun s t hst => h s t hst s t hst

/-- The actions agree, and leave related states if they return. -/
def Coincide (R : σ → τ → Prop) (Q : α → β → Prop) (a : Action σ α) (b : Action τ β) (s : σ)
    (t : τ) : Prop :=
  Corresponds Q (a s).1 (b t).1 ∧ ∀ x y s' t', Returns a s x s' → Returns b t y t' → R s' t'

/-- Actions that agree and leave related states leave related states if they return. -/
theorem AbreastAt.coincide {a : Action σ α} {b : Action τ β} {s : σ} {t : τ}
    (h : AbreastAt R Q a b s t) : Coincide R Q a b s t := by
  refine ⟨h.1, fun x y s' t' ha hb => ?_⟩
  have hstate := h.2
  rwa [show a s = (.ok x, s') from ha, show b t = (.ok y, t') from hb] at hstate

/-- What the first actions leave is known to the second. -/
theorem AbreastAt.continue {R' : σ → τ → Prop} {a : Action σ α} {b : Action τ β}
    {f : α → Action σ α'} {g : β → Action τ β'} {s : σ} {t : τ} (h : AbreastAt R' Q a b s t)
    (hf : ∀ x y s' t', Returns a s x s' → Returns b t y t' → Q x y → R' s' t' →
      Coincide R P (f x) (g y) s' t') : Coincide R P (a >>= f) (b >>= g) s t := by
  unfold Coincide Returns
  rw [run_bind, run_bind]
  obtain ⟨hresult, hstate⟩ := h
  rcases ha : a s with ⟨e | x, s'⟩ <;> rw [ha] at hresult hstate <;>
    rcases hb : b t with ⟨e' | y, t'⟩ <;> rw [hb] at hresult hstate <;> cases hresult
  · exact ⟨.error e, nofun⟩
  · rename_i hxy
    exact hf x y s' t' ha hb hxy hstate

end Action

/-! ### Conversions side by side -/

namespace Conversion

/-- The stores differ in their events alone, the surveys are related, and the addresses across
    documents are spelled in the same way, if there are any. -/
structure Alongside (S : Survey → Survey → Prop) (scope : Option Addressing) (c d : Conversion) :
    Prop where
  store : c.store.Echoes d.store
  survey : S c.survey d.survey
  linkage : d.linkage = c.linkage
  scope : c.linkage.map (·.addressing) = scope

variable {S : Survey → Survey → Prop} {scope : Option Addressing} {α β : Type} {Q : α → β → Prop}

/-- What does not look at events, comes to the same. -/
theorem abreast_onStore {a : Action Store α} (h : Respects Store.Echoes a) :
    Abreast (Alongside S scope) Eq (onStore a) (onStore a) := by
  intro c d hcd
  obtain ⟨hresult, hstore⟩ := h c.store d.store hcd.store
  refine ⟨?_, hstore, hcd.survey, hcd.linkage, hcd.scope⟩
  show Corresponds Eq (a c.store).1 (a d.store).1
  rw [← hresult]
  cases (a c.store).1 with
  | error f => exact .error f
  | ok x => exact .ok rfl

/-- The same failure agrees with itself. -/
theorem abreast_fail (f : Failure) :
    Abreast (Alongside S scope) Q (fail f : Action Conversion α)
      (fail f : Action Conversion β) := by
  intro c d hcd
  unfold fail onStore Store.fail
  cases f.event? with
  | none => exact ⟨.error f, hcd⟩
  | some e => exact ⟨.error f, hcd.store.record e e, hcd.survey, hcd.linkage, hcd.scope⟩

/-- The events may be different. -/
theorem abreast_log (e e' : Event) :
    Abreast (Alongside S scope) (fun _ _ => True) (log e) (log e') :=
  fun _ _ hcd => ⟨.ok trivial, hcd.store.record e e', hcd.survey, hcd.linkage, hcd.scope⟩

/-- Changes of related surveys into related ones agree. -/
theorem abreast_onSurvey {f g : Survey → Survey} (h : ∀ s t, S s t → S (f s) (g t)) :
    Abreast (Alongside S scope) (fun _ _ => True) (onSurvey f) (onSurvey g) :=
  fun _ _ hcd => ⟨.ok trivial, hcd.store, h _ _ hcd.survey, hcd.linkage, hcd.scope⟩

end Conversion

/-! ### Surveys without keywords -/

/-- A visit without its keywords. -/
def Visit.outline (v : Visit) : Visit := { v with fragment := [], prefault := .undefined }

/-- The visits of a survey without their keywords. -/
def Survey.outlines (visits : List (NodeId × Visit)) : List (NodeId × Visit) :=
  visits.map fun p => (p.1, p.2.outline)

namespace Survey

/-- The surveys differ in keywords alone. -/
structure Outlined (s t : Survey) : Prop where
  visits : outlines t.visits = outlines s.visits
  rest : t = { s with visits := t.visits }

variable {s t : Survey}

/-- The visit of a node is found without its keywords. -/
theorem find?_outlines (n : NodeId) (visits : List (NodeId × Visit)) :
    find? n (outlines visits) = (find? n visits).map Visit.outline := by
  induction visits with
  | nil => rfl
  | cons p rest ih =>
    obtain ⟨m, v⟩ := p
    by_cases h : m = n
    · simp [outlines, find?, h]
    · simpa [outlines, find?, h] using ih

/-- A survey differs from itself in nothing. -/
theorem Outlined.refl (s : Survey) : Outlined s s := ⟨rfl, rfl⟩

/-- Visits in such surveys differ in keywords alone. -/
theorem Outlined.visit? (h : Outlined s t) (n : NodeId) :
    (t.visit? n).map Visit.outline = (s.visit? n).map Visit.outline := by
  unfold Survey.visit?
  rw [← find?_outlines, ← find?_outlines, h.visits]

/-- The same nodes are visited in both. -/
theorem Outlined.has (h : Outlined s t) (n : NodeId) : t.has n = s.has n := by
  have hvisit := congrArg Option.isSome (h.visit? n)
  simpa [Survey.has] using hvisit

/-- Surveys differ in keywords alone behind changes that treat visits alike. -/
theorem Outlined.modify (h : Outlined s t) (n : NodeId) {f g : Visit → Visit}
    (hfg : ∀ v w : Visit, w.outline = v.outline → (g w).outline = (f v).outline) :
    Outlined (s.modify n f) (t.modify n g) := by
  -- Both lists have the same nodes in the same order; induction on them side by side.
  have hchange : ∀ visits visits' : List (NodeId × Visit), outlines visits' = outlines visits →
      outlines (change n g visits') = outlines (change n f visits) := by
    intro visits
    induction visits with
    | nil =>
      intro visits' h
      obtain rfl := List.map_eq_nil_iff.mp h
      rfl
    | cons p rest ih =>
      intro visits' h
      obtain ⟨q, rest', rfl, hq, hrest⟩ := List.map_eq_cons_iff.mp h
      obtain ⟨m, v⟩ := p
      obtain ⟨k, w⟩ := q
      obtain ⟨rfl, hvw⟩ := Prod.mk.inj hq
      by_cases hk : k = n
      · simp [change, hk, outlines, hfg v w hvw]
        exact hrest
      · simp [change, hk, outlines, hvw]
        exact ih _ hrest
  exact ⟨hchange _ _ h.visits, by rw [Survey.modify, Survey.modify, h.rest]⟩

/-- Surveys differ in keywords alone when both enter a node. -/
theorem Outlined.enter (h : Outlined s t) (n : NodeId) : Outlined (s.enter n) (t.enter n) := by
  refine ⟨?_, by rw [Survey.enter, Survey.enter, h.rest]⟩
  simp only [Survey.enter, outlines, List.map_append]
  exact congrArg (· ++ _) h.visits

end Survey

/-! ### Other dialects -/

/-- The same settings for another dialect. -/
def LoweringSettings.inDialect (settings : LoweringSettings) (target : Target) : LoweringSettings :=
  { settings with target }

/-- The same guide for another dialect. -/
def Guide.inDialect (guide : Guide) (target : Target) : Guide :=
  { guide with settings := guide.settings.inDialect target }

/-- The same converter for another dialect. -/
def Converter.inDialect (conv : Converter) (target : Target) : Converter :=
  { conv with guide := conv.guide.inDialect target }

/-- The steps are the same, or both write a keyword. -/
inductive Step.Alike : Step → Step → Prop
  | refl (step : Step) : Alike step step
  | write (key key' : String) (v : Value) : Alike (.write key v) (.write key' v)

/-- Steps are alike themselves. -/
theorem Step.alike_refl (steps : List Step) : List.Forall₂ Alike steps steps :=
  List.forall₂_same.mpr fun step _ => .refl step

/-- Only for tuples the rules depend on the dialect. -/
theorem kindSteps_inDialect {node : Node} (h : node.kind ≠ .tuple) (settings : LoweringSettings)
    (target : Target) (catchall : Option Kind) (path : Path) :
    kindSteps (settings.inDialect target) catchall node path =
      kindSteps settings catchall node path := by
  unfold kindSteps
  cases hk : node.kind <;> first | rfl | exact absurd hk h

/-- The dialect makes no difference to the recipe of a node, but for the keywords of tuples. -/
theorem Node.recipe_alike (settings : LoweringSettings) (target : Target) (catchall : Option Kind)
    (node : Node) (path : Path) :
    List.Forall₂ Step.Alike (node.recipe settings catchall path)
      (node.recipe (settings.inDialect target) catchall path) := by
  unfold Node.recipe
  split
  · exact Step.alike_refl _
  · split
    · exact Step.alike_refl _
    · by_cases htuple : node.kind = .tuple
      · simp only [kindSteps, htuple, tupleSteps, List.append_assoc]
        refine List.rel_append (Step.alike_refl _) (List.rel_append (Step.alike_refl _)
          (List.rel_append (.cons (.write _ _ _) .nil) (List.rel_append ?_ (Step.alike_refl _))))
        split
        · exact .nil
        · exact .cons (.refl _) (.cons (.write _ _ _) .nil)
      · rw [kindSteps_inDialect htuple]
        exact Step.alike_refl _

namespace Conversion

variable {side : Side} {visit visit' : NodeId → Path → Action Conversion Unit} {guide : Guide}
  {target : Target} {scope : Option Addressing}

/-- Descents side by side: keywords may differ. -/
abbrev Descending (scope : Option Addressing) : Conversion → Conversion → Prop :=
  Alongside Survey.Outlined scope

/-- Two descents of which nothing is returned. -/
abbrev Descend (scope : Option Addressing) (a b : Action Conversion Unit) : Prop :=
  Abreast (Descending scope) (fun _ _ => True) a b

/-- Changes that treat visits alike go side by side. -/
theorem descend_onVisit (n : NodeId) {f g : Visit → Visit}
    (h : ∀ v w : Visit, w.outline = v.outline → (g w).outline = (f v).outline) :
    Descend scope (onVisit n f) (onVisit n g) :=
  abreast_onSurvey fun _ _ hst => hst.modify n h

/-- Changes that outlines do not show. -/
theorem descend_onFragment (n : NodeId) (f g : Entries → Entries) :
    Descend scope (onFragment n f) (onFragment n g) := descend_onVisit n fun _ _ h => h

/-- Passing on content goes side by side with itself. -/
theorem descend_passOn (n child : NodeId) : Descend scope (passOn n child) (passOn n child) :=
  descend_onVisit n fun _ _ h => congrArg (fun v => { v with target := some child }) h

/-- Steps that are alike go side by side if the visits to children do. -/
theorem perform_abreast (hvisit : ∀ m path, Descend scope (visit m path) (visit' m path))
    (n : NodeId) {step step' : Step} (h : step.Alike step') :
    Descend scope (perform side visit n step) (perform side visit' n step') := by
  cases h with
  | write key key' v => exact descend_onFragment n _ _
  | refl step =>
    cases step with
    | write key v => exact descend_onFragment n _ _
    | merge entries => exact descend_onFragment n _ _
    | visit child path => exact hvisit child path
    | property name child => exact descend_onFragment n _ _
    | require shape =>
      refine (abreast_onStore (Store.respects_requiredNames side shape)).bind fun _ _ heq => ?_
      cases heq
      exact descend_onFragment n _ _
    | inherit child path => exact (hvisit child path).bind fun _ _ _ => descend_passOn n child
    | inheritResolved path =>
      refine (abreast_onStore (Store.respects_resolve n)).bind fun answer _ heq => ?_
      cases heq
      cases answer with
      | node child => exact (hvisit child path).bind fun _ _ _ => descend_passOn n child
      | value v => exact abreast_fail _
    -- The mark of a source belongs to neither outline.
    | inheritSource child path =>
      refine (descend_passOn n child).bind fun _ _ _ => (hvisit child path).bind fun _ _ _ => ?_
      exact descend_onVisit child fun _ _ h => congrArg (fun v => { v with isSource := true }) h
    | prefault v => exact descend_onVisit n fun _ _ h => h
    | fail f => exact abreast_fail f

/-- Lists of steps that are alike go side by side. By induction on the steps. -/
theorem performAll_abreast (hvisit : ∀ m path, Descend scope (visit m path) (visit' m path))
    (n : NodeId) {steps steps' : List Step} (h : List.Forall₂ Step.Alike steps steps') :
    Descend scope (performAll side visit n steps) (performAll side visit' n steps') := by
  induction h with
  | nil => exact abreast_pure trivial
  | cons hstep _ ih => exact (perform_abreast hvisit n hstep).bind fun _ _ _ => ih

/-- Annotating a node goes side by side with itself. -/
theorem annotate_abreast (catalog : String) (n : NodeId) :
    Descend scope (annotate catalog n) (annotate catalog n) := by
  refine abreast_read fun c d hcd => ?_
  obtain ⟨events, hevents⟩ := hcd.store.exists_eq
  have hcatalog : d.store.catalog catalog = c.store.catalog catalog := by
    rw [hevents]
    rfl
  rw [hcatalog]
  split
  · exact descend_onFragment n _ _
  · exact abreast_pure trivial

/-- Describing a node goes side by side in two dialects, if the visits to children do. -/
theorem lower_abreast (hvisit : ∀ m path, Descend scope (visit m path) (visit' m path))
    (n : NodeId) (path : Path) :
    Descend scope (lower guide visit n path) (lower (guide.inDialect target) visit' n path) := by
  refine (abreast_onStore (Store.respects_fetch n)).bind fun node _ heq => ?_
  cases heq
  refine abreast_read fun c d hcd => ?_
  have hcatchall : d.store.node? node.catchall = c.store.node? node.catchall := by
    obtain ⟨events, hevents⟩ := hcd.store.exists_eq
    rw [hevents]
    cases node.catchall <;> rfl
  dsimp only
  rw [hcatchall]
  refine (performAll_abreast hvisit n (node.recipe_alike guide.settings target _ path)).bind
    fun _ _ _ => (annotate_abreast guide.catalog n).bind fun _ _ _ => ?_
  show Descend scope (if guide.settings.side = .input then _ else _)
    (if guide.settings.side = .input then _ else _)
  split
  · exact descend_onVisit n fun _ _ h => h
  · exact abreast_pure trivial

/-- A visit to a node that was visited before goes side by side with itself. -/
theorem revisit_abreast (ancestors : List NodeId) (n : NodeId) (path : Path) :
    Descend scope (revisit ancestors n path) (revisit ancestors n path) := by
  refine (descend_onVisit n fun _ _ h =>
    congrArg (fun v : Visit => { v with count := v.count + 1 }) h).bind fun _ _ _ => ?_
  split
  · exact (descend_onVisit n fun _ _ h => congrArg (fun v => { v with cycle := some path }) h).bind
      fun _ _ _ => abreast_log _ _
  · exact abreast_pure trivial

/-- **Arrivals.** The dialect makes no difference to an arrival but in keywords. -/
theorem arrive_abreast (depth : Nat) (ancestors : List NodeId) (n : NodeId) (path : Path) :
    Descend scope (arrive guide depth ancestors n path)
      (arrive (guide.inDialect target) depth ancestors n path) := by
  induction depth generalizing ancestors n path with
  | zero =>
    unfold arrive
    refine abreast_read fun c d hcd => ?_
    rw [hcd.survey.has]
    split
    · exact revisit_abreast ancestors n path
    · exact (abreast_onSurvey fun _ _ hst => hst.enter n).bind fun _ _ _ => abreast_fail _
  | succ depth ih =>
    unfold arrive
    refine abreast_read fun c d hcd => ?_
    rw [hcd.survey.has]
    split
    · exact revisit_abreast ancestors n path
    · exact (abreast_onSurvey fun _ _ hst => hst.enter n).bind fun _ _ _ =>
        lower_abreast (fun m path => ih _ m path) n path

end Conversion

open Conversion

/-- **Descents.** The descent from a root in another dialect comes to the same, but in keywords. -/
theorem Converter.process_abreast (conv : Converter) (target : Target)
    (scope : Option Addressing) (root : NodeId) :
    Descend scope (conv.process root) ((conv.inDialect target).process root) := by
  have hvisit : Descend scope (Conversion.visit conv.guide root [] [])
      (Conversion.visit (conv.guide.inDialect target) root [] []) := by
    refine abreast_read fun c d hcd => ?_
    have hextent : d.store.extent = c.store.extent := by
      obtain ⟨events, hevents⟩ := hcd.store.exists_eq
      rw [hevents]
      rfl
    rw [hextent]
    exact arrive_abreast _ _ _ _
  exact hvisit.bind fun _ _ _ => abreast_read fun c d _ => abreast_log _ _

end SchemaGraph
