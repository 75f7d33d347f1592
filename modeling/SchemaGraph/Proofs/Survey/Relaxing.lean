import SchemaGraph.Converter
import SchemaGraph.Proofs.Survey.Replaying

namespace SchemaGraph

open SchemaGraph.Action

/-!
# Descents that accept everything

A kind or a literal that has no counterpart in documents ends a descent, or it is accepted.  A
descent that returns where such things are rejected has met none of them, so it returns the same
where they are accepted.  A descent that accepts them fails for want of a counterpart only if a
function that was given for a node raises that very error.

* `Action.Retains a b`            — what `a` returns, `b` returns as well
* `LoweringSettings.Relaxed`      — settings that accept no less
* `Store.Throws s f`              — a function that was given for a node of the store raises `f`
* `Converter.process_retains`     — accepting more changes nothing in descents that return
* `Converter.explains_process`    — where failures come from if everything is accepted
-/

/-! ### Runs that are retained -/

namespace Action

variable {σ α β : Type}

/-- Whatever the one action returns and leaves, the other one returns and leaves as well. -/
def Retains (a b : Action σ α) : Prop := ∀ s x t, Returns a s x t → Returns b s x t

/-- An action retains what it returns itself. -/
theorem Retains.refl (a : Action σ α) : Retains a a := fun _ _ _ h => h

/-- Actions one after the other retain what each of them retains. -/
theorem Retains.bind {a b : Action σ α} {f g : α → Action σ β} (ha : Retains a b)
    (hf : ∀ x, Retains (f x) (g x)) : Retains (a >>= f) (b >>= g) := by
  intro s y u h
  obtain ⟨x, t, hx, hy⟩ := returns_bind.mp h
  exact returns_bind.mpr ⟨x, t, ha _ _ _ hx, hf x _ _ _ hy⟩

/-- If the action fails in that state, the state that it leaves tells something about the
    failure. -/
def Explains (P : σ → Failure → Prop) (a : Action σ α) (s : σ) : Prop :=
  ∀ f t, a s = (.error f, t) → P t f

variable {P : σ → Failure → Prop} {s : σ}

/-- A result alone has no failure to explain. -/
theorem explains_pure (x : α) : Explains P (pure x : Action σ α) s := nofun

/-- Looking at the state has no failure to explain. -/
theorem explains_get : Explains P (get : Action σ σ) s := nofun

/-- A change has no failure to explain. -/
theorem explains_modify (f : σ → σ) : Explains P (modify f : Action σ PUnit) s := nofun

/-- Failures of two actions one after the other are explained if those of the first one are, and
    those of the second one from wherever the first one returns. -/
theorem Explains.bind {a : Action σ α} {f : α → Action σ β} (ha : Explains P a s)
    (hf : ∀ x t, Returns a s x t → Explains P (f x) t) : Explains P (a >>= f) s := by
  intro g u h
  rw [run_bind] at h
  rcases hs : a s with ⟨e | x, t⟩
  · rw [hs] at h
    cases h
    exact ha g _ hs
  · rw [hs] at h
    exact hf x t hs g u h

/-- What is known of all failures of a kind. -/
theorem Raises.explains {Q : Failure → Prop} {a : Action σ α} (h : Raises Q a)
    (hP : ∀ t f, Q f → P t f) : Explains P a s := fun f t hrun => hP t f (h s f t hrun)

end Action

/-! ### Settings -/

/-- Settings that accept no less than others and are the same besides. -/
structure LoweringSettings.Relaxed (strict lax : LoweringSettings) : Prop where
  target : lax.target = strict.target := by rfl
  side : lax.side = strict.side := by rfl
  unrepresentable : lax.unrepresentable = strict.unrepresentable ∨ lax.unrepresentable = .accept

/-- A guide that goes by settings that accept no less. -/
structure Guide.Relaxed (strict lax : Guide) : Prop where
  settings : strict.settings.Relaxed lax.settings
  catalog : lax.catalog = strict.catalog := by rfl

variable {strict lax : LoweringSettings}

/-- Values among which nothing is rejected are the same where everything is accepted. -/
theorem literalValues_accept {policy : Unrepresentable} {path : Path} {values vs : List Value}
    (h : literalValues policy path values = .ok vs) : literalValues .accept path values = .ok vs := by
  fun_induction literalValues policy path values generalizing vs with
  | case1 => exact h
  | case2 => cases h
  | case3 _ _ ih => exact ih h
  | case4 => cases h
  | case5 i rest _ ih =>
    obtain ⟨xs, hxs, rfl⟩ := map_eq_ok.mp h
    rw [literalValues, if_neg (by decide), ih hxs]
    rfl
  | case6 v rest hundefined hbigint ih =>
    obtain ⟨xs, hxs, rfl⟩ := map_eq_ok.mp h
    rw [literalValues.eq_4 _ _ _ _ hundefined hbigint, ih hxs]
    rfl

/-- Steps that begin with a failure do not run. -/
theorem runs_cons_fail {f : Failure} {steps : List Step} : ¬ Step.Runs (.fail f :: steps) :=
  fun h => h f (List.mem_cons_self ..)

/-- The steps of a literal that run where something is rejected are those where everything is
    accepted. -/
theorem literalSteps_accept {node : Node} {policy : Unrepresentable} {path : Path}
    (h : Step.Runs (literalSteps node policy path)) :
    literalSteps node .accept path = literalSteps node policy path := by
  unfold literalSteps at h ⊢
  cases hvalues : literalValues policy path node.values with
  | error f =>
    rw [hvalues] at h
    exact (runs_cons_fail h).elim
  | ok vs => rw [literalValues_accept hvalues]

/-- The rules for the kinds are the same where more is accepted, if nothing is rejected. -/
theorem kindSteps_relaxed (h : strict.Relaxed lax) {catchall : Option Kind} {node : Node}
    {path : Path} (hruns : Step.Runs (kindSteps strict catchall node path)) :
    kindSteps lax catchall node path = kindSteps strict catchall node path := by
  rcases h.unrepresentable with hsame | haccept
  · have heq : lax = strict := by
      cases lax
      cases strict
      obtain ⟨htarget, hside, -⟩ := h
      congr
    rw [heq]
  · unfold kindSteps at hruns ⊢
    rw [h.target, h.side, haccept]
    cases hkind : node.kind <;> simp only [hkind, reduceCtorEq, if_false] at hruns ⊢
    case literal => exact literalSteps_accept hruns
    all_goals
      split at hruns
      · exact (runs_cons_fail hruns).elim
      · rename_i hpolicy
        rw [if_neg hpolicy]

/-- The recipe of a node that runs under the stricter settings is its recipe under the others. -/
theorem Node.recipe_relaxed (h : strict.Relaxed lax) {catchall : Option Kind} {node : Node}
    {path : Path} (hruns : Step.Runs (node.recipe strict catchall path)) :
    node.recipe lax catchall path = node.recipe strict catchall path := by
  unfold Node.recipe at hruns ⊢
  split
  · rfl
  · rename_i hlowering
    rw [if_neg hlowering] at hruns
    split
    · rfl
    · rename_i hparent
      rw [if_neg hparent] at hruns
      exact kindSteps_relaxed h hruns

/-! ### Descents that return -/

namespace Conversion

variable {visit visit' : NodeId → Path → Action Conversion Unit} {guide guide' : Guide}

/-- A step retains what it returns if the visits to children do. -/
theorem perform_retains {side : Side} (hvisit : ∀ m path, Retains (visit m path) (visit' m path))
    (n : NodeId) (step : Step) : Retains (perform side visit n step) (perform side visit' n step) := by
  cases step with
  | visit child path => exact hvisit child path
  | inherit child path => exact (hvisit child path).bind fun _ => .refl _
  | inheritResolved path =>
    refine (Retains.refl _).bind fun answer => ?_
    cases answer with
    | node child => exact (hvisit child path).bind fun _ => .refl _
    | value v => exact .refl _
  | inheritSource child path =>
    exact (Retains.refl _).bind fun _ => (hvisit child path).bind fun _ => .refl _
  | _ => exact .refl _

/-- Steps retain what they return if the visits to children do. -/
theorem performAll_retains {side : Side}
    (hvisit : ∀ m path, Retains (visit m path) (visit' m path)) (n : NodeId) (steps : List Step) :
    Retains (performAll side visit n steps) (performAll side visit' n steps) := by
  induction steps with
  | nil => exact .refl _
  | cons step rest ih => exact (perform_retains hvisit n step).bind fun _ => ih

/-- Describing a node under settings that accept no less retains what is returned. -/
theorem lower_retains (h : guide.Relaxed guide')
    (hvisit : ∀ m path, Retains (visit m path) (visit' m path)) (n : NodeId) (path : Path) :
    Retains (lower guide visit n path) (lower guide' visit' n path) := by
  refine (Retains.refl _).bind fun node => (Retains.refl _).bind fun c => ?_
  intro s _ t hrun
  obtain ⟨_, d, hsteps, hrest⟩ := returns_bind.mp hrun
  refine returns_bind.mpr ⟨(), d, ?_, ?_⟩
  · -- the steps return, so none of them fails
    rw [Node.recipe_relaxed h.settings (runs_of_returns hsteps), h.settings.side]
    exact performAll_retains hvisit n _ _ _ _ hsteps
  · rw [h.catalog, h.settings.side]
    exact hrest

/-- An arrival that returns returns the same where more is accepted. -/
theorem arrive_retains (h : guide.Relaxed guide') (depth : Nat) (ancestors : List NodeId)
    (n : NodeId) (path : Path) :
    Retains (arrive guide depth ancestors n path) (arrive guide' depth ancestors n path) := by
  induction depth generalizing ancestors n path with
  | zero =>
    intro c _ d hrun
    unfold Returns at hrun ⊢
    rwa [arrive_eq] at hrun ⊢
  | succ depth ih =>
    intro c _ d hrun
    unfold Returns at hrun ⊢
    rw [arrive_eq] at hrun ⊢
    split at hrun
    · rename_i hn
      rwa [if_pos hn]
    · rename_i hn
      rw [if_neg hn]
      exact lower_retains h (fun m path => ih (n :: ancestors) m path) n path _ _ _ hrun

end Conversion

namespace Converter

open Conversion

/-- Converters the second of which accepts no less. -/
structure Relaxed (strict lax : Converter) : Prop where
  guide : strict.guide.Relaxed lax.guide
  override : lax.override = strict.override := by rfl

variable {conv conv' : Converter}

/-- A visit to a root that returns returns the same where more is accepted. -/
theorem process_retains (h : conv.Relaxed conv') (root : NodeId) :
    Retains (conv.process root) (conv'.process root) := by
  refine Retains.bind ?_ fun _ => (Retains.refl _).bind fun c => ?_
  · exact (Retains.refl _).bind fun c => arrive_retains h.guide _ _ _ _
  · unfold processedEvent
    rw [h.guide.settings.target]
    exact .refl _

/-- Visiting roots under settings that accept no less retains what is returned. -/
theorem processAll_retains (h : conv.Relaxed conv') (roots : List NodeId) :
    Retains (conv.processAll roots) (conv'.processAll roots) := by
  induction roots with
  | nil => exact .refl _
  | cons root rest ih => exact (process_retains h root).bind fun _ => ih

end Converter

/-! ### Descents that fail -/

/-- The failures of conversions that do not come from functions and that have nothing to do with
    what documents can express. -/
inductive Failure.Ordinary : Failure → Prop
  | cycle (path : Path) : Ordinary (.cycle path)
  | dynamicFallback (cause : Raised) (path : Path) : Ordinary (.dynamicFallback cause path)
  | notData (reason : NotData) : Ordinary (.notData reason)
  | flaggedPattern (source : String) (path : Path) : Ordinary (.flaggedPattern source path)
  | missingPattern (path : Path) : Ordinary (.missingPattern path)
  | missingInner (found : Value) (path : Path) : Ordinary (.missingInner found path)
  | unprocessed (kind : Kind) : Ordinary (.unprocessed kind)
  | reemitted (kind : Kind) : Ordinary (.reemitted kind)
  | sharedSurvey : Ordinary .sharedSurvey
  | settings (complaints : List Complaint) : Ordinary (.settings complaints)
  | noGetter (kind : Kind) : Ordinary (.noGetter kind)
  | notPair (index length : Nat) : Ordinary (.notPair index length)
  | missingChild : Ordinary .missingChild
  | misuse : Ordinary .misuse
  | endless : Ordinary .endless

/-- Ordinary failures do not say that something has no counterpart in documents. -/
theorem Failure.Ordinary.label_ne {f : Failure} (h : f.Ordinary) :
    f.label ≠ ReportKind.unrepresentable.name := by
  cases h <;> simp [label, report?, reportOf, ReportKind.name]

/-- What the functions raise that a node holds: the maker of its default, and its lowering. -/
inductive Node.Throws (node : Node) : Failure → Prop
  | default {cause : Raised} (h : node.defaultValue.produced = .error cause) :
      Throws node (.ofRaised cause)
  | lowering {cause : Raised} (h : node.lowering.call none = .error cause) :
      Throws node (.ofRaised cause)

/-- What the functions raise that a store holds: those of its nodes, and the getters of lazy
    nodes. -/
inductive Store.Throws (s : Store) : Failure → Prop
  | node {n : NodeId} {node : Node} {f : Failure} (hn : s.node? n = some node)
      (h : node.Throws f) : Throws s f
  | getter {source : Source} {t : Store} {f : Failure} (hg : source ∈ s.getters.map (·.source))
      (h : (Store.ask source t).1 = .error f) : Throws s f

namespace Store

variable {s t : Store}

/-- The nodes of a store are there in every store that extends it. -/
theorem Extends.node? (h : s.Extends t) {n : NodeId} {node : Node} (hn : s.node? n = some node) :
    t.node? n = some node := by
  cases n with
  | gap => cases hn
  | node i =>
    obtain ⟨more, hmore⟩ := h.nodes
    rw [Store.node?, ← hmore, List.getElem?_append_left (List.getElem?_eq_some_iff.mp hn).1]
    exact hn

/-- What the functions of a store raise is raised by those of every store that extends it. -/
theorem Throws.mono (h : s.Extends t) {f : Failure} (hf : s.Throws f) : t.Throws f := by
  cases hf with
  | node hn hf => exact .node (h.node? hn) hf
  | getter hg hf => exact .getter (h.sources.subset hg) hf

/-- The failure is ordinary, or one of the functions raises it. -/
def Accounts (s : Store) (f : Failure) : Prop := f.Ordinary ∨ s.Throws f

/-- What a store accounts for is accounted for by every store that extends it. -/
theorem Accounts.mono (h : s.Extends t) {f : Failure} (hf : s.Accounts f) : t.Accounts f :=
  hf.imp id (Throws.mono h)

/-- A failure raises itself, and nothing else. -/
theorem raises_fail {α : Type} {P : Failure → Prop} {f : Failure} (h : P f) :
    Raises P (fail f : Action Store α) := by
  unfold fail
  split
  · exact .bind (raises_modify _) fun _ => fun _ g _ hg => by cases hg; exact h
  · exact fun _ g _ hg => by cases hg; exact h

/-- A failure that the store accounts for is explained. -/
theorem explains_fail {α : Type} {f : Failure} (h : s.Accounts f) :
    Explains Accounts (fail f : Action Store α) s := by
  intro g t hrun
  have hextends : s.Extends t := by
    have := fail_extends (α := α) f s
    rwa [hrun] at this
  obtain rfl : f = g := raises_fail (P := (f = ·)) rfl s g t hrun
  exact h.mono hextends

/-- Ordinary failures need no account. -/
theorem explains_ordinary {α : Type} {a : Action Store α} (h : Raises Failure.Ordinary a) :
    Explains Accounts a s := h.explains fun _ _ => .inl

/-- Looking up a node raises ordinary failures alone. -/
theorem raises_fetch (n : NodeId) : Raises Failure.Ordinary (fetch n) := by
  refine .bind raises_get fun s => ?_
  split
  · exact raises_pure _
  · exact raises_fail .missingChild

/-- When a lazy node is asked in vain, its getter says why. -/
theorem explains_resolve (n : NodeId) : Explains Accounts (resolve n) s := by
  refine explains_get.bind fun c d hget => ?_
  obtain ⟨hc, hd⟩ := returns_get.mp hget
  rw [hc, hd]
  split
  · exact explains_pure _
  · refine (explains_ordinary (raises_fetch n)).bind fun node _ hfetch => ?_
    rw [(returns_fetch.mp hfetch).2]
    split
    · exact explains_ordinary (raises_fail (.noGetter _))
    · rename_i i source hgetter
      refine (explains_modify _).bind fun _ t hcount => ?_
      refine Explains.bind (fun f u hask => ?_) fun _ _ _ =>
        (explains_modify _).bind fun _ _ _ => explains_pure _
      -- What the getter raises is accounted for by its source in the store.
      have hsource : source ∈ s.getters.map (·.source) := by
        obtain ⟨k, -, hk⟩ := Option.bind_eq_some_iff.mp hgetter
        obtain ⟨g, hg, hpair⟩ := Option.map_eq_some_iff.mp hk
        cases hpair
        exact List.mem_map_of_mem (List.mem_of_getElem? hg)
      obtain rfl := returns_modify.mp hcount
      have hextends := ask_extends source (s.countCall i)
      rw [hask] at hextends
      rw [← map_source_countCall s i] at hsource
      exact .inr (.getter (hextends.sources.subset hsource) (congrArg (·.1) hask))

/-- Whether a property is optional is found out, or the store accounts for the failure. By induction
    on the links that are followed. -/
theorem explains_isOptionalWithin (side : Side) (links : Nat) (n : NodeId) :
    Explains Accounts (isOptionalWithin side links n) s := by
  induction links generalizing n s with
  | zero => exact explains_ordinary (raises_fail .endless)
  | succ links ih =>
    refine (explains_ordinary (raises_fetch n)).bind fun node _ _ => ?_
    split
    · exact explains_pure _
    · split
      · exact explains_pure _
      · exact ih _
    · refine (explains_resolve n).bind fun answer _ _ => ?_
      split
      · exact ih _
      · exact explains_ordinary (raises_fail .missingChild)

/-- The names that are required are found, or the store accounts for the failure. -/
theorem explains_requiredNames (side : Side) (shape : List (String × NodeId)) :
    Explains Accounts (requiredNames side shape) s := by
  induction shape generalizing s with
  | nil => exact explains_pure _
  | cons p rest ih =>
    obtain ⟨name, child⟩ := p
    refine (explains_get.bind fun s _ _ => explains_isOptionalWithin side _ child).bind ?_
    exact fun skip _ _ => ih.bind fun names _ _ => explains_pure _

end Store

/-! ### Steps that fail -/

/-- The failures among the steps are of a kind. -/
def Step.Stops (P : Failure → Prop) (steps : List Step) : Prop := ∀ f, .fail f ∈ steps → P f

namespace Step

variable {P : Failure → Prop} {ys : List Step} {x : Step}

/-- Failures among steps are those of the first one and those among the rest. -/
@[simp] theorem stops_cons : Stops P (x :: ys) ↔ (∀ f, x = .fail f → P f) ∧ Stops P ys := by
  simp [Stops, or_imp, forall_and, eq_comm]

end Step

section Recipes

variable {node : Node} {path : Path}

/-- The failures of a node's steps: ordinary ones, and what its functions raise. -/
def Node.Accounts (node : Node) (f : Failure) : Prop := f.Ordinary ∨ node.Throws f

/-- Where everything is accepted, what the rules refuse is refused for ordinary reasons, or because
    the maker of a default fails. -/
theorem Node.Refuses.accounts {settings : LoweringSettings}
    (hpolicy : settings.unrepresentable = .accept) {f : Failure} (h : node.Refuses settings f) :
    node.Accounts f := by
  cases h with
  | misuse => exact .inl .misuse
  | missingChild => exact .inl .missingChild
  | flaggedPattern source path => exact .inl (.flaggedPattern source path)
  | missingPattern path => exact .inl (.missingPattern path)
  | missingInner path => exact .inl (.missingInner _ path)
  | dynamicFallback cause path => exact .inl (.dynamicFallback cause path)
  | default hproduced => exact .inr (.default hproduced)
  | undefinedLiteral h | bigintLiteral h | unrepresentable h =>
    rw [hpolicy] at h
    cases h

/-- Where everything is accepted, the rules for the kinds fail for ordinary reasons, or because
    the maker of a default does. -/
theorem stops_kindSteps {settings : LoweringSettings} (hpolicy : settings.unrepresentable = .accept)
    (catchall : Option Kind) :
    Step.Stops node.Accounts (kindSteps settings catchall node path) := by
  intro f hf
  cases byRule_kindSteps hf with
  | fail h => exact h.accounts hpolicy

/-- **Recipes.** Where everything is accepted, a recipe fails for ordinary reasons, or because a
    function of the node does. -/
theorem Node.stops_recipe {settings : LoweringSettings} (h : settings.unrepresentable = .accept)
    (node : Node) (catchall : Option Kind) :
    Step.Stops node.Accounts (node.recipe settings catchall path) := by
  intro f hf
  unfold Node.recipe at hf
  split at hf
  · rcases fail_of_mem_loweringSteps hf with ⟨cause, hcall, rfl⟩ | rfl | ⟨i, length, rfl⟩
    · exact .inr (.lowering hcall)
    · exact .inl .misuse
    · exact .inl (.notPair i length)
  · split at hf
    · cases List.mem_singleton.mp hf
    · exact stops_kindSteps h catchall f hf

end Recipes

namespace Conversion

/-- The failure is ordinary, or one of the functions in the store raises it. -/
def Accounts (c : Conversion) (f : Failure) : Prop := c.store.Accounts f

variable {α : Type} {c d : Conversion} {n : NodeId} {path : Path} {guide : Guide} {side : Side}
  {visit : NodeId → Path → Action Conversion Unit}

/-- What a conversion accounts for is accounted for by every one that extends it. -/
theorem Accounts.mono (h : Extends c d) {f : Failure} (hf : c.Accounts f) : d.Accounts f :=
  Store.Accounts.mono h hf

/-- Failures on the store are explained in the conversion if they are in the store. -/
theorem explains_onStore {a : Action Store α} (h : Explains Store.Accounts a c.store) :
    Explains Accounts (onStore a) c := by
  intro f d hrun
  unfold onStore at hrun
  rcases ha : a c.store with ⟨r, s⟩
  rw [ha] at hrun
  cases hrun
  exact h f s ha

/-- A change to a visit has no failure to explain. -/
theorem explains_onVisit (n : NodeId) (f : Visit → Visit) : Explains Accounts (onVisit n f) c :=
  explains_modify _

/-- A failure that the conversion accounts for is explained. -/
theorem explains_fail {f : Failure} (h : c.Accounts f) :
    Explains Accounts (fail f : Action Conversion α) c :=
  explains_onStore (Store.explains_fail h)

/-- What is known of the visits to the children of a node: they extend the store, and tell why
    they fail. -/
structure Accountable (visit : NodeId → Path → Action Conversion Unit) : Prop where
  grows : ∀ m path, Within Extends (visit m path)
  explains : ∀ m path c, Explains Accounts (visit m path) c

/-- The failure of a step is explained, be it the step's own or that of a visit. -/
theorem explains_perform (hvisit : Accountable visit) (n : NodeId) {step : Step}
    (hstep : ∀ f, step = .fail f → c.Accounts f) :
    Explains Accounts (perform side visit n step) c := by
  cases step with
  | write key value => exact explains_onVisit n _
  | merge entries => exact explains_onVisit n _
  | visit child path => exact hvisit.explains child path c
  | property name child => exact explains_onVisit n _
  | require shape =>
    exact (explains_onStore (Store.explains_requiredNames side shape)).bind fun _ d _ =>
      explains_onVisit n _
  | inherit child path => exact (hvisit.explains child path c).bind fun _ _ _ => explains_onVisit n _
  | inheritResolved path =>
    refine (explains_onStore (Store.explains_resolve n)).bind fun answer d _ => ?_
    cases answer with
    | node child => exact (hvisit.explains child path d).bind fun _ _ _ => explains_onVisit n _
    | value v => exact explains_fail (.inl (.missingInner v path))
  | inheritSource child path =>
    exact (explains_onVisit n _).bind fun _ d _ => (hvisit.explains child path d).bind fun _ _ _ =>
      explains_onVisit child _
  | prefault v => exact explains_onVisit n _
  | fail f => exact explains_fail (hstep f rfl)

/-- The failure of several steps is explained if the steps stop by explained failures. -/
theorem explains_performAll (hvisit : Accountable visit) (n : NodeId) {steps : List Step}
    (hsteps : Step.Stops c.Accounts steps) :
    Explains Accounts (performAll side visit n steps) c := by
  induction steps generalizing c with
  | nil => exact explains_pure _
  | cons step rest ih =>
    obtain ⟨hstep, hrest⟩ := Step.stops_cons.mp hsteps
    refine (explains_perform hvisit n hstep).bind fun _ d hperform => ih fun f hf => ?_
    exact (hrest f hf).mono ((perform_extends hvisit.grows n step).of_returns hperform)

/-- Where everything is accepted, the failure to describe a node is explained. -/
theorem explains_lower (hpolicy : guide.settings.unrepresentable = .accept)
    (hvisit : Accountable visit) (n : NodeId) (path : Path) :
    Explains Accounts (lower guide visit n path) c := by
  refine (explains_onStore (Store.explains_ordinary (Store.raises_fetch n))).bind fun node d hfetch => ?_
  obtain ⟨s, hs, rfl⟩ := returns_onStore.mp hfetch
  obtain ⟨hn, rfl⟩ := Store.returns_fetch.mp hs
  refine explains_get.bind fun _ _ hget => ?_
  rw [(returns_get.mp hget).2]
  refine (explains_performAll hvisit n fun f hf => ?_).bind fun _ _ _ =>
    Explains.bind ?_ fun _ _ _ => ?_
  · exact (node.stops_recipe hpolicy _ f hf).imp id fun hthrows => .node hn hthrows
  · refine explains_get.bind fun _ _ _ => ?_
    split
    · exact explains_onVisit n _
    · exact explains_pure _
  · split
    · exact explains_onVisit n _
    · exact explains_pure _

/-- A visit to a node that was visited before fails for explained reasons. -/
theorem explains_revisit (ancestors : List NodeId) (n : NodeId) (path : Path) :
    Explains Accounts (revisit ancestors n path) c := by
  refine (explains_onVisit n _).bind fun _ _ _ => ?_
  split
  · exact (explains_onVisit n _).bind fun _ _ _ => explains_onStore (explains_modify _)
  · exact explains_pure _

/-- **Arrivals.** Where everything is accepted, an arrival fails for ordinary reasons, or because a
    function in the store does. -/
theorem arrive_accountable (hpolicy : guide.settings.unrepresentable = .accept) (depth : Nat)
    (ancestors : List NodeId) : Accountable (arrive guide depth ancestors) := by
  induction depth generalizing ancestors with
  | zero =>
    refine ⟨fun m path => arrive_extends 0 ancestors m path, fun m path c => ?_⟩
    refine explains_get.bind fun _ _ _ => ?_
    split
    · exact explains_revisit ancestors m path
    · exact (explains_modify _).bind fun _ _ _ => explains_fail (.inl .endless)
  | succ depth ih =>
    refine ⟨fun m path => arrive_extends _ ancestors m path, fun m path c => ?_⟩
    refine explains_get.bind fun _ _ _ => ?_
    split
    · exact explains_revisit ancestors m path
    · exact (explains_modify _).bind fun _ _ _ => explains_lower hpolicy (ih _) m path

end Conversion

namespace Converter

open Conversion

variable {conv : Converter} {c : Conversion}

/-- Where everything is accepted, a visit to a root fails for ordinary reasons, or because a
    function in the store does. -/
theorem explains_process (hpolicy : conv.guide.settings.unrepresentable = .accept)
    (root : NodeId) : Explains Accounts (conv.process root) c := by
  refine (explains_get.bind fun s d _ => ?_).bind fun _ _ _ => explains_get.bind fun _ _ _ =>
    explains_onStore (explains_modify _)
  exact (arrive_accountable hpolicy _ _).explains root [] d

/-- Where everything is accepted, the failure to visit roots is explained. -/
theorem explains_processAll (hpolicy : conv.guide.settings.unrepresentable = .accept)
    (roots : List NodeId) : Explains Accounts (conv.processAll roots) c := by
  induction roots generalizing c with
  | nil => exact explains_pure _
  | cons root rest ih => exact (explains_process hpolicy root).bind fun _ _ _ => ih

end Converter

end SchemaGraph
