import SchemaGraph.Proofs.Survey.Shapes

namespace SchemaGraph

/-!
# Keywords from outside

A few keywords are written by no rule.  What a node holds under one of them comes from its
custom lowering or from its annotation, whatever its kind, and can be told from the store
without looking at any other node.

* `Step.Ruled`      — a step that writes keywords of the rules alone
* `Store.supplied`  — what comes into a node from outside
* `Store.get?_contents?_outside` — a keyword from outside holds what was supplied
* `Store.contents?_formed` — contents have texts as keys, if what is supplied has
-/

/-- A step that writes none of the keywords that come from outside. -/
def Step.Ruled : Step → Prop
  | .write key _ => key ∉ outsideKeywords
  | .merge _ => False
  | _ => True

/-- A step of the rules spares the keywords that come from outside. -/
theorem Step.Ruled.spares {step : Step} (h : step.Ruled) {name : String}
    (hname : name ∈ outsideKeywords) : step.Spares name := by
  cases step with
  | write key v =>
    rintro rfl
    exact h hname
  | merge entries => exact h
  | property | require =>
    rintro rfl
    revert hname
    decide
  | _ => trivial

/-- The rules for the kinds write keywords of the rules alone. -/
theorem ruled_kindSteps {settings : LoweringSettings} {catchall : Option Kind} {node : Node}
    {path : Path} {step : Step} (h : step ∈ kindSteps settings catchall node path) :
    step.Ruled := by
  have hrule := byRule_kindSteps h
  cases step with
  | write key v =>
    have hinside : ∀ key ∈ "allOf" :: "default" :: ruleKeywords, key ∉ outsideKeywords := by decide
    refine hinside key ?_
    rcases hrule.keyword with hkey | ⟨rfl, -⟩ | ⟨rfl, -⟩
    · exact List.mem_cons_of_mem _ (List.mem_cons_of_mem _ hkey)
    · exact List.mem_cons_self ..
    · exact List.mem_cons_of_mem _ (List.mem_cons_self ..)
  | merge => cases hrule
  | _ => trivial

/-! ### What was supplied -/

/-- The settled default leaves all keywords alone but two. -/
theorem Visit.get?_settled_of_ne {side : Side} {kind : Kind} {v : Visit} {name : String}
    (hdefault : name ≠ "default") (hexamples : name ≠ "examples") :
    (v.settled side kind).fragment.get? (.str name) = v.fragment.get? (.str name) := by
  have hne : ∀ {other : String}, name ≠ other →
      (Value.str name).canonical ≠ (Value.str other).canonical := by
    intro other h hc
    rw [Value.canonical_str, Value.canonical_str] at hc
    exact h (Value.str.inj hc)
  rcases v.settled_fragment side kind with hsame | ⟨e, he, hset⟩
  · rw [hsame]
  · have hkept : e.get? (.str name) = v.fragment.get? (.str name) := by
      rcases he with rfl | rfl
      · rfl
      · rw [Entries.get?_erase_of_ne (hne hdefault), Entries.get?_erase_of_ne (hne hexamples)]
    rcases hset with hset | hset
    · rw [hset, hkept]
    · rw [hset, Entries.get?_set_str, if_neg hdefault, hkept]

/-- The entries of a custom lowering. -/
def Node.lowered (node : Node) : Entries :=
  match node.lowering.call none with
  | .ok v => Entries.update [] v.mergeable.1
  | .error _ => []

/-- What comes into a node from outside: its annotation over the entries of its custom
    lowering. -/
def Store.supplied (s : Store) (catalog : String) (n : NodeId) : Entries :=
  (((s.node? n).map Node.lowered).getD []).update (((s.catalog catalog).get? n).getD [])

/-- **Outside.** What a node contributes under a keyword that no rule writes is what was
    supplied. -/
theorem Store.get?_contents?_outside {s : Store} {guide : Guide} {links : Nat} {n : NodeId}
    {v : Visit} (hv : s.contents? guide links n = some v) {name : String}
    (hname : name ∈ outsideKeywords) :
    v.fragment.get? (.str name) = (s.supplied guide.catalog n).get? (.str name) := by
  have hdefault : name ≠ "default" ∧ name ≠ "examples" := by
    constructor <;> (rintro rfl; revert hname; decide)
  obtain ⟨node, w, hn, hw, rfl⟩ := contents?_eq_some.mp hv
  -- The recipe writes such a keyword only when a custom lowering is merged in.
  have hrecipe : w.fragment.get? (.str name) = node.lowered.get? (.str name) := by
    unfold Node.recipe at hw
    unfold Node.lowered
    by_cases hl : node.lowering ≠ .null
    · rw [if_pos hl] at hw
      unfold loweringSteps at hw
      split at hw
      · cases hw
      · rename_i value hcall
        dsimp only at hw
        rw [hcall]
        split at hw <;> cases hw
        rfl
    · rw [if_neg hl] at hw
      have hspares : ∀ step ∈ (if node.parent ≠ .gap then [Step.inheritSource node.parent []]
          else kindSteps guide.settings (s.catchallKind node) node []), step.Spares name := by
        intro step hstep
        split at hstep
        · obtain rfl := List.mem_singleton.mp hstep
          trivial
        · exact (ruled_kindSteps hstep).spares hname
      rw [Step.get?_replayAll hspares hw, not_not.mp hl]
      rfl
  -- The annotation is written over it, and settling concerns other keywords.
  have hannotated : (w.annotated ((s.catalog guide.catalog).get? n)).fragment.get? (.str name)
      = (s.supplied guide.catalog n).get? (.str name) := by
    have hsupplied : s.supplied guide.catalog n
        = node.lowered.update (((s.catalog guide.catalog).get? n).getD []) := by
      unfold supplied
      rw [hn]
      rfl
    rw [hsupplied]
    cases (s.catalog guide.catalog).get? n with
    | none => exact hrecipe
    | some notes => exact Entries.get?_update_congr hrecipe notes
  rw [Visit.get?_settled_of_ne hdefault.1 hdefault.2]
  exact hannotated

/-! ### Keys -/

/-- A step that merges no entries but such with texts as keys keeps a fragment well formed. -/
theorem Step.formed_replay {required : List (String × NodeId) → Option (List String)}
    {answer : Option Resolved} {v v' : Visit} {step : Step} (h : v.fragment.Formed)
    (htexts : ∀ es, step = .merge es → es.Texts)
    (hv : Step.replay required answer v step = some v') : v'.fragment.Formed := by
  -- Keys of the program are texts; only merged entries bring keys of their own.
  cases step with
  | write key value =>
    cases hv
    exact h.set key value
  | merge entries =>
    cases hv
    exact h.update (htexts entries rfl)
  | property name child =>
    cases hv
    exact h.set "properties" _
  | require shape =>
    obtain ⟨names, -, rfl⟩ := replay_require.mp hv
    exact h.set "required" _
  | inheritResolved path =>
    obtain ⟨child, -, rfl⟩ := replay_inheritResolved.mp hv
    exact h
  | fail f => cases hv
  | visit | inherit | inheritSource | prefault =>
    cases hv
    exact h

/-- Steps keep texts as keys, if those that are merged in have texts as keys. -/
theorem Step.formed_replayAll {required : List (String × NodeId) → Option (List String)}
    {answer : Option Resolved} {steps : List Step} {v v' : Visit} (h : v.fragment.Formed)
    (htexts : ∀ es, Step.merge es ∈ steps → es.Texts)
    (hv : Step.replayAll required answer steps v = some v') : v'.fragment.Formed := by
  refine replayAll_keeps (P := fun u => u.fragment.Formed) ?_ hv h
  intro step hstep u x hx hu
  exact formed_replay hu (fun es hmerge => htexts es (hmerge ▸ hstep)) hx

/-- The settled default keeps a fragment well formed. -/
theorem Visit.formed_settled {v : Visit} (h : v.fragment.Formed) (side : Side) (kind : Kind) :
    (v.settled side kind).fragment.Formed := by
  rcases v.settled_fragment side kind with hsame | ⟨e, he, hset⟩
  · exact hsame ▸ h
  · have hformed : e.Formed := by
      rcases he with rfl | rfl
      · exact h
      · exact (h.erase "examples").erase "default"
    rcases hset with hset | hset
    · exact hset ▸ hformed
    · rw [hset]
      exact hformed.set "default" _

/-- **Keys.** What a node contributes has texts as keys, each once, if what is supplied has. -/
theorem Store.contents?_formed {s : Store} {guide : Guide} {links : Nat} {n : NodeId} {v : Visit}
    (htexts : ∀ es, s.Supplied guide.catalog n es → es.Texts)
    (hv : s.contents? guide links n = some v) : v.fragment.Formed := by
  obtain ⟨node, w, hn, hw, rfl⟩ := contents?_eq_some.mp hv
  -- Entries are merged in by a custom lowering alone, and those are supplied.
  have hmerged : ∀ es, Step.merge es ∈ node.recipe guide.settings (s.catchallKind node) [] →
      es.Texts := by
    intro es hes
    unfold Node.recipe at hes
    split at hes
    · unfold loweringSteps at hes
      split at hes
      · cases List.mem_singleton.mp hes
      · rename_i value hcall
        refine htexts es (.inl ⟨node, value, hn, hcall, ?_⟩)
        dsimp only at hes
        split at hes
        · exact Step.merge.inj (List.mem_singleton.mp hes)
        · rcases List.mem_cons.mp hes with hes | hes
          · exact Step.merge.inj hes
          · cases List.mem_singleton.mp hes
    · split at hes
      · cases List.mem_singleton.mp hes
      · exact (ruled_kindSteps hes).elim
  have hrecipe := Step.formed_replayAll .nil hmerged hw
  refine Visit.formed_settled ?_ _ _
  cases hnotes : (s.catalog guide.catalog).get? n with
  | none => exact hrecipe
  | some notes => exact hrecipe.update (htexts notes (.inr hnotes))

end SchemaGraph
