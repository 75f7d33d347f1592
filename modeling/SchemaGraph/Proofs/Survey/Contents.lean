import SchemaGraph.Proofs.Survey.Rules
import SchemaGraph.Proofs.Survey.Frame

namespace SchemaGraph

/-!
# Contents of single nodes

What a node contributes to documents can be told from the store, without a visit to any
other node: the keywords of its recipe, with its annotation written over them, and with its
default settled.

* `Step.replay`, `Step.replayAll` — what steps write, when lazy nodes have answered
* `Store.contents?`               — what a node contributes
* `Step.replayAll_path`           — paths matter to failures alone
-/

namespace Step

/-- What a step writes, when it is known which properties must be there and what the lazy
    node stands for. -/
def replay (required : List (String × NodeId) → Option (List String))
    (answer : Option Resolved) (v : Visit) : Step → Option Visit
  | .write key value => some { v with fragment := v.fragment.set (.str key) value }
  | .merge entries => some { v with fragment := v.fragment.update entries }
  | .visit _ _ => some v
  | .property name child =>
    some { v with fragment := Conversion.putProperty name child v.fragment }
  | .require shape =>
    match required shape with
    | some names =>
      some { v with fragment := v.fragment.set "required" (.list (names.map Value.str)) }
    | none => none
  | .inherit child _ => some { v with target := some child }
  | .inheritResolved _ =>
    match answer with
    | some (.node child) => some { v with target := some child }
    | _ => none
  | .inheritSource child _ => some { v with target := some child }
  | .prefault value => some { v with prefault := value }
  | .fail _ => none

/-- What several steps write, one after the other. -/
def replayAll (required : List (String × NodeId) → Option (List String))
    (answer : Option Resolved) : List Step → Visit → Option Visit
  | [], v => some v
  | step :: rest, v =>
    match replay required answer v step with
    | some w => replayAll required answer rest w
    | none => none

variable {required : List (String × NodeId) → Option (List String)} {answer : Option Resolved}
  {step : Step} {rest steps : List Step} {v w : Visit}

/-- The names of required properties are written if they are known. -/
theorem replay_require {shape : List (String × NodeId)} :
    replay required answer v (.require shape) = some w ↔ ∃ names, required shape = some names ∧
      { v with fragment := v.fragment.set "required" (.list (names.map Value.str)) } = w := by
  simp only [replay]
  cases required shape <;> simp

/-- Content is passed on from what a lazy node stands for if that is a node. -/
theorem replay_inheritResolved {path : Path} :
    replay required answer v (.inheritResolved path) = some w ↔
      ∃ child, answer = some (.node child) ∧ { v with target := some child } = w := by
  simp only [replay]
  split
  · simp
  · rename_i hnode
    exact ⟨nofun, fun ⟨child, hchild, _⟩ => absurd hchild (hnode child)⟩

/-- Several steps write what the first one writes, and then what the others write over it. -/
theorem replayAll_cons :
    replayAll required answer (step :: rest) v = some w ↔
      ∃ u, replay required answer v step = some u ∧ replayAll required answer rest u = some w := by
  simp only [replayAll]
  cases replay required answer v step <;> simp

/-- What each of several steps keeps is kept by all of them: induction on the steps. -/
theorem replayAll_keeps {P : Visit → Prop}
    (hkept : ∀ step ∈ steps, ∀ u x, replay required answer u step = some x → P u → P x)
    (h : replayAll required answer steps v = some w) (hv : P v) : P w := by
  induction steps generalizing v with
  | nil =>
    cases h
    exact hv
  | cons step rest ih =>
    obtain ⟨hfirst, hrest⟩ := List.forall_mem_cons.mp hkept
    obtain ⟨u, hu, h⟩ := replayAll_cons.mp h
    exact ih hrest h (hfirst v u hu hv)

/-- Steps write the same over the same content. -/
theorem replay_congr {v w v' : Visit} {step : Step} (h : v.content = w.content)
    (hv : replay required answer v step = some v') :
    ∃ w', replay required answer w step = some w' ∧ v'.content = w'.content := by
  simp only [Visit.content, Prod.mk.injEq] at h ⊢
  obtain ⟨hf, ht, hp⟩ := h
  -- Only what is required and what is resolved may be missing, and neither depends on the visit.
  cases step with
  | require shape =>
    obtain ⟨names, hnames, rfl⟩ := replay_require.mp hv
    exact ⟨_, replay_require.mpr ⟨names, hnames, rfl⟩, by simp [hf, ht, hp]⟩
  | inheritResolved path =>
    obtain ⟨child, hchild, rfl⟩ := replay_inheritResolved.mp hv
    exact ⟨_, replay_inheritResolved.mpr ⟨child, hchild, rfl⟩, by simp [hf, hp]⟩
  | fail f => cases hv
  | _ =>
    cases hv
    exact ⟨_, rfl, by simp [hf, ht, hp]⟩

/-- What steps write depends on the contents of a visit alone: induction on the steps. -/
theorem replayAll_congr {steps : List Step} {v w v' : Visit} (h : v.content = w.content)
    (hv : replayAll required answer steps v = some v') :
    ∃ w', replayAll required answer steps w = some w' ∧ v'.content = w'.content := by
  induction steps generalizing v w with
  | nil =>
    cases hv
    exact ⟨w, rfl, h⟩
  | cons step rest ih =>
    obtain ⟨u, hu, hv⟩ := replayAll_cons.mp hv
    obtain ⟨x, hx, hux⟩ := replay_congr h hu
    obtain ⟨w', hw', hcontent⟩ := ih hux hv
    exact ⟨w', replayAll_cons.mpr ⟨x, hx, hw'⟩, hcontent⟩

/-- What was written stays written when more is known. -/
theorem replay_mono {required' : List (String × NodeId) → Option (List String)}
    {answer' : Option Resolved}
    (hr : ∀ shape names, required shape = some names → required' shape = some names)
    (ha : ∀ r, answer = some r → answer' = some r) {v v' : Visit} {step : Step}
    (hv : replay required answer v step = some v') :
    replay required' answer' v step = some v' := by
  cases step with
  | require shape =>
    obtain ⟨names, hnames, rfl⟩ := replay_require.mp hv
    exact replay_require.mpr ⟨names, hr shape names hnames, rfl⟩
  | inheritResolved path =>
    obtain ⟨child, hchild, rfl⟩ := replay_inheritResolved.mp hv
    exact replay_inheritResolved.mpr ⟨child, ha _ hchild, rfl⟩
  | _ => exact hv

/-- Steps that write something still write it when more questions are answered: induction on the
    steps. -/
theorem replayAll_mono {required' : List (String × NodeId) → Option (List String)}
    {answer' : Option Resolved}
    (hr : ∀ shape names, required shape = some names → required' shape = some names)
    (ha : ∀ r, answer = some r → answer' = some r) {steps : List Step} {v v' : Visit}
    (hv : replayAll required answer steps v = some v') :
    replayAll required' answer' steps v = some v' := by
  induction steps generalizing v with
  | nil => exact hv
  | cons step rest ih =>
    obtain ⟨u, hu, hv⟩ := replayAll_cons.mp hv
    exact replayAll_cons.mpr ⟨u, replay_mono hr ha hu, ih hv⟩

/-! ### Paths -/

/-- A step without the path that it was met on. -/
def bare : Step → Step
  | .visit child _ => .visit child []
  | .inherit child _ => .inherit child []
  | .inheritResolved _ => .inheritResolved []
  | .inheritSource child _ => .inheritSource child []
  | .fail _ => .fail .misuse
  | step => step

/-- A step writes the same without its path. -/
theorem replay_bare (v : Visit) (step : Step) :
    replay required answer v step.bare = replay required answer v step := by
  cases step <;> rfl

/-- Many steps write the same without their paths. -/
theorem replayAll_bare (steps : List Step) (v : Visit) :
    replayAll required answer (steps.map bare) v = replayAll required answer steps v := by
  induction steps generalizing v with
  | nil => rfl
  | cons step rest ih => simp only [List.map_cons, replayAll, replay_bare, ih]

end Step

section Paths

variable (path path' : Path)

/-- Without its path the step of a pattern is the same. -/
theorem bare_patternStep (p : Pattern) :
    (patternStep p path).bare = (patternStep p path').bare := by
  unfold patternStep Pattern.keyword
  by_cases h : p.flagged <;> simp [h, Step.bare]

/-- Without their paths the visits of children are the same. -/
theorem bare_visitSteps (key : String) (children : List NodeId) :
    (visitSteps key children path).map Step.bare
      = (visitSteps key children path').map Step.bare := by
  simp [visitSteps, Step.bare, Function.comp_def]

/-- Without its path the step that takes over content is the same. -/
theorem bare_inheritStep (inner : NodeId) :
    (inheritStep inner path).bare = (inheritStep inner path').bare := by
  unfold inheritStep
  split <;> rfl

/-- Without their paths the steps of texts are the same. -/
theorem bare_stringSteps (c : Constraints) :
    (stringSteps c path).map Step.bare = (stringSteps c path').map Step.bare := by
  unfold stringSteps
  simp only [List.map_append]
  congr 2
  split
  · rfl
  · simp [bare_patternStep path path']
  · rfl

/-- The values of a literal do not depend on the path; only their refusal does. -/
theorem toOption_literalValues (policy : Unrepresentable) (values : List Value) :
    (literalValues policy path values).toOption
      = (literalValues policy path' values).toOption := by
  have hmap : ∀ {x y : Except Failure (List Value)} (f : List Value → List Value),
      x.toOption = y.toOption → (x.map f).toOption = (y.map f).toOption := by
    intro x y f h
    cases x <;> cases y <;> simp_all [Except.toOption, Except.map]
  fun_induction literalValues policy path values with
  | case1 => rfl
  | case2 rest h => simp [literalValues, h, Except.toOption]
  | case3 rest h ih => simpa [literalValues, h] using ih
  | case4 i rest h => simp [literalValues, h, Except.toOption]
  | case5 i rest h ih => simpa [literalValues, h] using hmap _ ih
  | case6 v rest h₁ h₂ ih =>
    rw [literalValues]
    · exact hmap _ ih
    · exact h₁
    · exact h₂

/-- Without their paths the steps of literals are the same. -/
theorem bare_literalSteps (node : Node) (policy : Unrepresentable) :
    (literalSteps node policy path).map Step.bare
      = (literalSteps node policy path').map Step.bare := by
  have h := toOption_literalValues path path' policy node.values
  unfold literalSteps
  cases hx : literalValues policy path node.values with
  | error f =>
    cases hy : literalValues policy path' node.values with
    | error g => rfl
    | ok vs => simp [hx, hy, Except.toOption] at h
  | ok vs =>
    cases hy : literalValues policy path' node.values with
    | error g => simp [hx, hy, Except.toOption] at h
    | ok ws =>
      obtain rfl : vs = ws := by simpa [hx, hy, Except.toOption] using h
      rfl

/-- Without their paths the steps of objects are the same. -/
theorem bare_objectSteps (node : Node) (catchall : Option Kind) :
    (objectSteps node catchall path).map Step.bare
      = (objectSteps node catchall path').map Step.bare := by
  unfold objectSteps
  simp only [List.map_append, List.map_flatMap]
  congr 1
  split
  · rfl
  · split <;> rfl

/-- Without their paths the steps of tuples are the same. -/
theorem bare_tupleSteps (node : Node) (target : Target) :
    (tupleSteps node target path).map Step.bare
      = (tupleSteps node target path').map Step.bare := by
  unfold tupleSteps
  simp only [List.map_append, bare_visitSteps path path']
  congr 3
  split <;> rfl

/-- Without their paths the steps of fallbacks are the same. -/
theorem bare_fallbackSteps (node : Node) :
    (fallbackSteps node path).map Step.bare = (fallbackSteps node path').map Step.bare := by
  unfold fallbackSteps
  split
  · rfl
  · split <;> rfl

/-- Without their paths the steps of templates are the same. -/
theorem bare_templateSteps (node : Node) :
    (templateSteps node path).map Step.bare = (templateSteps node path').map Step.bare := by
  unfold templateSteps
  split
  · rfl
  · simp [bare_patternStep path path']

/-- The rules for the kinds give the same steps on every path, but for the paths in them. -/
theorem bare_kindSteps (settings : LoweringSettings) (catchall : Option Kind) (node : Node) :
    (kindSteps settings catchall node path).map Step.bare
      = (kindSteps settings catchall node path').map Step.bare := by
  unfold kindSteps
  cases node.kind
  case string => exact bare_stringSteps path path' _
  case array => simp only [arraySteps, List.map_append, List.map_cons, Step.bare]
  case object => exact bare_objectSteps path path' node catchall
  case tuple => exact bare_tupleSteps path path' node _
  case literal => exact bare_literalSteps path path' node _
  case templateLiteral => exact bare_templateSteps path path' node
  case union | intersection =>
    simp only [unionSteps, intersectionSteps, List.map_append, bare_visitSteps path path']
  case optional | nonoptional | promise | default | prefault | readonly | pipe =>
    simp only [List.map_cons, bare_inheritStep path path']
  case fallback =>
    simp only [List.map_cons, bare_inheritStep path path', bare_fallbackSteps path path']
  all_goals first
    | rfl
    | (dsimp only; split <;> rfl)

/-- Without their paths the steps of a recipe are the same, whatever the kind of the node. -/
theorem bare_recipe (settings : LoweringSettings) (catchall : Option Kind) (node : Node) :
    (node.recipe settings catchall path).map Step.bare
      = (node.recipe settings catchall path').map Step.bare := by
  unfold Node.recipe
  split
  · rfl
  · split
    · rfl
    · exact bare_kindSteps path path' settings catchall node

end Paths

/-- **Paths.** What a recipe writes does not depend on the path that the node was met on. -/
theorem Step.replayAll_path {required : List (String × NodeId) → Option (List String)}
    {answer : Option Resolved} (settings : LoweringSettings) (catchall : Option Kind)
    (node : Node) (path : Path) (v : Visit) :
    replayAll required answer (node.recipe settings catchall path) v
      = replayAll required answer (node.recipe settings catchall []) v := by
  rw [← replayAll_bare, bare_recipe path [], replayAll_bare]

/-! ### Contents -/

/-- A visit with the annotation of its node written over its fragment. -/
def Visit.annotated (notes : Option Entries) (v : Visit) : Visit :=
  match notes with
  | some notes => { v with fragment := v.fragment.update notes }
  | none => v

/-- A visit whose default is settled, on the input side. -/
def Visit.settled (side : Side) (kind : Kind) (v : Visit) : Visit :=
  if side = .input then Conversion.settleDefault kind v else v

/-- What a node contributes, told from the answers that the store keeps.  Whether properties
    must be there is asked over the given number of links. -/
def Store.contents? (s : Store) (guide : Guide) (links : Nat) (n : NodeId) : Option Visit :=
  match s.node? n with
  | none => none
  | some node =>
    let steps := node.recipe guide.settings (s.catchallKind node) []
    match Step.replayAll (s.required? guide.settings.side links) (s.resolved? n) steps {} with
    | none => none
    | some v =>
      some ((v.annotated ((s.catalog guide.catalog).get? n)).settled guide.settings.side node.kind)

/-- What a node contributes is what its recipe writes into an empty visit, with its annotation and
    with the default settled. -/
theorem Store.contents?_eq_some {s : Store} {guide : Guide} {links : Nat} {n : NodeId} {v : Visit} :
    s.contents? guide links n = some v ↔ ∃ node w, s.node? n = some node ∧
      Step.replayAll (s.required? guide.settings.side links) (s.resolved? n)
        (node.recipe guide.settings (s.catchallKind node) []) {} = some w ∧
      v = (w.annotated ((s.catalog guide.catalog).get? n)).settled guide.settings.side
        node.kind := by
  unfold contents?
  constructor
  · intro hv
    split at hv
    · cases hv
    · rename_i node hn
      dsimp only at hv
      split at hv
      · cases hv
      · rename_i w hw
        exact ⟨node, w, hn, hw, (Option.some.inj hv).symm⟩
  · rintro ⟨node, w, hn, hw, rfl⟩
    rw [hn]
    dsimp only
    rw [hw]

/-- What a node contributes stays as it is when a closed store grows. -/
theorem Store.contents?_mono {s t : Store} (h : Grows s t) (hs : s.Closed) {guide : Guide}
    {links more : Nat} (hle : links ≤ more) {n : NodeId} {v : Visit}
    (hv : s.contents? guide links n = some v) : t.contents? guide more n = some v := by
  obtain ⟨node, w, hn, hw, rfl⟩ := contents?_eq_some.mp hv
  refine contents?_eq_some.mpr ⟨node, w, h.node? hn, ?_, ?_⟩
  · rw [catchallKind_eq h hs hn]
    exact Step.replayAll_mono (fun _ _ => required?_mono h hle) (fun _ => h.resolved) hw
  · rw [h.notes _ (by rw [hn]; rfl)]

end SchemaGraph
