import SchemaGraph.Proofs.Survey.Routine
import SchemaGraph.Proofs.Survey.Upholding

namespace SchemaGraph

/-!
# Defaults that nodes supply

Which default a node supplies can be told from the node and its annotation: the annotated one comes
first, then the one that the rules for the node write, and on the input side the value that stands
in for an absent default.  Pipes supply none on the input side.

* `Node.ruledDefault`, `Node.standIn` — what the rules for a node know about its default
* `Store.suppliedDefault`         — the default that a node supplies
* `Store.contents?_default` — a node contributes the default that it supplies
* `Store.Passes.target`    — a node contributes the content of the node that it passes on
-/

/-- Of entries that are merged in one after the other the last one for a key counts. -/
theorem Entries.get?_update_ofList (key : Value) (e news : Entries) :
    (e.update news).get? key = ((Entries.ofList news).get? key).or (e.get? key) := by
  induction news using List.reverseRecOn with
  | nil => rfl
  | append_singleton front p ih =>
    have hlast : ∀ e : Entries, e.update (front ++ [p]) = (e.update front).set p.1 p.2 := by
      intro e
      simp only [Entries.update, List.foldl_append, List.foldl_cons, List.foldl_nil]
    unfold Entries.ofList at ih ⊢
    rw [hlast, hlast]
    by_cases hk : key.canonical = p.1.canonical
    · rw [get?_congr hk, get?_congr hk, get?_set_self, get?_set_self]
      rfl
    · rw [get?_set_of_ne hk, get?_set_of_ne hk, ih]

/-- What was erased is gone, if each key stood once. -/
theorem Entries.Distinct.get?_erase_self {e : Entries} (hd : e.Distinct) (key : Value) :
    (Entries.erase key e).get? key = none := by
  induction e with
  | nil => rfl
  | cons p rest ih =>
    obtain ⟨hp, hrest⟩ := List.pairwise_cons.mp hd
    unfold Entries.erase
    split
    · rename_i hkey
      exact get?_eq_none fun q hq hother => hp q hq (hkey.trans hother.symm)
    · rename_i hkey
      unfold get?
      rw [if_neg hkey]
      exact ih hrest

/-! ### What is supplied -/

namespace Node

/-- The default that the rules for a node write: that of its custom lowering, or the value of a
    default or of a fallback. -/
def ruledDefault (node : Node) : Option Value :=
  if node.lowering ≠ .null then
    (node.lowering.call none).toOption.bind fun v => (Entries.ofList v.mergeable.1).get? "default"
  else if node.parent ≠ .gap then none
  else
    match node.kind with
    | .default => node.defaultValue.produced.toOption
    | .fallback =>
      if node.fallbackValue = .null then none else (node.fallbackValue.call (some .null)).toOption
    | _ => none

/-- The value that stands in for an absent default on the input side. -/
def standIn (side : Side) (node : Node) : Option Value :=
  if node.lowering = .null ∧ node.parent = .gap ∧ node.kind = .prefault ∧ side = .input then
    node.defaultValue.produced.toOption.filter (· ≠ .undefined)
  else none

end Node

namespace Store

/-- The default in the annotation of a node. -/
def notedDefault (s : Store) (catalog : String) (n : NodeId) : Option Value :=
  ((s.catalog catalog).get? n).bind fun notes => (Entries.ofList notes).get? "default"

/-- The default that a node supplies. -/
def suppliedDefault (s : Store) (guide : Guide) (n : NodeId) : Option Value :=
  (s.node? n).bind fun node =>
    if guide.settings.side = .input ∧ node.kind = .pipe then none
    else (s.notedDefault guide.catalog n).or (node.ruledDefault.or (node.standIn guide.settings.side))

/-- The annotation of a node sets its default to `null` where another value stands in for an absent
    default. -/
def Contested (s : Store) (guide : Guide) (n : NodeId) : Prop :=
  s.notedDefault guide.catalog n = some .null ∧
    ((s.node? n).bind (Node.standIn guide.settings.side)).isSome

instance (s : Store) (guide : Guide) (n : NodeId) : Decidable (s.Contested guide n) :=
  inferInstanceAs (Decidable (_ ∧ _))

end Store

/-! ### Steps -/

/-- A step that neither writes a default nor keeps a value that stands in for one. -/
def Step.Neutral : Step → Prop
  | .write key _ => key ≠ "default"
  | .merge _ => False
  | .prefault _ => False
  | _ => True

section Steps

variable {required : List (String × NodeId) → Option (List String)} {answer : Option Resolved}

/-- A neutral step spares the default. -/
theorem Step.Neutral.spares {step : Step} (h : step.Neutral) : step.Spares "default" := by
  cases step with
  | write key v => exact h
  | merge es => exact h.elim
  | property _ _ => exact fun h => absurd h (by decide)
  | require _ => exact fun h => absurd h (by decide)
  | _ => trivial

/-- Neutral steps leave the default and the value that stands in for it alone. -/
theorem Step.neutral_replayAll {steps : List Step} (hn : ∀ step ∈ steps, step.Neutral)
    {v w : Visit} (h : replayAll required answer steps v = some w) :
    w.fragment.get? "default" = v.fragment.get? "default" ∧ w.prefault = v.prefault := by
  refine ⟨get?_replayAll (fun step hstep => (hn step hstep).spares) h, ?_⟩
  refine replayAll_keeps (P := fun u => u.prefault = v.prefault) ?_ h rfl
  intro step hstep u x hx hu
  -- No neutral step sets a prefault aside.
  cases step with
  | prefault _ => exact (hn _ hstep).elim
  | require shape =>
    obtain ⟨names, -, rfl⟩ := replay_require.mp hx
    exact hu
  | inheritResolved path =>
    obtain ⟨child, -, rfl⟩ := replay_inheritResolved.mp hx
    exact hu
  | fail _ => cases hx
  | _ =>
    cases hx
    exact hu

/-- Content that is passed on goes on being so. -/
theorem Step.isSome_target_replayAll {steps : List Step} {v w : Visit} (hv : v.target.isSome)
    (h : replayAll required answer steps v = some w) : w.target.isSome := by
  refine replayAll_keeps (P := fun u => u.target.isSome) ?_ h hv
  intro step hstep u x hx hu
  -- A target is only ever replaced by another one.
  cases step with
  | require shape =>
    obtain ⟨names, -, rfl⟩ := replay_require.mp hx
    exact hu
  | inheritResolved path =>
    obtain ⟨child, -, rfl⟩ := replay_inheritResolved.mp hx
    rfl
  | fail _ => cases hx
  | inherit _ _ | inheritSource _ _ =>
    cases hx
    rfl
  | _ =>
    cases hx
    exact hu

/-- A wrapper that is lowered has a node inside. -/
theorem replayAll_inheritStep {inner : NodeId} {path : Path} {rest : List Step} {v w : Visit}
    (h : Step.replayAll required answer (inheritStep inner path :: rest) v = some w) :
    Step.replayAll required answer rest { v with target := some inner } = some w := by
  unfold inheritStep at h
  split at h
  · cases h
  · exact h

/-- A default that is written or kept was computed. -/
theorem replayAll_defaultStep {node : Node} {use : Value → Step} {v w : Visit}
    (h : Step.replayAll required answer [defaultStep node use] v = some w) :
    ∃ x, node.defaultValue.produced = .ok x ∧ Step.replay required answer v (use x) = some w := by
  unfold defaultStep at h
  split at h
  · rename_i x hx
    refine ⟨x, hx, ?_⟩
    obtain ⟨u, hu, h⟩ := Step.replayAll_cons.mp h
    cases h
    exact hu
  · cases h

/-- Routine steps have nothing to do with defaults. -/
theorem Step.Routine.neutral {node : Node} {step : Step} (h : step.Routine node) :
    step.Neutral := by
  cases step with
  | write key v => exact h
  | merge _ | prefault _ => exact h.elim
  | _ => trivial

/-! ### Recipes -/

/-- Where a value stands in for an absent default, the rules write none. -/
theorem Node.ruledDefault_of_standIn {side : Side} {node : Node} {x : Value}
    (h : node.standIn side = some x) : node.ruledDefault = none := by
  unfold standIn at h
  split at h
  · rename_i hall
    obtain ⟨hl, hp, hk, -⟩ := hall
    unfold ruledDefault
    rw [if_neg (not_not.mpr hl), if_neg (not_not.mpr hp), hk]
  · cases h

/-- What a recipe leaves of a default: the one that it writes, and the value that stands in for an
    absent one. -/
structure Node.Leaves (side : Side) (node : Node) (v : Visit) : Prop where
  default : v.fragment.get? "default" = node.ruledDefault
  prefault : node.standIn side = if v.prefault = .undefined then none else some v.prefault

/-- Neutral steps leave nothing. -/
theorem Node.Leaves.of_neutral {side : Side} {node : Node} {steps : List Step} {v : Visit}
    (hn : ∀ step ∈ steps, step.Neutral) (hruled : node.ruledDefault = none)
    (hstand : node.standIn side = none)
    (h : Step.replayAll required answer steps {} = some v) : node.Leaves side v := by
  obtain ⟨hfragment, hprefault⟩ := Step.neutral_replayAll hn h
  refine ⟨?_, ?_⟩
  · rw [hfragment, hruled]
    rfl
  · rw [hprefault, hstand]
    rfl

/-- A custom lowering leaves the default among its entries. -/
theorem Node.leaves_lowering {side : Side} {node : Node} {v : Visit} (hl : node.lowering ≠ .null)
    (h : Step.replayAll required answer (loweringSteps node.lowering) {} = some v) :
    node.Leaves side v := by
  unfold loweringSteps at h
  split at h
  · cases h
  · rename_i x hx
    rcases hm : x.mergeable with ⟨entries, stop⟩
    rw [hm] at h
    cases stop with
    | some f => cases h
    | none =>
      cases h
      -- With a lowering of its own, a node has the default it writes there and nothing to stand in.
      refine ⟨?_, ?_⟩
      · unfold ruledDefault
        rw [if_pos hl, hx]
        show _ = (Entries.ofList x.mergeable.1).get? "default"
        rw [hm]
        rfl
      · unfold standIn
        rw [if_neg fun hall => hl hall.1]
        rfl

section Kinds

variable {settings : LoweringSettings} {catchall : Option Kind} {node : Node} {path : Path}
  {v : Visit}

/-- The default of a node that the rules for its kind apply to. -/
theorem Node.ruledDefault_of_kind (hl : node.lowering = .null) (hp : node.parent = .gap) :
    node.ruledDefault = match node.kind with
      | .default => node.defaultValue.produced.toOption
      | .fallback =>
        if node.fallbackValue = .null then none
        else (node.fallbackValue.call (some .null)).toOption
      | _ => none := by
  unfold ruledDefault
  rw [if_neg (not_not.mpr hl), if_neg (not_not.mpr hp)]

/-- Nothing stands in for a default but in the kind for that. -/
theorem Node.standIn_of_ne {side : Side} (hk : node.kind ≠ .prefault) :
    node.standIn side = none := by
  unfold standIn
  rw [if_neg fun hall => hk hall.2.2.1]

/-- The rules for defaults write the value. -/
theorem Node.leaves_default (hk : node.kind = .default) (hl : node.lowering = .null)
    (hp : node.parent = .gap)
    (h : Step.replayAll required answer (kindSteps settings catchall node path) {} = some v) :
    node.Leaves settings.side v := by
  simp only [kindSteps, hk] at h
  obtain ⟨x, hx, hwrite⟩ := replayAll_defaultStep (replayAll_inheritStep h)
  cases hwrite
  refine ⟨?_, standIn_of_ne fun hprefault => by rw [hk] at hprefault; cases hprefault⟩
  rw [ruledDefault_of_kind hl hp, hk]
  dsimp only
  rw [hx, Entries.get?_set_self]
  rfl

/-- The rules for what stands in for a default keep it on the input side. -/
theorem Node.leaves_prefault (hk : node.kind = .prefault) (hl : node.lowering = .null)
    (hp : node.parent = .gap)
    (h : Step.replayAll required answer (kindSteps settings catchall node path) {} = some v) :
    node.Leaves settings.side v := by
  have hruled : node.ruledDefault = none := by
    rw [ruledDefault_of_kind hl hp, hk]
  simp only [kindSteps, hk] at h
  have h := replayAll_inheritStep h
  -- The prefault stands in on the input side alone.
  by_cases hside : settings.side = .input
  · rw [if_pos hside] at h
    obtain ⟨x, hx, hkeep⟩ := replayAll_defaultStep h
    cases hkeep
    refine ⟨hruled ▸ rfl, ?_⟩
    unfold standIn
    rw [if_pos ⟨hl, hp, hk, hside⟩, hx]
    show Option.filter _ (some x) = if x = .undefined then none else some x
    by_cases hundefined : x = .undefined <;> simp [Option.filter, hundefined]
  · rw [if_neg hside] at h
    cases h
    refine ⟨hruled ▸ rfl, ?_⟩
    unfold standIn
    rw [if_neg fun hall => hside hall.2.2.2]
    rfl

/-- The rules for fallbacks write the answer. -/
theorem Node.leaves_fallback (hk : node.kind = .fallback) (hl : node.lowering = .null)
    (hp : node.parent = .gap)
    (h : Step.replayAll required answer (kindSteps settings catchall node path) {} = some v) :
    node.Leaves settings.side v := by
  -- Only a prefault can stand in.
  have hstand : node.standIn settings.side = none :=
    standIn_of_ne fun hprefault => by rw [hk] at hprefault; cases hprefault
  have hruled := ruledDefault_of_kind hl hp
  rw [hk] at hruled
  dsimp only at hruled
  simp only [kindSteps, hk] at h
  have h := replayAll_inheritStep h
  unfold fallbackSteps at h
  split at h
  · rename_i hnone
    cases h
    rw [if_pos hnone] at hruled
    exact ⟨hruled ▸ rfl, hstand⟩
  · rename_i hsome
    rw [if_neg hsome] at hruled
    split at h
    · rename_i x hx
      cases h
      refine ⟨?_, hstand⟩
      rw [hruled, hx, Entries.get?_set_self]
      rfl
    · cases h

/-- The rules for the kinds leave the values of defaults and fallbacks, and what stands in for a
    default. -/
theorem Node.leaves_kindSteps (hl : node.lowering = .null) (hp : node.parent = .gap)
    (h : Step.replayAll required answer (kindSteps settings catchall node path) {} = some v) :
    node.Leaves settings.side v := by
  by_cases hdefault : node.kind = .default
  · exact leaves_default hdefault hl hp h
  by_cases hprefault : node.kind = .prefault
  · exact leaves_prefault hprefault hl hp h
  by_cases hfallback : node.kind = .fallback
  · exact leaves_fallback hfallback hl hp h
  -- the rules for all other kinds know no default
  refine .of_neutral (fun step hstep => (routine_kindSteps settings catchall hdefault hprefault
    hfallback step hstep).neutral) ?_ (standIn_of_ne hprefault) h
  rw [ruledDefault_of_kind hl hp]
  split
  · exact absurd ‹_› hdefault
  · exact absurd ‹_› hfallback
  · rfl

end Kinds

/-- **Recipes.** What the recipe of a node leaves of a default can be told from the node. -/
theorem Node.leaves_recipe {settings : LoweringSettings} {catchall : Option Kind} {node : Node}
    {path : Path} {v : Visit}
    (h : Step.replayAll required answer (node.recipe settings catchall path) {} = some v) :
    node.Leaves settings.side v := by
  unfold Node.recipe at h
  by_cases hl : node.lowering = .null
  · rw [if_neg (not_not.mpr hl)] at h
    by_cases hp : node.parent = .gap
    · rw [if_neg (not_not.mpr hp)] at h
      exact leaves_kindSteps hl hp h
    · rw [if_pos hp] at h
      have hneutral : (Step.inheritSource node.parent path).Neutral := trivial
      refine .of_neutral (List.forall_mem_singleton.mpr hneutral) ?_ ?_ h
      · unfold ruledDefault
        rw [if_neg (not_not.mpr hl), if_pos hp]
      · unfold standIn
        rw [if_neg fun hall => hp hall.2.1]
  · rw [if_pos hl] at h
    exact leaves_lowering hl h

/-- The recipe of a node that passes content on says of which one. -/
theorem Node.target_recipe {settings : LoweringSettings} {catchall : Option Kind} {node : Node}
    {path : Path} {lead : Lead} {v : Visit} (hlead : node.passes? settings.side = some lead)
    (h : Step.replayAll required answer (node.recipe settings catchall path) {} = some v) :
    v.target.isSome := by
  unfold Node.passes? at hlead
  unfold Node.recipe at h
  split at hlead
  · cases hlead
  · rename_i hl
    rw [if_neg hl] at h
    split at hlead
    · rename_i hp
      rw [if_pos hp] at h
      cases h
      rfl
    · rename_i hp
      rw [if_neg hp] at h
      unfold kindSteps at h
      cases hk : node.kind <;> simp only [hk] at h hlead
      -- Of the kinds that pass content on, only a lazy one has to be resolved first.
      case lazy =>
        obtain ⟨u, hu, h⟩ := Step.replayAll_cons.mp h
        obtain ⟨child, -, rfl⟩ := Step.replay_inheritResolved.mp hu
        cases h
        rfl
      case optional | nonoptional | promise | default | prefault | fallback | readonly | pipe =>
        exact Step.isSome_target_replayAll rfl (replayAll_inheritStep h)
      all_goals cases hlead

end Steps

/-! ### Contents -/

/-- What no step of a descent takes from a visit holds when steps are told from the store. -/
theorem Visit.Upheld.replayAll {Q : Visit → Prop} (hq : Visit.Upheld Q)
    {required : List (String × NodeId) → Option (List String)} {answer : Option Resolved}
    {steps : List Step} {v w : Visit} (hv : Q v)
    (h : Step.replayAll required answer steps v = some w) : Q w := by
  refine Step.replayAll_keeps (P := Q) ?_ h hv
  intro step hstep u x hx hu
  -- By the kind of the step: it writes, merges or notes.
  cases step with
  | write key value =>
    cases hx
    exact hq.write key value hu
  | merge es =>
    cases hx
    exact hq.merge es hu
  | property name child =>
    cases hx
    exact hq.write "properties" _ hu
  | require shape =>
    obtain ⟨names, -, rfl⟩ := Step.replay_require.mp hx
    exact hq.write "required" _ hu
  | inheritResolved _ =>
    obtain ⟨child, -, rfl⟩ := Step.replay_inheritResolved.mp hx
    exact hq.note (v := u) rfl rfl hu
  | fail _ => cases hx
  | _ =>
    cases hx
    exact hq.note (v := u) rfl rfl hu

namespace Store

variable {s : Store} {guide : Guide} {links : Nat} {n m : NodeId} {v : Visit}

/-- A node that passes content on contributes that of its target. -/
theorem Passes.target (h : s.Passes guide.settings.side n m)
    (hv : s.contents? guide links n = some v) : v.target = some m := by
  obtain ⟨node, lead, hn, hlead, -⟩ := id h
  have hsome : v.target.isSome := by
    obtain ⟨node', w, hn', hw, rfl⟩ := contents?_eq_some.mp hv
    obtain rfl := Option.some.inj (hn.symm.trans hn')
    rw [Visit.target_settled, Visit.target_annotated]
    exact Node.target_recipe hlead hw
  obtain ⟨k, hk⟩ := Option.isSome_iff_exists.mp hsome
  rw [hk, h.unique (passes_of_contents? hv hk)]

/-- A default written over by an annotation. -/
theorem get?_annotated (s : Store) (catalog : String) (n : NodeId) (w : Visit) :
    (w.annotated ((s.catalog catalog).get? n)).fragment.get? "default"
      = (s.notedDefault catalog n).or (w.fragment.get? "default") := by
  unfold notedDefault Visit.annotated
  cases (s.catalog catalog).get? n with
  | none => rfl
  | some notes => exact Entries.get?_update_ofList _ _ _

/-- The default that is settled on the input side: none of a pipe, and another value in place of one
    that is absent or `null`. -/
theorem get?_settleDefault (hd : v.fragment.Distinct) (kind : Kind) :
    (Conversion.settleDefault kind v).fragment.get? "default" =
      let x := if kind = .pipe then none else v.fragment.get? "default"
      if v.prefault ≠ .undefined ∧ x.getD .null = .null then some v.prefault else x := by
  have hset : ∀ (e : Entries) (p : Prop) [Decidable p],
      (if p then e.set "default" v.prefault else e).get? "default"
        = if p then some v.prefault else e.get? "default" := by
    intro e p _
    split
    · exact Entries.get?_set_self _ _ _
    · rfl
  unfold Conversion.settleDefault
  dsimp only
  by_cases hpipe : kind = .pipe
  · have hgone : ((v.fragment.erase "examples").erase "default").get? "default" = none :=
      (hd.erase "examples").get?_erase_self _
    rw [if_pos hpipe, if_pos hpipe, hset, hgone]
  · rw [if_neg hpipe, if_neg hpipe, hset]

/-- A contested node supplies `null`. -/
theorem Contested.supplied (h : s.Contested guide n) : s.suppliedDefault guide n = some .null := by
  obtain ⟨hnoted, hstand⟩ := h
  obtain ⟨x, hx⟩ := Option.isSome_iff_exists.mp hstand
  obtain ⟨node, hn, hx⟩ := Option.bind_eq_some_iff.mp hx
  have hpipe : node.kind ≠ .pipe := by
    intro hpipe
    rw [Node.standIn_of_ne (by rw [hpipe]; nofun)] at hx
    cases hx
  unfold suppliedDefault
  rw [hn, Option.bind_some, if_neg fun hall => hpipe hall.2, hnoted]
  rfl

/-- On the input side an annotated visit is left with the default that its node supplies. -/
theorem default_settled {node : Node} {u w : Visit} {noted : Option Value}
    (h : node.Leaves .input w) (hd : u.fragment.Distinct)
    (hdefault : u.fragment.get? "default" = noted.or (w.fragment.get? "default"))
    (hprefault : u.prefault = w.prefault)
    (hnull : noted = some .null → node.standIn .input = none) :
    (Conversion.settleDefault node.kind u).fragment.get? "default" =
      if node.kind = .pipe then none
      else noted.or (node.ruledDefault.or (node.standIn .input)) := by
  have hstand := h.prefault
  rw [get?_settleDefault hd, hprefault, hdefault, h.default]
  by_cases hpipe : node.kind = .pipe
  · -- the rules for a pipe keep nothing that could stand in
    have hnone : w.prefault = .undefined := by
      by_contra hsome
      rw [Node.standIn_of_ne (by rw [hpipe]; nofun), if_neg hsome] at hstand
      cases hstand
    rw [if_neg fun hall => hall.1 hnone, if_pos hpipe, if_pos hpipe]
  rw [if_neg hpipe, if_neg hpipe]
  -- Without a prefault the default is as written; with one, no rule of the kind has written any.
  by_cases hkeeps : w.prefault = .undefined
  · rw [if_pos hkeeps] at hstand
    rw [if_neg fun hall => hall.1 hkeeps, hstand, Option.or_none]
  · rw [if_neg hkeeps] at hstand
    rw [hstand, Node.ruledDefault_of_standIn hstand, Option.or_none, Option.none_or]
    cases hx : noted with
    | none => exact if_pos ⟨hkeeps, rfl⟩
    | some x =>
      refine if_neg fun hall => ?_
      have hnone := hnull (hx.trans (congrArg some hall.2))
      rw [hstand] at hnone
      cases hnone

/-- **Supplied defaults.** A node contributes the default that it supplies, unless its annotation
    sets it to `null` where another value stands in for an absent one. -/
theorem contents?_default (hv : s.contents? guide links n = some v)
    (hnull : ¬ s.Contested guide n) : v.fragment.get? "default" = s.suppliedDefault guide n := by
  obtain ⟨node, w, hn, hw, rfl⟩ := contents?_eq_some.mp hv
  have hleaves := Node.leaves_recipe hw
  have hnoted := s.get?_annotated guide.catalog n w
  unfold suppliedDefault
  rw [hn, Option.bind_some]
  -- Only on the input side a default that was kept stands in for one.
  by_cases hside : guide.settings.side = .input
  · have hkept : (w.annotated ((s.catalog guide.catalog).get? n)).prefault = w.prefault := by
      cases (s.catalog guide.catalog).get? n <;> rfl
    have htidy : (w.annotated ((s.catalog guide.catalog).get? n)).fragment.Distinct := by
      have hw := (Visit.Tidy.upheld.replayAll Visit.Tidy.upheld.entered hw).fragment
      cases (s.catalog guide.catalog).get? n with
      | none => exact hw
      | some notes => exact hw.update notes
    unfold Contested at hnull
    rw [hn, Option.bind_some, hside] at hnull
    rw [hside] at hleaves
    rw [Visit.settled, if_pos hside, hside, default_settled hleaves htidy hnoted hkept
      fun hnote => Option.not_isSome_iff_eq_none.mp fun hstand => hnull ⟨hnote, hstand⟩]
    simp
  · have hstand : node.standIn guide.settings.side = none := by
      unfold Node.standIn
      rw [if_neg fun hall => hside hall.2.2.2]
    rw [Visit.settled, if_neg hside, if_neg fun h => hside h.1, hnoted, hleaves.default, hstand,
      Option.or_none]

/-- The node whose content a node passes on, if there is one. -/
def next? (s : Store) (side : Side) (n : NodeId) : Option NodeId :=
  ((s.node? n).bind fun node => node.passes? side).bind (s.follow? n)

/-- A node passes on the content of the next one, and of no other. -/
theorem passes_iff {side : Side} : s.Passes side n m ↔ s.next? side n = some m := by
  unfold Passes next?
  simp only [Option.bind_eq_some_iff]
  constructor
  · rintro ⟨node, lead, hn, hlead, hm⟩
    exact ⟨lead, ⟨node, hn, hlead⟩, hm⟩
  · rintro ⟨lead, ⟨node, hn, hlead⟩, hm⟩
    exact ⟨node, lead, hn, hlead, hm⟩

instance (side : Side) : Decidable (s.Passes side n m) := decidable_of_iff _ passes_iff.symm

/-- Content that is passed on along a chain that ends is not passed on in a circle. -/
theorem not_circular {side : Side} {below : List NodeId}
    (hchain : List.IsChain (s.Passes side) (n :: below))
    (hend : ∀ m, ¬ s.Passes side ((n :: below).getLast (List.cons_ne_nil n below)) m) :
    ¬ Relation.TransGen (s.Passes side) n n := by
  intro hloop
  induction below generalizing n with
  | nil =>
    obtain ⟨m, hm, -⟩ := Relation.TransGen.head'_iff.mp hloop
    exact hend m hm
  | cons k rest ih =>
    obtain ⟨hk, hrest⟩ := List.isChain_cons_cons.mp hchain
    obtain ⟨m, hm, hback⟩ := Relation.TransGen.head'_iff.mp hloop
    obtain rfl := hm.unique hk
    -- the next node of the chain lies on the same circle
    exact ih hrest hend (.tail' hback hk)

end Store

end SchemaGraph
