import SchemaGraph.Converter
import SchemaGraph.Proofs.Survey.Exploration

namespace SchemaGraph

open SchemaGraph.Action

/-!
# Descents that fail

A descent that fails is not undone.  What it has entered stays entered, the node that it
began with included, so that another visit to this node counts an arrival instead of
failing again.  Of the nodes that were visited before only the tallies change: they may have
been reached more often, or as the source of a clone.  Their contents stay, and none of them
gets the mark of a cycle, since a descent meets below themselves only nodes that it has
entered itself.

* `Visit.Tallied v w` — `w` is `v` after more arrivals
* `Conversion.Tallies old c c'` — in `c'` the nodes in `old` were at most reached again
* `Conversion.arrive_tallies` — every arrival tallies, whatever comes of it
* `Converter.process_error` — what a descent leaves that fails
-/

/-- A visit after more arrivals at its node. -/
structure Visit.Tallied (v w : Visit) : Prop where
  cycle : w.cycle = v.cycle := by rfl
  count : v.count ≤ w.count := by exact le_rfl
  source : v.isSource → w.isSource := by exact id

/-- No arrivals leave a visit as it is. -/
theorem Visit.Tallied.refl (v : Visit) : v.Tallied v where

/-- Arrivals behind arrivals are arrivals. -/
theorem Visit.Tallied.trans {u v w : Visit} (h₁ : u.Tallied v) (h₂ : v.Tallied w) :
    u.Tallied w where
  cycle := h₂.cycle.trans h₁.cycle
  count := h₁.count.trans h₂.count
  source := h₂.source ∘ h₁.source

namespace Conversion

/-- If all nodes in `old` were visited, then they still are, and were at most reached
    again. -/
def Tallies (old : List NodeId) (c c' : Conversion) : Prop :=
  (∀ m ∈ old, c.survey.has m = true) → ∀ m ∈ old, ∃ v w,
    c.survey.visit? m = some v ∧ c'.survey.visit? m = some w ∧ v.Tallied w

variable {old : List NodeId}

/-- At first no node is reached again. -/
theorem Tallies.refl (c : Conversion) : Tallies old c c := by
  intro hold m hm
  obtain ⟨v, hv⟩ := Survey.visit?_of_has (hold m hm)
  exact ⟨v, v, hv, hv, .refl v⟩

/-- What only tallies twice only tallies. -/
theorem Tallies.trans {c d e : Conversion} (h₁ : Tallies old c d) (h₂ : Tallies old d e) :
    Tallies old c e := by
  intro hold m hm
  have hd : ∀ k ∈ old, d.survey.has k = true := by
    intro k hk
    obtain ⟨-, w, -, hw, -⟩ := h₁ hold k hk
    exact Survey.has_of_visit? hw
  obtain ⟨v, w, hv, hw, hvw⟩ := h₁ hold m hm
  obtain ⟨w', x, hw', hx, hwx⟩ := h₂ hd m hm
  obtain rfl : w' = w := Option.some.inj (hw'.symm.trans hw)
  exact ⟨v, x, hv, hx, hvw.trans hwx⟩

instance : Std.Refl (Tallies old) := ⟨Tallies.refl⟩

instance : Trans (Tallies old) (Tallies old) (Tallies old) := ⟨Tallies.trans⟩

/-! ### Steps of a descent -/

/-- What concerns the store alone reaches no node. -/
theorem onStore_tallies {α : Type} (a : Action Store α) : Within (Tallies old) (onStore a) :=
  fun c => Tallies.refl c

/-- A change of one visit that only adds to its tallies, if it is an old one. -/
theorem onVisit_tallies {n : NodeId} {f : Visit → Visit}
    (hf : n ∈ old → ∀ v : Visit, v.Tallied (f v)) : Within (Tallies old) (onVisit n f) := by
  intro c hold m hm
  obtain ⟨v, hv⟩ := Survey.visit?_of_has (hold m hm)
  show ∃ v w, _ ∧ (c.survey.modify n f).visit? m = some w ∧ _
  by_cases hmn : m = n
  · subst hmn
    exact ⟨v, f v, hv, Survey.visit?_modify_of_visit? hv f, hf hm v⟩
  · exact ⟨v, v, hv, by rw [Survey.visit?_modify_of_ne hmn, hv], .refl v⟩

variable {guide : Guide} {visit : NodeId → Path → Action Conversion Unit}

/-- The steps at a node leave its tallies alone. -/
theorem treads_tallies (n : NodeId) : Treads n (Tallies old) where
  fetch := onStore_tallies _
  requiredNames _ _ := onStore_tallies _
  resolve := onStore_tallies _
  fail _ := onStore_tallies _
  write _ _ := onVisit_tallies fun _ _ => {}
  merge _ := onVisit_tallies fun _ _ => {}
  passOn _ := onVisit_tallies fun _ _ => {}
  prefault _ := onVisit_tallies fun _ _ => {}
  settle _ := onVisit_tallies fun _ _ => {}

/-- Lowering a node only tallies if the visits it makes do. -/
theorem lower_tallies (hvisit : ∀ m path, Within (Tallies old) (visit m path)) (n : NodeId)
    (path : Path) : Within (Tallies old) (lower guide visit n path) :=
  (treads_tallies n).lower hvisit
    (fun _ => onVisit_tallies fun _ _ => { source := fun _ => rfl }) path

/-- A node that is not met below itself gets no mark. -/
theorem revisit_tallies {ancestors : List NodeId} {n : NodeId}
    (hn : n ∈ old → n ∉ ancestors) (path : Path) :
    Within (Tallies old) (revisit ancestors n path) := by
  refine .bind (onVisit_tallies fun _ v => { count := Nat.le_succ v.count }) fun _ => ?_
  split
  · rename_i hmem
    exact .bind (onVisit_tallies fun hold => absurd hmem (hn hold)) fun _ => onStore_tallies _
  · exact within_pure _

/-- Entering a node that was not visited leaves the old ones alone. -/
theorem Tallies.of_entered {c c' : Conversion} {n : NodeId} (hn : c.survey.has n = false)
    (h : Tallies old (c.entered n) c') : Tallies old c c' := by
  intro hold m hm
  have hvisit : ∀ k ∈ old, (c.entered n).survey.visit? k = c.survey.visit? k := by
    intro k hk
    refine Survey.visit?_enter_of_ne ?_
    rintro rfl
    rw [hold k hk] at hn
    cases hn
  obtain ⟨v, w, hv, hw, hvw⟩ := h (fun k hk => by
    rw [Survey.has, hvisit k hk]
    exact hold k hk) m hm
  exact ⟨v, w, (hvisit m hm).symm.trans hv, hw, hvw⟩

/-- **Arrivals tally.** An arrival below nodes none of which is old leaves the marks of the
    old ones alone, whatever comes of it: what it lowers, it has entered. -/
theorem arrive_tallies : ∀ (depth : Nat) (ancestors : List NodeId) (n : NodeId) (path : Path),
    (∀ a ∈ ancestors, a ∉ old) → Within (Tallies old) (arrive guide depth ancestors n path) := by
  intro depth
  induction depth with
  | zero =>
    intro ancestors n path hancestors c
    rw [arrive_eq]
    split
    · exact revisit_tallies (fun hold hmem => hancestors n hmem hold) path c
    · rename_i hn
      exact .of_entered (by simpa using hn) (onStore_tallies _ (c.entered n))
  | succ depth ih =>
    intro ancestors n path hancestors c
    rw [arrive_eq]
    split
    · exact revisit_tallies (fun hold hmem => hancestors n hmem hold) path c
    · rename_i hn
      intro hold
      -- A node that is entered was not there before, and neither was any above it.
      have hnew : n ∉ old := fun hmem => hn (hold n hmem)
      refine Tallies.of_entered (by simpa using hn) (lower_tallies (fun m path => ?_) n path
        (c.entered n)) hold
      exact ih (n :: ancestors) m path (List.forall_mem_cons.mpr ⟨hnew, hancestors⟩)

/-- A visit only tallies at nodes that were visited before: induction on the depth of the descent.
    -/
theorem visit_tallies (n : NodeId) (path : Path) :
    Within (Tallies old) (Conversion.visit guide n [] path) :=
  .bind within_get fun _ => arrive_tallies _ [] n path nofun

/-! ### Descents from a root -/

/-- Meeting a node again never fails; below itself or not, it is counted. -/
theorem returns_revisit (n : NodeId) (path : Path) (c : Conversion) :
    Returns (revisit [] n path) c ()
      { c with survey := c.survey.modify n fun v => { v with count := v.count + 1 } } := by
  unfold revisit
  rw [if_neg List.not_mem_nil]
  exact returns_bind.mpr ⟨(), _, returns_onVisit.mpr rfl, returns_pure.mpr ⟨rfl, rfl⟩⟩

/-- A visit to a node that was visited before returns. -/
theorem returns_visit_of_has {c : Conversion} {n : NodeId} (hn : c.survey.has n = true)
    (path : Path) :
    Returns (Conversion.visit guide n [] path) c ()
      { c with survey := c.survey.modify n fun v => { v with count := v.count + 1 } } := by
  refine returns_bind.mpr ⟨c, c, returns_get.mpr ⟨rfl, rfl⟩, ?_⟩
  unfold Returns
  rw [arrive_eq, if_pos hn]
  exact returns_revisit n path c

/-- After an arrival at a node, whatever comes of it, the node is visited. -/
theorem has_arrive (depth : Nat) (ancestors : List NodeId) (n : NodeId) (path : Path)
    (c : Conversion) : (arrive guide depth ancestors n path c).2.survey.has n = true := by
  cases hn : c.survey.has n with
  | true => exact (arrive_within depth ancestors n path c).has hn
  | false =>
    have hentered := Survey.has_of_visit? (Survey.visit?_enter_self hn)
    rw [arrive_eq, if_neg (by simp [hn])]
    cases depth with
    | zero =>
      have h : Within (Descends [n]) (fail .endless : Action Conversion Unit) := fail_within _
      exact (h (c.entered n)).has hentered
    | succ depth =>
      have h : Within (Descends [n]) (lower guide (arrive guide depth (n :: ancestors)) n path) :=
        lower_within (fun m path => arrive_within depth _ m path) n path
      exact (h (c.entered n)).has hentered

/-- A descent is an arrival. -/
theorem visit_eq (n : NodeId) (path : Path) (c : Conversion) :
    Conversion.visit guide n [] path c = arrive guide (c.store.extent + 2) [] n path c := by
  unfold Conversion.visit
  rw [run_bind]
  rfl

end Conversion

namespace Converter

open Conversion

/-- Visiting a root is a descent that belongs to no node itself. -/
theorem process_within (conv : Converter) (n : NodeId) :
    Within (Descends []) (conv.process n) :=
  .bind (visit_within n [] []) fun _ => .bind within_get fun _ => log_within _

/-- Visiting a root, whatever comes of it, only tallies at nodes that were visited before. -/
theorem process_tallies {old : List NodeId} (conv : Converter) (n : NodeId) :
    Within (Tallies old) (conv.process n) :=
  .bind (visit_tallies n []) fun _ => .bind within_get fun _ => onStore_tallies _

/-- A visit to a root leaves the survey that its descent leaves, and fails if that does. -/
theorem process_run (conv : Converter) (n : NodeId) (c : Conversion) :
    (conv.process n c).2.survey = (Conversion.visit conv.guide n [] [] c).2.survey ∧
      (conv.process n c).1.isOk = (Conversion.visit conv.guide n [] [] c).1.isOk := by
  unfold process
  rw [run_bind]
  rcases Conversion.visit conv.guide n [] [] c with ⟨f | ⟨⟩, d⟩
  · exact ⟨rfl, rfl⟩
  · exact ⟨rfl, rfl⟩

/-- A visit to a root that was visited before returns; only the number of arrivals changes. -/
theorem process_again (conv : Converter) {n : NodeId} {c : Conversion}
    (hn : c.survey.has n = true) :
    ∃ d, Returns (conv.process n) c () d ∧
      d.survey = c.survey.modify n fun v => { v with count := v.count + 1 } := by
  have hvisit : Returns (Conversion.visit conv.guide n [] []) c () _ := returns_visit_of_has hn []
  obtain ⟨hsurvey, hok⟩ := process_run conv n c
  rw [hvisit] at hsurvey hok
  obtain ⟨⟨⟩, h⟩ := exists_returns hok
  exact ⟨_, h, hsurvey⟩

/-- The document of a node that was visited is not refused for want of a visit. -/
theorem not_unprocessed {e : Emission} {c : Conversion} (hn : c.survey.has e.root = true)
    (kind : Kind) : e.refusal? c ≠ some (.unprocessed kind) := by
  unfold Emission.refusal?
  rw [if_neg (by simp [hn])]
  split
  · nofun
  · split
    · nofun
    · split
      · intro h
        obtain ⟨path, -, h⟩ := Option.map_eq_some_iff.mp h
        cases h
      · nofun

/-- **Failing visits are not undone.** When a visit to a root fails, the root was new; it is
    visited now, so that visiting it again returns what was written so far, and its document
    is no longer refused for want of a visit.  All nodes that were visited before stay in their
    places, with their contents and without new marks of cycles, but may have been reached more
    often or as sources of clones. -/
theorem process_error (conv : Converter) {n : NodeId} {c c' : Conversion} {f : Failure}
    (h : conv.process n c = (.error f, c')) :
    c.survey.has n = false ∧ c'.survey.has n = true ∧
    (∃ d, Returns (conv.process n) c' () d ∧
      d.survey = c'.survey.modify n fun v => { v with count := v.count + 1 }) ∧
    (∀ e : Emission, e.root = n → ∀ kind, e.refusal? c' ≠ some (.unprocessed kind)) ∧
    c.survey.order <+: c'.survey.order ∧
    ∀ m v, c.survey.visit? m = some v → ∃ w, c'.survey.visit? m = some w ∧
      w.content = v.content ∧ w.stage = v.stage ∧ v.Tallied w := by
  obtain ⟨hsurvey, hok⟩ := process_run conv n c
  rw [h] at hsurvey hok
  have hafter : c'.survey.has n = true := by
    rw [hsurvey, visit_eq]
    exact has_arrive _ [] n [] c
  -- A node that was visited before is only counted again, which does not fail.
  have hbefore : c.survey.has n = false := by
    by_contra hn
    obtain ⟨d, hd, -⟩ := process_again conv (by simpa using hn)
    rw [hd] at h
    cases h
  have hdescends : Descends [] c c' := by
    have := process_within conv n c
    rwa [h] at this
  have htallies : Tallies c.survey.order c c' := by
    have : Tallies c.survey.order c (conv.process n c).2 := process_tallies conv n c
    rwa [h] at this
  refine ⟨hbefore, hafter, process_again conv hafter, fun e he kind => ?_, hdescends.order,
    fun m v hv => ?_⟩
  · subst he
    exact not_unprocessed hafter kind
  -- Visits that were there keep what they contribute, and their arrivals are counted.
  · obtain ⟨w, hw, hstage, -, hcontent⟩ := hdescends.visits hv
    obtain ⟨v', w', hv', hw', htallied⟩ := htallies
      (fun k hk => (Survey.has_iff _ k).mpr hk) m ((Survey.has_iff _ m).mp (Survey.has_of_visit? hv))
    obtain rfl := Option.some.inj (hv'.symm.trans hv)
    obtain rfl := Option.some.inj (hw'.symm.trans hw)
    exact ⟨w', hw, hcontent List.not_mem_nil, hstage, htallied⟩

/-- Lists of big integers, which documents cannot describe. -/
def bigLists : Store where
  nodes := [{ kind := .array, element := .node 1 }, { kind := .bigint }]

/-- A visit to big lists, which fails. -/
def bigListsVisited : Except Failure Unit × Conversion :=
  ({} : Converter).process (.node 0) (start bigLists)

/-- The failing visit to big lists is not undone. -/
theorem process_error_bigLists :
    ∃ f, ({} : Converter).process (.node 0) (start bigLists) = (.error f, bigListsVisited.2) ∧
      bigListsVisited.2.survey.has (.node 0) = true ∧
      ∃ d, Returns (({} : Converter).process (.node 0)) bigListsVisited.2 () d := by
  obtain ⟨f, h⟩ : ∃ f, ({} : Converter).process (.node 0) (start bigLists)
      = (.error f, bigListsVisited.2) := exists_error (by decide +kernel)
  obtain ⟨-, hentered, ⟨d, hd, -⟩, -⟩ := process_error {} h
  exact ⟨f, h, hentered, d, hd⟩

/-- Visiting big lists fails and leaves two visits; visiting them again returns, with half of a
    fragment, and a document is made of that. -/
theorem bigLists_left_half :
    bigListsVisited.1.isOk = false ∧
    (start bigLists).survey.order = [] ∧
    bigListsVisited.2.survey.order = [.node 0, .node 1] ∧
    (({} : Converter).process (.node 0) bigListsVisited.2).1.isOk = true ∧
    (({} : Converter).process (.node 0) bigListsVisited.2).2.survey.fragment (.node 0)
      = [(.str "type", .str "array")] ∧
    (({} : Converter).emit {} (.node 0) bigListsVisited.2).1.isOk = true := by
  refine ⟨?_, ?_, ?_, ?_, ?_, ?_⟩ <;> decide +kernel

end Converter

end SchemaGraph
