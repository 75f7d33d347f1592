import SchemaGraph.Proofs.Survey.Anchoring
import SchemaGraph.Proofs.Survey.Outside
import SchemaGraph.Proofs.Survey.Shapes

namespace SchemaGraph

open SchemaGraph.Action

/-!
# Nodes that leave `allOf` to others

A node that passes on the content of another one has no rule that writes `allOf`, and a node that
has one passes nothing on.  So whatever comes of a descent, a node that has a target asks for nothing
besides, unless its annotation does.

* `Visit.Modest`          — what a visit asks for besides comes from the annotation
* `Conversion.Restrains`  — visits that were modest stay so, and new ones are
* `Conversion.visit_restrains` — descents restrain what they visit
-/

/-- What is known of a visit that is not finished: only a node that passes content on has a target,
    and such a node asks for nothing besides, unless its annotation does. -/
structure Visit.Modest (s : Store) (guide : Guide) (n : NodeId) (v : Visit) : Prop where
  passes : v.target.isSome → ∃ node lead, s.node? n = some node ∧
    node.passes? guide.settings.side = some lead
  spared : ∀ node lead, s.node? n = some node → node.passes? guide.settings.side = some lead →
    s.Undemanding guide.catalog n → v.body.get? Emission.allOfKey = none
  /-- Nothing is written for a place where no node is. -/
  unknown : s.node? n = none → v.body = []

namespace Visit.Modest

variable {s t : Store} {guide : Guide} {n : NodeId} {v w : Visit}

/-- A node that is entered has no target and asks for nothing. -/
theorem entered (s : Store) (guide : Guide) (n : NodeId) : Visit.Modest s guide n {} where
  passes h := by cases h
  spared _ _ _ _ _ := rfl
  unknown _ := rfl

/-- A visit stays modest when the store grows. -/
theorem grows (h : v.Modest s guide n) (hst : s.Grows t) : v.Modest t guide n where
  passes hsome := by
    obtain ⟨node, lead, hn, hlead⟩ := h.passes hsome
    exact ⟨node, lead, hst.node? hn, hlead⟩
  spared node lead hn hlead hundemanding := by
    -- A node that has come into being since has nothing in its body yet.
    cases hs : s.node? n with
    | none =>
      rw [h.unknown hs]
      rfl
    | some node' =>
      obtain rfl := Option.some.inj ((hst.node? hs).symm.trans hn)
      refine h.spared _ lead hs hlead fun notes hnotes => hundemanding notes ?_
      rw [hst.notes guide.catalog (by rw [hs]; rfl)]
      exact hnotes
  unknown ht := by
    apply h.unknown
    cases hs : s.node? n with
    | none => rfl
    | some node =>
      rw [hst.node? hs] at ht
      cases ht

/-- A visit with the same body and the same target. -/
theorem note (h : v.Modest s guide n) (hbody : w.body = v.body) (htarget : w.target = v.target) :
    w.Modest s guide n where
  passes hsome := h.passes (htarget ▸ hsome)
  spared node lead hn hlead hundemanding := hbody ▸ h.spared node lead hn hlead hundemanding
  unknown hn := hbody ▸ h.unknown hn

/-- A fragment that is written anew, and asks for the same besides where content is passed on. -/
theorem fragment (h : v.Modest s guide n) {node : Node} (hn : s.node? n = some node) {es : Entries}
    (hes : ∀ lead, node.passes? guide.settings.side = some lead → s.Undemanding guide.catalog n →
      es.get? Emission.allOfKey = v.fragment.get? Emission.allOfKey) :
    ({ v with fragment := es } : Visit).Modest s guide n where
  passes hsome := h.passes hsome
  spared node' lead hn' hlead hundemanding := by
    obtain rfl := Option.some.inj (hn.symm.trans hn')
    have hspared := h.spared node lead hn hlead hundemanding
    unfold Visit.body at hspared ⊢
    cases hdefinition : v.definition with
    | none =>
      simp only [hdefinition, Option.getD_none] at hspared ⊢
      rw [hes lead hlead hundemanding, hspared]
    | some body =>
      simp only [hdefinition, Option.getD_some] at hspared ⊢
      exact hspared
  unknown hnone := by
    rw [hn] at hnone
    cases hnone

end Visit.Modest

namespace Conversion

variable {c d : Conversion} {guide : Guide} {known : List (NodeId × Node)} {n : NodeId}
  {node : Node} {step : Step} {visit : NodeId → Path → Action Conversion Unit}

/-- What waits to be finished is modest. -/
def Modest (guide : Guide) (c : Conversion) : Prop :=
  ∀ n v, c.survey.visit? n = some v → v.merged = false → v.Modest c.store guide n

/-- Where some nodes are known, visits that were modest stay so, and new ones are modest too. -/
structure Restrains (guide : Guide) (known : List (NodeId × Node)) (c d : Conversion) : Prop where
  store : Store.Keeps c.store d.store
  modest : c.store.Closed → (∀ p ∈ known, c.store.node? p.1 = some p.2) → c.Modest guide →
    d.Modest guide

instance : Std.Refl (Restrains guide known) := ⟨fun _ => ⟨.refl _, fun _ _ h => h⟩⟩

instance : Trans (Restrains guide known) (Restrains guide known) (Restrains guide known) where
  trans h₁ h₂ :=
    { store := h₁.store.trans h₂.store
      modest := fun hs hknown hc => by
        obtain ⟨hgrows, hclosed⟩ := h₁.store hs
        exact h₂.modest hclosed (fun p hp => hgrows.node? (hknown p hp)) (h₁.modest hs hknown hc) }

/-- Fewer known nodes ask for more restraint. -/
theorem Restrains.mono (h : Restrains guide [] c d) : Restrains guide known c d :=
  ⟨h.store, fun hs _ hc => h.modest hs (fun _ hp => absurd hp List.not_mem_nil) hc⟩

/-- What is known makes no difference where it is so. -/
theorem Restrains.of_known (h : Restrains guide [(n, node)] c d)
    (hn : c.store.node? n = some node) : Restrains guide [] c d := by
  refine ⟨h.store, fun hs _ hc => h.modest hs (fun p hp => ?_) hc⟩
  rw [List.mem_singleton.mp hp]
  exact hn

/-- What keeps the store keeps visits modest. -/
theorem onStore_restrains {α : Type} {a : Action Store α} (h : Within Store.Keeps a) :
    Within (Restrains guide known) (onStore a) := fun c =>
  ⟨h c.store, fun hs _ hc n v hv hwaits => (hc n v hv hwaits).grows (h c.store hs).1⟩

/-- A failure keeps visits modest. -/
theorem fail_restrains {α : Type} (f : Failure) :
    Within (Restrains guide known) (fail f : Action Conversion α) :=
  onStore_restrains fun s => (Store.fail_makes f s).keeps

/-- A visit that is changed and stays modest. -/
theorem onVisit_restrains {f : Visit → Visit} (hmerged : ∀ v, (f v).merged = v.merged)
    (hf : ∀ v, (∀ p ∈ known, c.store.node? p.1 = some p.2) → v.Modest c.store guide n →
      (f v).Modest c.store guide n) : Restrains guide known c (onVisit n f c).2 where
  store := .refl _
  modest _ hknown hc m v hv hwaits := by
    obtain ⟨rfl, u, hu, rfl⟩ | ⟨-, hv⟩ := Survey.visit?_modify_cases hv
    · exact hf u hknown (hc m u hu ((hmerged u).symm.trans hwaits))
    · exact hc m v hv hwaits

/-- A mark on a visit changes nothing that is asked for. -/
theorem onVisit_note_restrains {f : Visit → Visit} (hbody : ∀ v, (f v).body = v.body)
    (htarget : ∀ v, (f v).target = v.target) (hmerged : ∀ v, (f v).merged = v.merged) :
    Within (Restrains guide known) (onVisit n f) := fun _ =>
  onVisit_restrains hmerged fun v _ h => h.note (hbody v) (htarget v)

/-- Keywords are written for a known node. -/
theorem onFragment_restrains (f : Entries → Entries)
    (hf : ∀ lead, node.passes? guide.settings.side = some lead → ∀ es : Entries,
      (f es).get? Emission.allOfKey = es.get? Emission.allOfKey) :
    Within (Restrains guide [(n, node)]) (onFragment n f) := fun _ =>
  onVisit_restrains (fun _ => rfl) fun _ hknown h =>
    h.fragment (hknown _ (List.mem_singleton_self _)) fun lead hlead _ => hf lead hlead _

/-- A known node that passes content on may say whose. -/
theorem passOn_restrains {lead : Lead} (hlead : node.passes? guide.settings.side = some lead)
    (child : NodeId) : Within (Restrains guide [(n, node)]) (passOn n child) := fun _ =>
  onVisit_restrains (fun _ => rfl) fun _ hknown h =>
    { passes := fun _ => ⟨node, lead, hknown _ (List.mem_singleton_self _), hlead⟩
      spared := h.spared
      unknown := h.unknown }

/-- A step that does not write a keyword, as it changes a fragment. -/
theorem get?_set_of_spares {name : String} {es : Entries} {value : Value} (h : name ≠ "allOf") :
    (es.set (.str name) value).get? Emission.allOfKey = es.get? Emission.allOfKey := by
  show Entries.get? (.str "allOf") _ = _
  rw [Entries.get?_set_str, if_neg h.symm]
  rfl

/-- **Steps.** A step that suits a known node keeps visits modest. -/
theorem perform_restrains (hvisit : ∀ m path, Within (Restrains guide []) (visit m path))
    (hspares : ∀ lead, node.passes? guide.settings.side = some lead → step.Spares "allOf")
    (hpasses : ∀ lead, step.passes? = some lead → node.passes? guide.settings.side = some lead) :
    Within (Restrains guide [(n, node)]) (perform guide.settings.side visit n step) := by
  -- What is below restrains itself even more.
  have hvisit : ∀ m path, Within (Restrains guide [(n, node)]) (visit m path) :=
    fun m path c => (hvisit m path c).mono
  have hmark : ∀ child : NodeId, Within (Restrains guide [(n, node)])
      (onVisit child fun v => { v with isSource := true }) :=
    fun child => onVisit_note_restrains (fun _ => rfl) (fun _ => rfl) fun _ => rfl
  cases step with
  | write key value =>
    exact onFragment_restrains _ fun lead hlead es => get?_set_of_spares (hspares lead hlead)
  | merge entries => exact onFragment_restrains _ fun lead hlead => (hspares lead hlead).elim
  | visit child path => exact hvisit child path
  | property name child =>
    exact onFragment_restrains _ fun _ _ es => get?_set_of_spares (by decide)
  | require shape =>
    refine .bind (onStore_restrains (Store.requiredNames_keeps _ shape)) fun names => ?_
    exact onFragment_restrains _ fun _ _ es => get?_set_of_spares (by decide)
  | inherit child path =>
    exact .bind (hvisit child path) fun _ => passOn_restrains (hpasses _ rfl) child
  | inheritResolved path =>
    refine .bind (onStore_restrains (Store.resolve_keeps n)) fun answer => ?_
    cases answer with
    | node child =>
      exact .bind (hvisit child path) fun _ => passOn_restrains (hpasses _ rfl) child
    | value v => exact fail_restrains _
  | inheritSource child path =>
    refine .bind (passOn_restrains (hpasses _ rfl) child) fun _ => ?_
    exact .bind (hvisit child path) fun _ => hmark child
  | prefault v => exact onVisit_note_restrains (fun _ => rfl) (fun _ => rfl) fun _ => rfl
  | fail f => exact fail_restrains f

/-- Steps keep visits modest if those of a node that passes content on spare `allOf`: induction on
    the steps. -/
theorem performAll_restrains (hvisit : ∀ m path, Within (Restrains guide []) (visit m path))
    {steps : List Step}
    (hspares : ∀ lead, node.passes? guide.settings.side = some lead →
      ∀ step ∈ steps, step.Spares "allOf")
    (hpasses : ∀ step ∈ steps, ∀ lead, step.passes? = some lead →
      node.passes? guide.settings.side = some lead) :
    Within (Restrains guide [(n, node)]) (performAll guide.settings.side visit n steps) := by
  induction steps with
  | nil => exact within_pure _
  | cons step rest ih =>
    refine .bind (perform_restrains hvisit ?_ ?_) fun _ => ih ?_ ?_
    · intro lead hlead
      exact hspares lead hlead step (List.mem_cons_self ..)
    · exact hpasses step (List.mem_cons_self ..)
    · intro lead hlead s hs
      exact hspares lead hlead s (List.mem_cons_of_mem _ hs)
    · intro s hs
      exact hpasses s (List.mem_cons_of_mem _ hs)

/-- An annotation that asks for nothing besides is written over what asks for nothing besides. -/
theorem annotate_restrains :
    Within (Restrains guide [(n, node)]) (annotate guide.catalog n) := by
  intro c
  unfold annotate
  rw [run_bind, run_get]
  dsimp only
  cases hnotes : (c.store.catalog guide.catalog).get? n with
  | none => exact Std.Refl.refl c
  | some notes =>
    refine onVisit_restrains (fun _ => rfl) fun v hknown h => ?_
    refine h.fragment (hknown _ (List.mem_singleton_self _)) fun _ _ hundemanding => ?_
    exact Entries.get?_update_of_none (hundemanding notes hnotes)

/-- The default is settled for a known node. -/
theorem settleDefault_restrains (kind : Kind) :
    Within (Restrains guide [(n, node)]) (onVisit n (settleDefault kind)) := fun _ =>
  onVisit_restrains (fun _ => rfl) fun v hknown h =>
    h.fragment (hknown _ (List.mem_singleton_self _)) fun _ _ _ =>
      @Visit.get?_settled_of_ne .input kind v "allOf" (by decide) (by decide)

/-- **One node.** Whatever comes of lowering a node, visits stay modest. -/
theorem lower_restrains (hvisit : ∀ m path, Within (Restrains guide []) (visit m path))
    (n : NodeId) (path : Path) : Within (Restrains guide []) (lower guide visit n path) := by
  intro c
  have hfetch : Restrains guide [] c (onStore (Store.fetch n) c).2 :=
    onStore_restrains (fun s => (Store.fetch_makes n s).keeps) c
  unfold lower
  rw [run_bind]
  rcases hrun : onStore (Store.fetch n) c with ⟨f | node, d⟩
  · rw [hrun] at hfetch
    exact hfetch
  · obtain ⟨s, hreturns, rfl⟩ := returns_onStore.mp hrun
    obtain ⟨hn, rfl⟩ := Store.returns_fetch.mp hreturns
    -- the node is known by now
    refine Restrains.of_known ?_ hn
    have hrest : Within (Restrains guide [(n, node)]) (do
        let catchall := ((← get).store.node? node.catchall).map (·.kind)
        performAll guide.settings.side visit n (node.recipe guide.settings catchall path)
        annotate guide.catalog n
        if guide.settings.side = .input then onVisit n (settleDefault node.kind)) := by
      refine .bind within_get fun c => .bind ?_ fun _ => .bind annotate_restrains fun _ => ?_
      · refine performAll_restrains hvisit (fun lead hlead step hstep => ?_) fun step hstep lead => ?_
        · exact spares_allOf_recipe hlead hstep
        · exact passes?_recipe hstep
      · split
        · exact settleDefault_restrains node.kind
        · exact within_pure _
    exact hrest c

/-- Arriving once more keeps visits modest. -/
theorem revisit_restrains (ancestors : List NodeId) (n : NodeId) (path : Path) :
    Within (Restrains guide []) (revisit ancestors n path) := by
  refine .bind (onVisit_note_restrains (fun _ => rfl) (fun _ => rfl) fun _ => rfl) fun _ => ?_
  split
  · refine .bind (onVisit_note_restrains (fun _ => rfl) (fun _ => rfl) fun _ => rfl) fun _ => ?_
    exact onStore_restrains fun s => (Store.log_makes _ s).keeps
  · exact within_pure _

/-- A node that was just entered is modest. -/
theorem entered_restrains (guide : Guide) (hn : c.survey.has n = false) :
    Restrains guide [] c (c.entered n) where
  store := .refl _
  modest _ _ hc m v hv hwaits := by
    obtain ⟨-, rfl⟩ | ⟨-, hv⟩ := Survey.visit?_enter_cases hn hv
    · exact .entered c.store guide m
    · exact hc m v hv hwaits

/-- Arriving at a node keeps visits modest: induction on the depth. -/
theorem arrive_restrains (depth : Nat) (ancestors : List NodeId) (n : NodeId) (path : Path) :
    Within (Restrains guide []) (arrive guide depth ancestors n path) := by
  induction depth generalizing ancestors n path with
  | zero =>
    intro c
    rw [arrive_eq]
    split
    · exact revisit_restrains ancestors n path c
    · rename_i hn
      have hfail : Within (Restrains guide []) (fail .endless : Action Conversion Unit) :=
        fail_restrains _
      exact Trans.trans (entered_restrains guide (by simpa using hn)) (hfail (c.entered n))
  | succ depth ih =>
    intro c
    rw [arrive_eq]
    split
    · exact revisit_restrains ancestors n path c
    · rename_i hn
      exact Trans.trans (entered_restrains guide (by simpa using hn))
        (lower_restrains (fun m path => ih (n :: ancestors) m path) n path (c.entered n))

/-- **Descents.** Whatever comes of a descent, what it visits is modest. -/
theorem visit_restrains (n : NodeId) (ancestors : List NodeId) (path : Path) :
    Within (Restrains guide []) (Conversion.visit guide n ancestors path) :=
  .bind within_get fun _ => arrive_restrains _ ancestors n path

end Conversion

end SchemaGraph
