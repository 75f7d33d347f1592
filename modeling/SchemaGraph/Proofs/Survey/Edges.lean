import SchemaGraph.Proofs.Store.Growth
import SchemaGraph.Survey.Recipe

namespace SchemaGraph

/-!
# Edges of the graph

Which nodes the content of a node is made of depends on its kind alone.  A custom lowering
and the kinds without children lead nowhere.

* `Node.leads`    — where the content of a node comes from
* `Store.Edge`    — one node leads to another one
* `leadsOf_recipe` — a recipe that does not fail follows exactly the leads of its node
-/

/-- Where a node leads to. -/
inductive Lead where
  | child (n : NodeId)
  /-- What the lazy node stands for. -/
  | answer
deriving DecidableEq, Repr

/-- A child that may be missing. -/
def NodeId.leads (n : NodeId) : List Lead := if n = .gap then [] else [.child n]

/-- Where the rules for its kind lead to from a node, on the given side and with the kind of
    the node for undeclared properties. -/
def Node.kindLeads (side : Side) (catchall : Option Kind) (node : Node) : List Lead :=
  match node.kind with
  | .array => [.child node.element]
  | .object =>
    (node.shape.getD []).map (fun property => .child property.2)
      ++ if catchall = some .never then [] else node.catchall.leads
  | .union => node.options.map .child
  | .intersection => [.child node.left, .child node.right]
  | .tuple => node.items.map .child ++ node.rest.leads
  | .record => [.child node.keyType, .child node.valueType]
  | .nullable | .optional | .nonoptional | .promise | .default | .prefault | .fallback
  | .readonly => [.child node.inner]
  | .pipe => [.child (if side = .input then node.input else node.output)]
  | .lazy => [.answer]
  | _ => []

/-- Where a node leads to.  A custom lowering leads nowhere, a clone to its source alone. -/
def Node.leads (side : Side) (catchall : Option Kind) (node : Node) : List Lead :=
  if node.lowering ≠ .null then []
  else if node.parent ≠ .gap then [.child node.parent]
  else node.kindLeads side catchall

namespace Store

/-- The kind of the node for undeclared properties. -/
def catchallKind (s : Store) (node : Node) : Option Kind :=
  (s.node? node.catchall).map (·.kind)

/-- The node at the end of a lead. -/
def follow? (s : Store) (n : NodeId) : Lead → Option NodeId
  | .child m => some m
  | .answer =>
    match s.resolved? n with
    | some (.node m) => some m
    | _ => none

/-- Where a node of the store leads to. -/
def leads (s : Store) (side : Side) (n : NodeId) : List Lead :=
  match s.node? n with
  | some node => node.leads side (s.catchallKind node)
  | none => []

/-- One node leads to another one: the second one is visited for the first. -/
def Edge (s : Store) (side : Side) (n m : NodeId) : Prop :=
  ∃ lead ∈ s.leads side n, s.follow? n lead = some m

/-! ### Growth -/

/-- A lead goes on to end where it ends while the store grows. -/
theorem follow?_mono {s t : Store} (h : Grows s t) {n m : NodeId} {lead : Lead}
    (hm : s.follow? n lead = some m) : t.follow? n lead = some m := by
  cases lead with
  | child k => exact hm
  | answer =>
    unfold follow? at hm ⊢
    cases hr : s.resolved? n with
    | none => simp [hr] at hm
    | some r => rw [h.resolved hr, ← hr]; exact hm

/-- What a node of a closed store names stays as it is. -/
theorem Grows.node?_of_mem {s t : Store} (h : Grows s t) (hs : s.Closed) {n m : NodeId}
    {node : Node} (hn : s.node? n = some node) (hm : m ∈ node.links) :
    t.node? m = s.node? m := by
  rcases hs.links hn m hm with rfl | hm
  · rfl
  · obtain ⟨x, hx⟩ := Option.isSome_iff_exists.mp hm
    rw [hx, h.node? hx]

/-- The kind of what catches further properties stays as it is while a closed store grows. -/
theorem catchallKind_eq {s t : Store} (h : Grows s t) (hs : s.Closed) {n : NodeId}
    {node : Node} (hn : s.node? n = some node) : t.catchallKind node = s.catchallKind node := by
  have hmem : node.catchall ∈ node.links := by simp [Node.links]
  simp only [catchallKind, h.node?_of_mem hs hn hmem]

/-- The leads of a node stay as they are while a closed store grows. -/
theorem leads_eq {s t : Store} (h : Grows s t) (hs : s.Closed) (side : Side) {n : NodeId}
    (hn : (s.node? n).isSome) : t.leads side n = s.leads side n := by
  obtain ⟨node, hnode⟩ := Option.isSome_iff_exists.mp hn
  simp only [leads, hnode, h.node? hnode, catchallKind_eq h hs hnode]

/-- A lead stays when a closed store grows. -/
theorem mem_leads_mono {s t : Store} (h : Grows s t) (hs : s.Closed) {side : Side} {n : NodeId}
    {lead : Lead} (hl : lead ∈ s.leads side n) : lead ∈ t.leads side n := by
  have hn : (s.node? n).isSome := by
    unfold leads at hl
    cases hnode : s.node? n with
    | none => simp [hnode] at hl
    | some node => rfl
  rw [leads_eq h hs side hn]
  exact hl

/-- An edge stays when a closed store grows. -/
theorem Edge.mono {s t : Store} (h : Grows s t) (hs : s.Closed) {side : Side} {n m : NodeId}
    (he : Edge s side n m) : Edge t side n m := by
  obtain ⟨lead, hlead, hm⟩ := he
  exact ⟨lead, mem_leads_mono h hs hlead, follow?_mono h hm⟩

end Store

/-! ### Recipes follow the leads -/

/-- Where a step leads to. -/
def Step.lead? : Step → Option Lead
  | .visit child _ => some (.child child)
  | .inherit child _ => some (.child child)
  | .inheritResolved _ => some .answer
  | .inheritSource child _ => some (.child child)
  | _ => none

namespace Step

/-- Writing a keyword leads nowhere. -/
@[simp] theorem lead?_write (key : String) (v : Value) : (write key v).lead? = none := rfl
/-- Merging a custom fragment leads nowhere. -/
@[simp] theorem lead?_merge (es : Entries) : (merge es).lead? = none := rfl
/-- Naming a property leads nowhere: its child is visited by another step. -/
@[simp] theorem lead?_property (name : String) (n : NodeId) :
    (property name n).lead? = none := rfl
/-- Requiring properties leads nowhere. -/
@[simp] theorem lead?_require (shape : List (String × NodeId)) :
    (require shape).lead? = none := rfl
/-- Keeping a default leads nowhere. -/
@[simp] theorem lead?_prefault (v : Value) : (prefault v).lead? = none := rfl
/-- A failure leads nowhere. -/
@[simp] theorem lead?_fail (f : Failure) : (fail f).lead? = none := rfl
/-- A visit leads to the child. -/
@[simp] theorem lead?_visit (n : NodeId) (path : Path) :
    (visit n path).lead? = some (.child n) := rfl
/-- Taking over content leads to the child. -/
@[simp] theorem lead?_inherit (n : NodeId) (path : Path) :
    (inherit n path).lead? = some (.child n) := rfl
/-- Taking over the content of a source leads to the source. -/
@[simp] theorem lead?_inheritSource (n : NodeId) (path : Path) :
    (inheritSource n path).lead? = some (.child n) := rfl

end Step

/-- Where steps lead to. -/
def Step.leadsOf (steps : List Step) : List Lead := steps.filterMap Step.lead?

/-- Whether none of the steps fails. -/
def Step.Runs (steps : List Step) : Prop := ∀ f, .fail f ∉ steps

/-- Steps lead where either part of them leads. -/
@[simp] theorem Step.leadsOf_append (xs ys : List Step) :
    leadsOf (xs ++ ys) = leadsOf xs ++ leadsOf ys := List.filterMap_append ..

/-- Steps lead where the first one and the rest lead. -/
@[simp] theorem Step.leadsOf_cons (x : Step) (xs : List Step) :
    leadsOf (x :: xs) = x.lead?.toList ++ leadsOf xs := by
  unfold leadsOf
  cases h : x.lead? <;> simp [h]

/-- No steps lead nowhere. -/
@[simp] theorem Step.leadsOf_nil : leadsOf [] = [] := rfl

/-- The first of steps that run run. -/
theorem Step.Runs.left {xs ys : List Step} (h : Runs (xs ++ ys)) : Runs xs :=
  fun f hf => h f (List.mem_append_left _ hf)

/-- The last of steps that run run. -/
theorem Step.Runs.right {xs ys : List Step} (h : Runs (xs ++ ys)) : Runs ys :=
  fun f hf => h f (List.mem_append_right _ hf)

/-- The first of steps that run is no failure. -/
theorem Step.Runs.head {x : Step} {xs : List Step} (h : Runs (x :: xs)) (f : Failure) :
    x ≠ .fail f := fun hx => h f (hx ▸ List.mem_cons_self ..)

/-- Writing keywords leads nowhere. -/
theorem leadsOf_map_write (keywords : List (String × Value)) :
    Step.leadsOf (keywords.map fun (k, v) => .write k v) = [] := by
  induction keywords with
  | nil => rfl
  | cons e rest ih => simpa using ih

/-- The keyword of a number leads nowhere. -/
@[simp] theorem leadsOf_numberKeyword (key : String) (v : Value) :
    Step.leadsOf (numberKeyword key v) = [] := by
  unfold numberKeyword
  split <;> rfl

/-- A pattern leads nowhere. -/
@[simp] theorem lead?_patternStep (p : Pattern) (path : Path) :
    (patternStep p path).lead? = none := by
  unfold patternStep
  split <;> rfl

/-- Steps that visit children lead to these children in order. -/
@[simp] theorem leadsOf_visitSteps (key : String) (children : List NodeId) (path : Path) :
    Step.leadsOf (visitSteps key children path) = children.map .child := by
  have hsteps : ∀ (k : Nat), Step.leadsOf ((children.zipIdx k).map fun p =>
      .visit p.1 (path ++ [.name key, .index (Int.ofNat p.2)])) = children.map .child := by
    induction children with
    | nil => intro k; rfl
    | cons child rest ih =>
      intro k
      rw [List.zipIdx_cons, List.map_cons, Step.leadsOf_cons, ih (k + 1)]
      rfl
  exact hsteps 0

/-- A text leads nowhere. -/
@[simp] theorem leadsOf_stringSteps (c : Constraints) (path : Path) :
    Step.leadsOf (stringSteps c path) = [] := by
  unfold stringSteps
  simp only [Step.leadsOf_append, Step.leadsOf_cons, Step.lead?, leadsOf_numberKeyword,
    Step.leadsOf_nil, Option.toList_none, List.append_nil, List.nil_append]
  rw [List.append_eq_nil_iff, List.append_eq_nil_iff]
  refine ⟨⟨?_, ?_⟩, ?_⟩
  · split
    · split <;> rfl
    · rfl
  · split <;> simp
  · split <;> rfl

/-- A number leads nowhere. -/
@[simp] theorem leadsOf_numberSteps (c : Constraints) : Step.leadsOf (numberSteps c) = [] := by
  unfold numberSteps
  dsimp only
  split
  · rfl
  · simp [leadsOf_map_write]

/-- A literal leads nowhere. -/
@[simp] theorem leadsOf_literalSteps (node : Node) (policy : Unrepresentable) (path : Path) :
    Step.leadsOf (literalSteps node policy path) = [] := by
  unfold literalSteps
  split <;> rfl

/-- A template leads nowhere. -/
@[simp] theorem leadsOf_templateSteps (node : Node) (path : Path) :
    Step.leadsOf (templateSteps node path) = [] := by
  unfold templateSteps
  split <;> simp

/-- A fallback leads nowhere by itself. -/
@[simp] theorem leadsOf_fallbackSteps (node : Node) (path : Path) :
    Step.leadsOf (fallbackSteps node path) = [] := by
  unfold fallbackSteps
  split
  · rfl
  · split <;> rfl

/-- A custom lowering leads nowhere. -/
theorem leadsOf_loweringSteps (lowering : Value) :
    Step.leadsOf (loweringSteps lowering) = [] := by
  unfold loweringSteps
  split
  · rfl
  · dsimp only
    split <;> rfl

/-- Passing on the content of the node inside leads there, unless there is none. -/
theorem lead?_inheritStep {inner : NodeId} {path : Path}
    (h : ∀ f, inheritStep inner path ≠ .fail f) :
    (inheritStep inner path).lead? = some (.child inner) := by
  unfold inheritStep at h ⊢
  split
  · rename_i hgap
    exact absurd (if_pos hgap) (h _)
  · rfl

/-- An object leads to its properties in order, then to what catches further ones, unless that is
    refused. -/
@[simp] theorem leadsOf_objectSteps (node : Node) (catchall : Option Kind) (path : Path) :
    Step.leadsOf (objectSteps node catchall path)
      = (node.shape.getD []).map (fun property => .child property.2)
        ++ if catchall = some .never then [] else node.catchall.leads := by
  have hshape : ∀ shape : List (String × NodeId),
      Step.leadsOf (shape.flatMap fun p =>
        [.visit p.2 (path ++ [.name "properties", .name p.1]), .property p.1 p.2])
      = shape.map fun property => .child property.2 := by
    intro shape
    induction shape with
    | nil => rfl
    | cons e rest ih => simp [ih]
  unfold objectSteps NodeId.leads
  simp only [Step.leadsOf_append, Step.leadsOf_cons, Step.lead?, Step.leadsOf_nil, hshape,
    Option.toList_none, List.append_nil, List.nil_append]
  congr 1
  split
  · split <;> rfl
  · split <;> rfl

/-- A step that keeps a default leads nowhere. -/
theorem lead?_defaultStep (node : Node) {use : Value → Step} (h : ∀ v, (use v).lead? = none) :
    (defaultStep node use).lead? = none := by
  unfold defaultStep
  split
  · exact h _
  · rfl

/-- The rules for the kinds follow the leads of their nodes. -/
theorem leadsOf_kindSteps {settings : LoweringSettings} {catchall : Option Kind} {node : Node}
    {path : Path} (h : Step.Runs (kindSteps settings catchall node path)) :
    Step.leadsOf (kindSteps settings catchall node path)
      = node.kindLeads settings.side catchall := by
  unfold kindSteps Node.kindLeads at *
  cases hk : node.kind <;> simp only [hk] at h ⊢
  case array => simp [arraySteps]
  case union => simp [unionSteps]
  case intersection => simp [intersectionSteps]
  case tuple =>
    unfold tupleSteps NodeId.leads
    by_cases hrest : node.rest = .gap <;> simp [hrest]
  case record => simp [recordSteps]
  case optional | nonoptional | promise | readonly | pipe =>
    simp [lead?_inheritStep h.head]
  case fallback => simp [lead?_inheritStep h.head]
  case default =>
    have hdefault : (defaultStep node (.write "default")).lead? = none :=
      lead?_defaultStep node fun _ => rfl
    simp [lead?_inheritStep h.head, hdefault]
  case prefault =>
    have hdefault : (defaultStep node .prefault).lead? = none :=
      lead?_defaultStep node fun _ => rfl
    rw [Step.leadsOf_cons, lead?_inheritStep h.head]
    split <;> simp [hdefault]
  case nullable | lazy => rfl
  -- The other kinds lead nowhere.
  all_goals first
    | simp
    | (split <;> rfl)

/-- **Recipes.** A recipe that does not fail follows the leads of its node, one by one. -/
theorem leadsOf_recipe {settings : LoweringSettings} {catchall : Option Kind} {node : Node}
    {path : Path} (h : Step.Runs (node.recipe settings catchall path)) :
    Step.leadsOf (node.recipe settings catchall path) = node.leads settings.side catchall := by
  unfold Node.recipe Node.leads at *
  by_cases hl : node.lowering ≠ .null
  · rw [if_pos hl, if_pos hl]
    exact leadsOf_loweringSteps _
  · rw [if_neg hl] at h ⊢
    rw [if_neg hl]
    by_cases hp : node.parent ≠ .gap
    · rw [if_pos hp, if_pos hp]
      rfl
    · rw [if_neg hp] at h ⊢
      rw [if_neg hp]
      exact leadsOf_kindSteps h

end SchemaGraph
