import SchemaGraph.Proofs.Survey.Sober

namespace SchemaGraph

/-!
# Recipes in order

A recipe visits a child before it writes anything that points at the child's fragment, so that a
recipe that fails half way has written nothing that points at nodes that were not visited.  What it
writes besides are trees, and never a reference.

* `Step.Backs`  — a step that points at some nodes only
* `Step.Backed` — steps each of which points at nodes that were visited before
* `Node.Sober.backed` — the recipe of a sober node is backed
-/

namespace Value

variable {v f : Value}

/-- What a function returns is a tree, if the function is one. -/
theorem isTree_call (hf : f.isTree = true) {argument : Option Value}
    (harg : ∀ a ∈ argument, a.isTree = true) (h : f.call argument = .ok v) : v.isTree = true :=
  of_call (P := fun v => v.isTree = true)
    (fun _ _ h => isTree_iff.mpr (Bool.and_eq_true_iff.mp (isTree_iff.mp h).2)) rfl rfl hf harg h

/-- What a function returns is a tree, if the function is one. -/
theorem isTree_produced (hf : f.isTree = true) (h : f.produced = .ok v) : v.isTree = true := by
  unfold produced at h
  split at h
  · exact isTree_call hf (fun a ha => by cases ha) h
  · cases h
    exact hf

/-- A list of trees is a tree. -/
theorem isTree_list {xs : List Value} (h : ∀ x ∈ xs, x.isTree = true) :
    (Value.list xs).isTree = true :=
  isTree_iff.mpr ⟨allPlain_iff.mpr fun x hx => (isTree_iff.mp (h x hx)).1,
    allFinite_iff.mpr fun x hx => (isTree_iff.mp (h x hx)).2⟩

end Value

namespace Step

/-- What a step writes points at some nodes only, is finite and no reference. -/
def Backs (seen : NodeId → Prop) : Step → Prop
  | .write key v => key ≠ "$ref" ∧ v.isFinite = true ∧ v.Leads seen
  | .merge es => es.Sober
  | .property _ child => seen child
  | .prefault v => v.isTree = true
  | _ => True

/-- The child that a step visits without passing on its content. -/
def visited? : Step → Option NodeId
  | .visit child _ => some child
  | _ => none

/-- Steps each of which points at nodes that were seen, or visited by a step before it. -/
def Backed (seen : NodeId → Prop) : List Step → Prop
  | [] => True
  | step :: rest => step.Backs seen ∧ Backed (fun m => seen m ∨ step.visited? = some m) rest

variable {seen more : NodeId → Prop} {steps others : List Step} {step : Step}

/-- A step that points at nodes that were seen does so when more are seen. -/
theorem Backs.mono (hsub : ∀ n, seen n → more n) (h : step.Backs seen) : step.Backs more := by
  cases step with
  | write key v => exact ⟨h.1, h.2.1, h.2.2.mono hsub⟩
  | property name child => exact hsub child h
  | merge es => exact h
  | prefault v => exact h
  | _ => trivial

/-- Steps that point at nodes that were seen do so when more are seen. -/
theorem Backed.mono (hsub : ∀ n, seen n → more n) (h : Backed seen steps) : Backed more steps := by
  induction steps generalizing seen more with
  | nil => trivial
  | cons step rest ih => exact ⟨h.1.mono hsub, ih (fun n hn => hn.imp (hsub n) id) h.2⟩

/-- Steps that point at what was seen before all of them are backed. -/
theorem Backed.of_forall (h : ∀ step ∈ steps, step.Backs seen) : Backed seen steps := by
  induction steps generalizing seen with
  | nil => trivial
  | cons step rest ih =>
    obtain ⟨hstep, hrest⟩ := List.forall_mem_cons.mp h
    exact ⟨hstep, ih fun other hother => (hrest other hother).mono fun _ => .inl⟩

/-- Steps may follow others and point at the nodes that these visit. -/
theorem Backed.append (h : Backed seen steps)
    (h' : Backed (fun m => seen m ∨ ∃ step ∈ steps, step.visited? = some m) others) :
    Backed seen (steps ++ others) := by
  induction steps generalizing seen with
  | nil => exact h'.mono fun n hn => hn.resolve_right nofun
  | cons step rest ih =>
    refine ⟨h.1, ih h.2 (h'.mono fun n hn => ?_)⟩
    rcases hn with hn | ⟨other, hmem, hother⟩
    · exact .inl (.inl hn)
    · rcases List.mem_cons.mp hmem with rfl | hmem
      · exact .inl (.inr hother)
      · exact .inr ⟨other, hmem, hother⟩

/-- A tree may be written under every keyword but that of references. -/
theorem backs_tree {key : String} {v : Value} (hkey : key ≠ "$ref") (hv : v.isTree = true) :
    (write key v).Backs seen :=
  ⟨hkey, (Value.isTree_iff.mp hv).2, Value.leads_of_plain (Value.isTree_iff.mp hv).1⟩

/-- A pointer to the fragment of a node that was seen may be written. -/
theorem backs_fragment {key : String} {n : NodeId} (hkey : key ≠ "$ref") (hn : seen n) :
    (write key (.fragment n)).Backs seen := ⟨hkey, rfl, Value.leads_fragment hn⟩

/-- Pointers to the fragments of nodes that were seen may be written. -/
theorem backs_fragments {key : String} {children : List NodeId} (hkey : key ≠ "$ref")
    (h : ∀ child ∈ children, seen child) : (write key (fragments children)).Backs seen := by
  refine ⟨hkey, Value.allFinite_iff.mpr fun v hv => ?_, Value.leads_items.mpr fun v hv => ?_⟩
  all_goals obtain ⟨child, hchild, rfl⟩ := List.mem_map.mp hv
  · rfl
  · exact Value.leads_fragment (h child hchild)

/-- The keyword of a number points at nothing. -/
theorem backs_numberKeyword {key : String} {v : Value} (hkey : key ≠ "$ref")
    (h : step ∈ numberKeyword key v) : step.Backs seen := by
  unfold numberKeyword at h
  split at h
  · rename_i hv
    obtain rfl := List.mem_singleton.mp h
    exact backs_tree hkey (Value.isTree_of_number? hv)
  · cases h

/-- Visits write nothing, and they visit all the children. -/
theorem backed_visitSteps {key : String} {children : List NodeId} {path : Path} :
    Backed seen (visitSteps key children path) ∧
      ∀ child ∈ children, ∃ step ∈ visitSteps key children path, step.visited? = some child := by
  refine ⟨.of_forall fun step hstep => ?_, fun child hchild => ?_⟩
  · obtain ⟨e, -, rfl⟩ := List.mem_map.mp hstep
    trivial
  · obtain ⟨i, hi, rfl⟩ := List.getElem_of_mem hchild
    have hmem : (children[i], i) ∈ children.zipIdx := by
      rw [List.mem_iff_getElem]
      exact ⟨i, by simpa using hi, by simp⟩
    exact ⟨_, List.mem_map_of_mem hmem, rfl⟩

end Step

open Step

section Recipes

variable {node : Node} {seen : NodeId → Prop} {path : Path}

/-- The values that the rules make of what a sober node carries are trees. -/
theorem Node.Sober.yields (h : node.Sober) {v : Value} (hv : node.Yields v) : v.isTree = true := by
  induction hv with
  | text | flag | nothing => rfl
  | number hv => exact Value.isTree_of_number? hv
  | carried hv => exact h.carried _ hv
  | list _ ih => exact Value.isTree_list ih
  | produced hv => exact Value.isTree_produced (h.carried _ (by simp [Node.carried])) hv
  | called hv =>
    refine Value.isTree_call (h.carried _ (by simp [Node.carried])) (fun a ha => ?_) hv
    cases ha
    rfl

/-- The kinds whose rules write the fragments of children. -/
def Kind.pointing : List Kind :=
  [.array, .object, .union, .intersection, .tuple, .record, .nullable]

/-- The rules for all other kinds write trees. -/
theorem Step.ByRule.backs {settings : LoweringSettings} {catchall : Option Kind} {step : Step}
    (h : step.ByRule settings catchall node) (hsober : node.Sober)
    (hkind : node.kind ∉ Kind.pointing) : step.Backs seen := by
  have hdata : ∀ key ∈ dataKeywords, key ≠ "$ref" := by decide
  cases h with
  | data hkey hv => exact backs_tree (hdata _ hkey) (hsober.yields hv)
  | default _ hv => exact backs_tree (by decide) (hsober.yields hv)
  | prefault _ hv => exact hsober.yields hv
  | fail | visit | inherit | inheritResolved | require => trivial
  | property hpoints | properties hpoints | closed hpoints | items hpoints | leading hpoints
  | rest hpoints | options hpoints | sides hpoints | nullable hpoints =>
    rw [hpoints] at hkind
    exact absurd (by decide) hkind
  | schema hpoints =>
    rcases hpoints with hpoints | hpoints
    all_goals
      rw [hpoints] at hkind
      exact absurd (by decide) hkind

/-- An array points at its elements behind the visit to them. -/
theorem backed_arraySteps : Backed seen (arraySteps node path) := by
  refine .append (.append (.of_forall fun _ h => backs_numberKeyword (by decide) h)
    (.of_forall fun _ h => backs_numberKeyword (by decide) h)) ?_
  exact ⟨backs_tree (by decide) rfl, trivial, backs_fragment (by decide) (.inr rfl), trivial⟩

/-- The properties of an object are written each behind the visit to it. -/
theorem backed_properties (shape : List (String × NodeId)) :
    Backed seen (shape.flatMap fun (name, child) =>
      [.visit child (path ++ [.name "properties", .name name]), .property name child]) := by
  induction shape generalizing seen with
  | nil => trivial
  | cons p rest ih => exact ⟨trivial, .inr rfl, ih⟩

/-- An object points at each property behind the visit to it. -/
theorem backed_objectSteps (catchall : Option Kind) :
    Backed seen (objectSteps node catchall path) := by
  unfold objectSteps
  refine .append (.append (.append ⟨?_, ?_, trivial⟩ (backed_properties _)) ⟨trivial, trivial⟩) ?_
  · exact backs_tree (by decide) rfl
  · exact backs_tree (by decide) rfl
  · split
    · trivial
    · split
      · exact ⟨backs_tree (by decide) rfl, trivial⟩
      · exact ⟨trivial, backs_fragment (by decide) (.inr rfl), trivial⟩

/-- A union points at its alternatives behind the visits to them. -/
theorem backed_unionSteps : Backed seen (unionSteps node path) := by
  obtain ⟨hvisits, hall⟩ := @backed_visitSteps seen "anyOf" node.options path
  exact hvisits.append ⟨backs_fragments (by decide) fun child hchild => .inr (hall child hchild),
    trivial⟩

/-- An intersection points at its sides behind the visits to them. -/
theorem backed_intersectionSteps : Backed seen (intersectionSteps node path) := by
  obtain ⟨hvisits, hall⟩ := @backed_visitSteps seen "allOf" [node.left, node.right] path
  exact hvisits.append ⟨backs_fragments (by decide) fun child hchild => .inr (hall child hchild),
    trivial⟩

/-- A tuple points at its elements behind the visits to them. -/
theorem backed_tupleSteps (target : Target) : Backed seen (tupleSteps node target path) := by
  -- A child is visited before it is written, under whichever keyword the dialect has.
  have hitems : ∀ key, key ≠ "$ref" → Backed seen ([.write "type" "array"]
      ++ visitSteps "prefixItems" node.items path ++ [.write key (fragments node.items)]) := by
    intro key hkey
    obtain ⟨hvisits, hall⟩ :=
      @backed_visitSteps (fun m => seen m ∨ _) "prefixItems" node.items path
    refine .append (.append ⟨backs_tree (by decide) rfl, trivial⟩ hvisits) ⟨?_, trivial⟩
    refine backs_fragments hkey fun child hchild => .inr ?_
    obtain ⟨step, hstep, hvisited⟩ := hall child hchild
    exact ⟨step, List.mem_append_right _ hstep, hvisited⟩
  have hrest : ∀ key, key ≠ "$ref" → ∀ {more : NodeId → Prop}, Backed more
      (if node.rest = .gap then [] else
        [.visit node.rest (path ++ [.name "items"]), .write key (.fragment node.rest)]) := by
    intro key hkey more
    split
    · trivial
    · exact ⟨trivial, backs_fragment hkey (.inr rfl), trivial⟩
  refine .append (.append (.append (hitems _ ?_) (hrest _ ?_)) (.of_forall fun _ h => ?_))
    (.of_forall fun _ h => ?_)
  · split <;> decide
  · split <;> decide
  · exact backs_numberKeyword (by decide) h
  · exact backs_numberKeyword (by decide) h

/-- A record points at its keys and values behind the visits to them. -/
theorem backed_recordSteps : Backed seen (recordSteps node path) :=
  ⟨backs_tree (by decide) rfl, trivial, backs_fragment (by decide) (.inr rfl), trivial,
    backs_fragment (by decide) (.inr rfl), trivial⟩

/-- The rules for the kinds write what points at nodes that were visited before. -/
theorem backed_kindSteps (h : node.Sober) (settings : LoweringSettings) (catchall : Option Kind) :
    Backed seen (kindSteps settings catchall node path) := by
  by_cases hkind : node.kind ∈ Kind.pointing
  · unfold kindSteps
    cases hk : node.kind
    case array => exact backed_arraySteps
    case object => exact backed_objectSteps catchall
    case union => exact backed_unionSteps
    case intersection => exact backed_intersectionSteps
    case tuple => exact backed_tupleSteps _
    case record => exact backed_recordSteps
    -- The inner node has been visited by the time that it is written into `anyOf`.
    case nullable =>
      refine ⟨trivial, ⟨by decide, rfl, Value.leads_items.mpr ?_⟩, trivial⟩
      refine List.forall_mem_cons.mpr ⟨Value.leads_fragment (.inr rfl), ?_⟩
      exact List.forall_mem_cons.mpr ⟨Value.leads_of_plain rfl, List.forall_mem_nil _⟩
    all_goals
      rw [hk] at hkind
      exact absurd hkind (by decide)
  · exact .of_forall fun step hstep => (byRule_kindSteps hstep).backs h hkind

/-- **Recipes.** The recipe of a sober node writes what points at nodes that were visited before. -/
theorem Node.Sober.backed (h : node.Sober) (settings : LoweringSettings) (catchall : Option Kind) :
    Backed (fun _ => False) (node.recipe settings catchall path) := by
  unfold Node.recipe
  split
  · unfold loweringSteps
    split
    · exact ⟨trivial, trivial⟩
    · rename_i v hv
      dsimp only
      split
      · exact ⟨h.lowered v hv, trivial⟩
      · exact ⟨h.lowered v hv, trivial, trivial⟩
  · split
    · exact ⟨trivial, trivial⟩
    · exact backed_kindSteps h settings catchall

end Recipes

end SchemaGraph
