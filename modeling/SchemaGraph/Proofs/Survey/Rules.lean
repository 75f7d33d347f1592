import SchemaGraph.Proofs.Survey.Edges

namespace SchemaGraph

/-!
# Steps of the rules

The rules for the kinds are told apart by the steps that they take: which keywords they write and
what stands under them, which nodes they visit, whose content they pass on, and why they fail.  What
is said of every step of a recipe need only be shown for these steps, whatever the kind.

* `Node.Yields`      — the values that the rules make of what a node carries
* `Node.Refuses`     — why the rules fail at a node
* `Step.ByRule`      — the steps that the rules for a node may take
* `byRule_kindSteps` — the rules take no other steps
* `fail_of_mem_loweringSteps` — why a custom lowering fails
-/

/-! ### Values -/

/-- The values that a node carries. -/
def Node.carried (node : Node) : List Value :=
  ConstraintName.all.map node.constraints.get ++ (node.entries.getD []).map (·.2) ++ node.values
    ++ [node.defaultValue, node.fallbackValue, node.lowering]

/-- The constraints are among what a node carries. -/
theorem Node.constraint_mem_carried (node : Node) (name : ConstraintName) :
    node.constraints.get name ∈ node.carried := by
  simp only [carried, List.mem_append]
  exact .inl (.inl (.inl (List.mem_map_of_mem (by cases name <;> decide))))

/-- The values that the rules write: fixed ones, and what they make of the values of a node. -/
inductive Node.Yields (node : Node) : Value → Prop
  | text (s : String) : Yields node (.str s)
  | flag (b : Bool) : Yields node (.bool b)
  | nothing : Yields node (.dict [])
  | number {v : Value} (h : v.number?.isSome) : Yields node v
  | carried {v : Value} (h : v ∈ node.carried) : Yields node v
  | list {vs : List Value} (h : ∀ v ∈ vs, Yields node v) : Yields node (.list vs)
  /-- What the maker of the default returns. -/
  | produced {v : Value} (h : node.defaultValue.produced = .ok v) : Yields node v
  /-- What the fallback answers for no value. -/
  | called {v : Value} (h : node.fallbackValue.call (some .null) = .ok v) : Yields node v

/-- Why the rules fail at a node: for what it carries, or since they may not go on without a
    counterpart. -/
inductive Node.Refuses (settings : LoweringSettings) (node : Node) : Failure → Prop
  | misuse : Refuses settings node .misuse
  | missingChild : Refuses settings node .missingChild
  | flaggedPattern (source : String) (path : Path) :
      Refuses settings node (.flaggedPattern source path)
  | missingPattern (path : Path) : Refuses settings node (.missingPattern path)
  | missingInner (path : Path) : Refuses settings node (.missingInner .null path)
  | dynamicFallback (cause : Raised) (path : Path) :
      Refuses settings node (.dynamicFallback cause path)
  | default {cause : Raised} (h : node.defaultValue.produced = .error cause) :
      Refuses settings node (.ofRaised cause)
  | undefinedLiteral (h : settings.unrepresentable = .reject) (path : Path) :
      Refuses settings node (.undefinedLiteral path)
  | bigintLiteral (h : settings.unrepresentable = .reject) (path : Path) :
      Refuses settings node (.bigintLiteral path)
  | unrepresentable (h : settings.unrepresentable = .reject) (path : Path) :
      Refuses settings node (.unrepresentable node.kind path)

/-! ### Steps -/

/-- The keywords under which the rules write data alone. -/
def dataKeywords : List String :=
  ["type", "minLength", "maxLength", "format", "pattern", "contentEncoding", "minimum",
    "exclusiveMinimum", "maximum", "exclusiveMaximum", "multipleOf", "minItems", "maxItems", "const",
    "enum", "not", "readOnly"]

/-- The keywords that the rules write, but for the sides of intersections and for defaults. -/
def ruleKeywords : List String :=
  dataKeywords ++ ["properties", "additionalProperties", "propertyNames", "items", "additionalItems",
    "prefixItems", "anyOf"]

/-- The node whose content the rules pass on for a wrapper or a pipe. -/
def Node.wrapped? (side : Side) (node : Node) : Option NodeId :=
  match node.kind with
  | .optional | .nonoptional | .promise | .default | .prefault | .fallback | .readonly =>
    some node.inner
  | .pipe => some (if side = .input then node.input else node.output)
  | _ => none

/-- The steps that the rules for the kind of a node may take. -/
inductive Step.ByRule (settings : LoweringSettings) (catchall : Option Kind) (node : Node) :
    Step → Prop
  | data {key : String} {v : Value} (hkey : key ∈ dataKeywords) (hv : node.Yields v) :
      ByRule settings catchall node (.write key v)
  | fail {f : Failure} (h : node.Refuses settings f) : ByRule settings catchall node (.fail f)
  | visit {child : NodeId} {path : Path}
      (h : .child child ∈ node.kindLeads settings.side catchall) :
      ByRule settings catchall node (.visit child path)
  | inherit {child : NodeId} {path : Path} (h : node.wrapped? settings.side = some child) :
      ByRule settings catchall node (.inherit child path)
  | inheritResolved {path : Path} (hkind : node.kind = .lazy) :
      ByRule settings catchall node (.inheritResolved path)
  | property {name : String} {child : NodeId} (hkind : node.kind = .object)
      (h : .child child ∈ node.kindLeads settings.side catchall) :
      ByRule settings catchall node (.property name child)
  | require (hkind : node.kind = .object) :
      ByRule settings catchall node (.require (node.shape.getD []))
  | properties (hkind : node.kind = .object) :
      ByRule settings catchall node (.write "properties" (.dict []))
  | closed (hkind : node.kind = .object) :
      ByRule settings catchall node (.write "additionalProperties" (.bool false))
  /-- Further properties of an object, or the keys or values of a record. -/
  | schema {key : String} {child : NodeId} (hkind : node.kind = .object ∨ node.kind = .record)
      (hkey : key ∈ ["additionalProperties", "propertyNames"])
      (h : .child child ∈ node.kindLeads settings.side catchall) :
      ByRule settings catchall node (.write key (.fragment child))
  | items (hkind : node.kind = .array) :
      ByRule settings catchall node (.write "items" (.fragment node.element))
  /-- The first items of a tuple, under the keyword of the dialect. -/
  | leading {key : String} (hkind : node.kind = .tuple) (hkey : key ∈ ["prefixItems", "items"]) :
      ByRule settings catchall node (.write key (fragments node.items))
  /-- All other items of a tuple, under the keyword of the dialect. -/
  | rest {key : String} (hkind : node.kind = .tuple) (hkey : key ∈ ["items", "additionalItems"])
      (hrest : node.rest ≠ .gap) : ByRule settings catchall node (.write key (.fragment node.rest))
  | options (hkind : node.kind = .union) :
      ByRule settings catchall node (.write "anyOf" (fragments node.options))
  | sides (hkind : node.kind = .intersection) :
      ByRule settings catchall node (.write "allOf" (fragments [node.left, node.right]))
  | nullable (hkind : node.kind = .nullable) : ByRule settings catchall node
      (.write "anyOf" (.list [.fragment node.inner, .dict [("type", .str "null")]]))
  | default {v : Value} (hkind : node.kind = .default ∨ node.kind = .fallback)
      (hv : node.Yields v) : ByRule settings catchall node (.write "default" v)
  | prefault {v : Value} (hkind : node.kind = .prefault) (hv : node.Yields v) :
      ByRule settings catchall node (.prefault v)

section Rules

variable {settings : LoweringSettings} {catchall : Option Kind} {node : Node} {path : Path}
  {step : Step}

/-- The keyword of a number holds a number. -/
theorem byRule_numberKeyword {key : String} {v : Value} (hkey : key ∈ dataKeywords)
    (h : step ∈ numberKeyword key v) : step.ByRule settings catchall node := by
  unfold numberKeyword at h
  split at h
  · rename_i hv
    obtain rfl := List.mem_singleton.mp h
    exact .data hkey (.number hv)
  · cases h

/-- A pattern is written as a text, or refused for its flags. -/
theorem byRule_patternStep (p : Pattern) (path : Path) :
    (patternStep p path).ByRule settings catchall node := by
  unfold patternStep
  split
  · exact .data (by decide) (.text _)
  · rename_i hkeyword
    unfold Pattern.keyword at hkeyword
    split at hkeyword <;> cases hkeyword
    exact .fail (.flaggedPattern _ _)

/-- Several children are visited one by one. -/
theorem byRule_visitSteps {key : String} {children : List NodeId}
    (hchildren : ∀ child ∈ children, .child child ∈ node.kindLeads settings.side catchall)
    (h : step ∈ visitSteps key children path) : step.ByRule settings catchall node := by
  obtain ⟨e, he, rfl⟩ := List.mem_map.mp h
  exact .visit (hchildren _ (List.fst_mem_of_mem_zipIdx he))

/-- Content is passed on, unless there is none inside. -/
theorem byRule_inheritStep {inner : NodeId} (h : node.wrapped? settings.side = some inner) :
    (inheritStep inner path).ByRule settings catchall node := by
  unfold inheritStep
  split
  · exact .fail (.missingInner _)
  · exact .inherit h

/-- A default is used, unless its maker fails. -/
theorem byRule_defaultStep {use : Value → Step}
    (huse : ∀ v, node.Yields v → (use v).ByRule settings catchall node) :
    (defaultStep node use).ByRule settings catchall node := by
  unfold defaultStep
  split
  · rename_i v hv
    exact huse v (.produced hv)
  · rename_i hcause
    exact .fail (.default hcause)

/-! ### Texts and numbers -/

/-- A result that was mapped is a value if it was one before. -/
theorem map_eq_ok {ε α β : Type} {r : Except ε α} {g : α → β} {y : β} :
    r.map g = .ok y ↔ ∃ x, r = .ok x ∧ g x = y := by
  cases r <;> simp [Except.map]

/-- A result that was mapped is an error if it was one before. -/
theorem map_eq_error {ε α β : Type} {r : Except ε α} {g : α → β} {e : ε} :
    r.map g = .error e ↔ r = .error e := by
  cases r <;> simp [Except.map]

/-- A text has keywords for data alone. -/
theorem byRule_stringSteps (h : step ∈ stringSteps node.constraints path) :
    step.ByRule settings catchall node := by
  unfold stringSteps at h
  simp only [List.mem_append, List.mem_singleton] at h
  -- In the order of the recipe: type, lengths, format, pattern, encoding.
  rcases h with ((((rfl | h) | h) | h) | h) | h
  · exact .data (by decide) (.text _)
  · exact byRule_numberKeyword (by decide) h
  · exact byRule_numberKeyword (by decide) h
  · split at h
    · split at h <;> obtain rfl := List.mem_singleton.mp h
      · refine .data (by decide) ?_
        unfold formatKeyword
        split
        · split <;> exact .text _
        · exact .carried (node.constraint_mem_carried .format)
      · exact .fail .misuse
    · cases h
  · split at h
    · cases h
    · obtain rfl := List.mem_singleton.mp h
      exact byRule_patternStep _ path
    · obtain rfl := List.mem_singleton.mp h
      exact .fail .missingChild
  · split at h
    · obtain rfl := List.mem_singleton.mp h
      exact .data (by decide) (.carried (node.constraint_mem_carried .contentEncoding))
    · cases h

/-- Asking whether a format is one of integers fails only for a misuse. -/
theorem asksForIntegers_error {v : Value} {f : Failure} (h : asksForIntegers v = .error f) :
    f = .misuse := by
  unfold asksForIntegers at h
  split at h <;> cases h
  rfl

/-- The bound that is written on either side has one of the two keywords, and is a number. -/
theorem mem_lowerBound {inclusive exclusive : Value} {e : String × Value}
    (h : e ∈ lowerBound inclusive exclusive) :
    e.1 ∈ ["minimum", "exclusiveMinimum"] ∧ e.2.number?.isSome := by
  unfold lowerBound at h
  split at h
  · split at h <;> (cases List.mem_singleton.mp h; simp [*])
  · cases List.mem_singleton.mp h
    simp [*]
  · cases List.mem_singleton.mp h
    simp [*]
  · cases h

/-- The same of upper bounds. -/
theorem mem_upperBound {inclusive exclusive : Value} {e : String × Value}
    (h : e ∈ upperBound inclusive exclusive) :
    e.1 ∈ ["maximum", "exclusiveMaximum"] ∧ e.2.number?.isSome := by
  unfold upperBound at h
  split at h
  · split at h <;> (cases List.mem_singleton.mp h; simp [*])
  · cases List.mem_singleton.mp h
    simp [*]
  · cases List.mem_singleton.mp h
    simp [*]
  · cases h

/-- A number has keywords for data alone. -/
theorem byRule_numberSteps (h : step ∈ numberSteps node.constraints) :
    step.ByRule settings catchall node := by
  unfold numberSteps at h
  dsimp only at h
  split at h
  · rename_i f htype
    obtain rfl := List.mem_singleton.mp h
    split at htype
    · obtain rfl := asksForIntegers_error (map_eq_error.mp htype)
      exact .fail .misuse
    · cases htype
  · rcases List.mem_append.mp h with h | h
    · rcases List.mem_cons.mp h with rfl | h
      · exact .data (by decide) (.text _)
      · obtain ⟨e, he, rfl⟩ := List.mem_map.mp h
        have hlower : ["minimum", "exclusiveMinimum"] ⊆ dataKeywords := by decide
        have hupper : ["maximum", "exclusiveMaximum"] ⊆ dataKeywords := by decide
        rcases List.mem_append.mp he with he | he
        · exact .data (hlower (mem_lowerBound he).1) (.number (mem_lowerBound he).2)
        · exact .data (hupper (mem_upperBound he).1) (.number (mem_upperBound he).2)
    · exact byRule_numberKeyword (by decide) h

/-! ### Literals -/

/-- The values of a literal are written as they are, or as integers. -/
theorem of_literalValues {P : Value → Prop} (hint : ∀ i, P (.int i)) {policy : Unrepresentable}
    {values vs : List Value} (hp : ∀ v ∈ values, P v)
    (h : literalValues policy path values = .ok vs) : ∀ v ∈ vs, P v := by
  fun_induction literalValues policy path values generalizing vs with
  | case1 =>
    cases h
    exact List.forall_mem_nil _
  | case2 => cases h
  | case3 rest hpolicy ih => exact ih (fun v hv => hp v (List.mem_cons_of_mem _ hv)) h
  | case4 => cases h
  | case5 i rest hpolicy ih =>
    obtain ⟨ws, hws, rfl⟩ := map_eq_ok.mp h
    exact List.forall_mem_cons.mpr ⟨hint i, ih (fun v hv => hp v (List.mem_cons_of_mem _ hv)) hws⟩
  | case6 v rest h₁ h₂ ih =>
    obtain ⟨ws, hws, rfl⟩ := map_eq_ok.mp h
    exact List.forall_mem_cons.mpr ⟨hp v (List.mem_cons_self ..),
      ih (fun v hv => hp v (List.mem_cons_of_mem _ hv)) hws⟩

/-- Values of a literal are refused for want of a counterpart alone. -/
theorem refuses_of_literalValues {values : List Value} {f : Failure}
    (h : literalValues settings.unrepresentable path values = .error f) :
    node.Refuses settings f := by
  fun_induction literalValues settings.unrepresentable path values with
  | case1 => cases h
  | case2 rest hpolicy =>
    cases h
    exact .undefinedLiteral hpolicy _
  | case3 rest hpolicy ih => exact ih h
  | case4 i rest hpolicy =>
    cases h
    exact .bigintLiteral hpolicy _
  | case5 i rest hpolicy ih => exact ih (map_eq_error.mp h)
  | case6 v rest h₁ h₂ ih => exact ih (map_eq_error.mp h)

/-- A literal has one value, or one of several. -/
theorem byRule_literalSteps (h : step ∈ literalSteps node settings.unrepresentable path) :
    step.ByRule settings catchall node := by
  have hvalues : ∀ v ∈ node.values, node.Yields v := fun v hv => .carried (by
    simp only [Node.carried, List.mem_append]
    exact .inl (.inr hv))
  have hint : ∀ i, node.Yields (.int i) := fun _ => .number rfl
  unfold literalSteps at h
  split at h
  · rename_i hrefused
    obtain rfl := List.mem_singleton.mp h
    exact .fail (refuses_of_literalValues hrefused)
  · cases h
  · rename_i v hv
    obtain rfl := List.mem_singleton.mp h
    exact .data (by decide) (of_literalValues hint hvalues hv v (List.mem_singleton_self v))
  · rename_i vs _ _ hvs
    obtain rfl := List.mem_singleton.mp h
    exact .data (by decide) (.list (of_literalValues hint hvalues hvs))

/-! ### Kinds with children -/

/-- An object has its properties, and all others are refused, free or like one node. -/
theorem byRule_objectSteps (hkind : node.kind = .object)
    (h : step ∈ objectSteps node catchall path) : step.ByRule settings catchall node := by
  have hleads : ∀ lead, lead ∈ (node.shape.getD []).map (fun property => Lead.child property.2)
      ++ (if catchall = some .never then [] else node.catchall.leads) →
      lead ∈ node.kindLeads settings.side catchall := by
    unfold Node.kindLeads
    rw [hkind]
    exact fun _ => id
  have hshape : ∀ p ∈ node.shape.getD [],
      .child p.2 ∈ node.kindLeads settings.side catchall := fun p hp =>
    hleads _ (List.mem_append_left _ (List.mem_map_of_mem hp))
  unfold objectSteps at h
  simp only [List.mem_append, List.mem_cons, List.mem_flatMap, List.not_mem_nil, or_false] at h
  -- Type, open properties, each property with its child, what is required, and the rest.
  rcases h with (((rfl | rfl) | ⟨p, hp, rfl | rfl⟩) | rfl) | h
  · exact .data (by decide) (.text _)
  · exact .properties hkind
  · exact .visit (hshape p hp)
  · exact .property hkind (hshape p hp)
  · exact .require hkind
  · split at h
    · cases h
    · rename_i hgap
      split at h
      · obtain rfl := List.mem_singleton.mp h
        exact .closed hkind
      · rename_i hnever
        have hcatchall : .child node.catchall ∈ node.kindLeads settings.side catchall := by
          refine hleads _ (List.mem_append_right _ ?_)
          rw [if_neg hnever, NodeId.leads, if_neg hgap]
          exact List.mem_singleton_self _
        simp only [List.mem_cons, List.not_mem_nil, or_false] at h
        rcases h with rfl | rfl
        · exact .visit hcatchall
        · exact .schema (.inl hkind) (by decide) hcatchall

/-- A tuple has its items under the keywords of the dialect. -/
theorem byRule_tupleSteps (hkind : node.kind = .tuple)
    (h : step ∈ tupleSteps node settings.target path) : step.ByRule settings catchall node := by
  have hleads : ∀ lead, lead ∈ node.items.map .child ++ node.rest.leads →
      lead ∈ node.kindLeads settings.side catchall := by
    unfold Node.kindLeads
    rw [hkind]
    exact fun _ => id
  unfold tupleSteps at h
  simp only [List.mem_append, List.mem_singleton] at h
  rcases h with ((((rfl | h) | rfl) | h) | h) | h
  · exact .data (by decide) (.text _)
  · exact byRule_visitSteps (fun child hchild =>
      hleads _ (List.mem_append_left _ (List.mem_map_of_mem hchild))) h
  · refine .leading hkind ?_
    split <;> decide
  · split at h
    · cases h
    · rename_i hgap
      simp only [List.mem_cons, List.not_mem_nil, or_false] at h
      rcases h with rfl | rfl
      · refine .visit (hleads _ (List.mem_append_right _ ?_))
        rw [NodeId.leads, if_neg hgap]
        exact List.mem_singleton_self _
      · refine .rest hkind ?_ hgap
        split <;> decide
  · exact byRule_numberKeyword (by decide) h
  · exact byRule_numberKeyword (by decide) h

/-- A fallback that can be asked without a value answers with a default. -/
theorem byRule_fallbackSteps (hkind : node.kind = .fallback)
    (h : step ∈ fallbackSteps node path) : step.ByRule settings catchall node := by
  unfold fallbackSteps at h
  split at h
  · cases h
  · split at h <;> obtain rfl := List.mem_singleton.mp h
    · rename_i hcalled
      exact .default (.inr hkind) (.called hcalled)
    · exact .fail (.dynamicFallback _ _)

/-- A template is a text with a pattern. -/
theorem byRule_templateSteps (h : step ∈ templateSteps node path) :
    step.ByRule settings catchall node := by
  unfold templateSteps at h
  split at h
  · obtain rfl := List.mem_singleton.mp h
    exact .fail (.missingPattern _)
  · simp only [List.mem_cons, List.not_mem_nil, or_false] at h
    rcases h with rfl | rfl
    · exact .data (by decide) (.text _)
    · exact byRule_patternStep _ path

/-- **The rules.** The rules for the kind of a node take no other steps. -/
theorem byRule_kindSteps (h : step ∈ kindSteps settings catchall node path) :
    step.ByRule settings catchall node := by
  have htype : ∀ {name : String}, (Step.write "type" (.str name)).ByRule settings catchall node :=
    .data (by decide) (.text _)
  unfold kindSteps at h
  cases hkind : node.kind <;> simp only [hkind] at h
  case string => exact byRule_stringSteps h
  case number => exact byRule_numberSteps h
  case literal => exact byRule_literalSteps h
  case templateLiteral => exact byRule_templateSteps h
  case object => exact byRule_objectSteps hkind h
  case tuple => exact byRule_tupleSteps hkind h
  case boolean | success | undefined | null =>
    obtain rfl := List.mem_singleton.mp h
    exact htype
  case any | unknown => cases h
  case never =>
    obtain rfl := List.mem_singleton.mp h
    exact .data (by decide) .nothing
  case enumeration =>
    obtain rfl := List.mem_singleton.mp h
    refine .data (by decide) (.list fun v hv => .carried ?_)
    simp only [Node.carried, List.mem_append]
    exact .inl (.inl (.inr hv))
  case array =>
    simp only [arraySteps, List.mem_append, List.mem_cons, List.not_mem_nil, or_false] at h
    rcases h with (h | h) | rfl | rfl | rfl
    · exact byRule_numberKeyword (by decide) h
    · exact byRule_numberKeyword (by decide) h
    · exact htype
    · exact .visit (by simp [Node.kindLeads, hkind])
    · exact .items hkind
  case union =>
    rcases List.mem_append.mp h with h | h
    · exact byRule_visitSteps (fun child hchild => by simpa [Node.kindLeads, hkind]) h
    · obtain rfl := List.mem_singleton.mp h
      exact .options hkind
  case intersection =>
    rcases List.mem_append.mp h with h | h
    · exact byRule_visitSteps (fun child hchild => by simpa [Node.kindLeads, hkind] using hchild) h
    · obtain rfl := List.mem_singleton.mp h
      exact .sides hkind
  case record =>
    simp only [recordSteps, List.mem_cons, List.not_mem_nil, or_false] at h
    have hkey : .child node.keyType ∈ node.kindLeads settings.side catchall := by
      simp [Node.kindLeads, hkind]
    have hvalue : .child node.valueType ∈ node.kindLeads settings.side catchall := by
      simp [Node.kindLeads, hkind]
    rcases h with rfl | rfl | rfl | rfl | rfl
    · exact htype
    · exact .visit hkey
    · exact .schema (.inr hkind) (by decide) hkey
    · exact .visit hvalue
    · exact .schema (.inr hkind) (by decide) hvalue
  case nullable =>
    simp only [List.mem_cons, List.not_mem_nil, or_false] at h
    rcases h with rfl | rfl
    · exact .visit (by simp [Node.kindLeads, hkind])
    · exact .nullable hkind
  case optional | nonoptional | promise | pipe =>
    obtain rfl := List.mem_singleton.mp h
    exact byRule_inheritStep (by simp [Node.wrapped?, hkind])
  case default =>
    simp only [List.mem_cons, List.not_mem_nil, or_false] at h
    rcases h with rfl | rfl
    · exact byRule_inheritStep (by simp [Node.wrapped?, hkind])
    · exact byRule_defaultStep fun _ hv => .default (.inl hkind) hv
  case prefault =>
    rcases List.mem_cons.mp h with rfl | h
    · exact byRule_inheritStep (by simp [Node.wrapped?, hkind])
    · split at h
      · obtain rfl := List.mem_singleton.mp h
        exact byRule_defaultStep fun _ hv => .prefault hkind hv
      · cases h
  case fallback =>
    rcases List.mem_cons.mp h with rfl | h
    · exact byRule_inheritStep (by simp [Node.wrapped?, hkind])
    · exact byRule_fallbackSteps hkind h
  case readonly =>
    simp only [List.mem_cons, List.not_mem_nil, or_false] at h
    rcases h with rfl | rfl
    · exact byRule_inheritStep (by simp [Node.wrapped?, hkind])
    · exact .data (by decide) (.flag _)
  case lazy =>
    obtain rfl := List.mem_singleton.mp h
    exact .inheritResolved hkind
  -- The other kinds have no counterpart, which is refused or passed over.
  all_goals
    split at h
    · rename_i hpolicy
      obtain rfl := List.mem_singleton.mp h
      exact .fail (hkind ▸ .unrepresentable hpolicy _)
    · cases h

/-- The rules write few keywords besides `allOf` and `default`, and these for few kinds alone. -/
theorem Step.ByRule.keyword {key : String} {v : Value}
    (h : (write key v).ByRule settings catchall node) :
    key ∈ ruleKeywords ∨ (key = "allOf" ∧ node.kind = .intersection) ∨
      (key = "default" ∧ (node.kind = .default ∨ node.kind = .fallback)) := by
  have hschema : ["additionalProperties", "propertyNames"] ⊆ ruleKeywords := by decide
  have hleading : ["prefixItems", "items"] ⊆ ruleKeywords := by decide
  have hrest : ["items", "additionalItems"] ⊆ ruleKeywords := by decide
  cases h with
  | data hkey => exact .inl (List.mem_append_left _ hkey)
  | schema _ hkey => exact .inl (hschema hkey)
  | leading _ hkey => exact .inl (hleading hkey)
  | rest _ hkey => exact .inl (hrest hkey)
  | sides hkind => exact .inr (.inl ⟨rfl, hkind⟩)
  | default hkind => exact .inr (.inr ⟨rfl, hkind⟩)
  | properties | closed | items | options | nullable => exact .inl (by decide)

/-- What the rules pass on is the content of a child of the node. -/
theorem Node.mem_links_of_wrapped? {side : Side} {child : NodeId}
    (h : node.wrapped? side = some child) : child ∈ node.links := by
  have hside : (if side = .input then node.input else node.output) ∈ node.links := by
    split <;> simp [links]
  unfold wrapped? at h
  split at h <;> cases h
  all_goals first
    | exact hside
    | simp [links]

/-- The rules lead to children of the node. -/
theorem Node.mem_links_of_kindLeads {side : Side} {child : NodeId}
    (h : .child child ∈ node.kindLeads side catchall) : child ∈ node.links := by
  unfold kindLeads at h
  split at h
  all_goals simp only [NodeId.leads, List.mem_append, List.mem_map, List.mem_cons,
    Lead.child.injEq, List.not_mem_nil, or_false, links] at h ⊢
  all_goals grind

/-! ### Custom lowerings -/

/-- A list that is no list of pairs is refused for the first of its elements that is none. -/
theorem pairs_refused {index : Nat} {vs : List Value} {f : Failure}
    (h : (Value.pairs index vs).2 = some f) : f = .misuse ∨ ∃ i length, f = .notPair i length := by
  induction vs generalizing index with
  | nil => cases h
  | cons v rest ih =>
    unfold Value.pairs at h
    split at h
    · rename_i hpair
      cases h
      unfold Value.pair? at hpair
      split at hpair
      · split at hpair <;> cases hpair
        exact .inl rfl
      · cases hpair
        exact .inr ⟨_, _, rfl⟩
      · cases hpair
        exact .inl rfl
    · exact ih h

/-- A custom lowering fails if the function raises something, or returns no mapping. -/
theorem fail_of_mem_loweringSteps {lowering : Value} {f : Failure}
    (h : .fail f ∈ loweringSteps lowering) :
    (∃ cause, lowering.call none = .error cause ∧ f = .ofRaised cause) ∨ f = .misuse ∨
      ∃ i length, f = .notPair i length := by
  unfold loweringSteps at h
  split at h
  · rename_i cause hcause
    cases List.mem_singleton.mp h
    exact .inl ⟨cause, hcause, rfl⟩
  · rename_i v _
    dsimp only at h
    split at h
    · cases List.mem_singleton.mp h
    · rename_i g hstop
      simp only [List.mem_cons, reduceCtorEq, Step.fail.injEq, List.not_mem_nil, or_false,
        false_or] at h
      subst h
      unfold Value.mergeable at hstop
      split at hstop
      · cases hstop
      · cases hstop
      · split at hstop
        · exact .inr (pairs_refused hstop)
        · cases hstop
          exact .inr (.inl rfl)

end Rules

end SchemaGraph
