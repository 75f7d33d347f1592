import SchemaGraph.Proofs.Survey.Cycles
import SchemaGraph.Proofs.Survey.Outside
import SchemaGraph.Proofs.Survey.Treks

namespace SchemaGraph

open SchemaGraph.Action

/-!
# Where paths lead

The path that a child is visited on is made apart from the keyword that its fragment is written
under.  The two agree but for nodes that may be `null`, whose paths leave `anyOf` out, and for
tuples in the older dialect, whose paths go by the newer names of the keywords.  Where the nodes
above are none of these, a path that is followed from the fragment of the root arrives at the node
that it was made for.

* `Path.Arrives`              — following a path from a value
* `Node.Straight`             — the paths of a node go by the keywords that it writes
* `Store.Lowers`              — what the recipe of a node writes
* `Store.Lowers.points`       — a node points at its children along their paths
* `Converter.paths_arrive`    — the paths of a descent arrive
* `Converter.paths_stray`     — paths that do not
-/

/-! ### Following a path -/

/-- Following a path from a value arrives at a node.  A keyword leads on from the fragment of a node,
    a name from a mapping, and an index from a list; a node that passes content on is stepped over
    in silence. -/
inductive Path.Arrives (visits : NodeId → Visit → Prop) : Value → Path → NodeId → Prop
  | here (n : NodeId) : Arrives visits (.fragment n) [] n
  | passed {n m k : NodeId} {v : Visit} {path : Path} (hv : visits n v) (ht : v.target = some m)
      (h : Arrives visits (.fragment m) path k) : Arrives visits (.fragment n) path k
  | keyword {n k : NodeId} {v : Visit} {key : String} {x : Value} {path : Path} (hv : visits n v)
      (hx : v.fragment.get? (.str key) = some x) (h : Arrives visits x path k) :
      Arrives visits (.fragment n) (.name key :: path) k
  | member {es : Entries} {name : String} {x : Value} {path : Path} {k : NodeId}
      (hx : es.get? (.str name) = some x) (h : Arrives visits x path k) :
      Arrives visits (.dict es) (.name name :: path) k
  | element {xs : List Value} {i : Nat} {x : Value} {path : Path} {k : NodeId}
      (hx : xs[i]? = some x) (h : Arrives visits x path k) :
      Arrives visits (.list xs) (.index (Int.ofNat i) :: path) k

/-- The keywords that paths lead through. -/
def wayKeywords : List String :=
  ["items", "prefixItems", "properties", "additionalProperties", "propertyNames", "anyOf", "allOf"]

/-- A visit points at a node along a path: it passes the content of the node on, or the fragment of
    the node stands under a keyword, by itself or in a mapping or a list. -/
inductive Visit.Points (v : Visit) : Path → NodeId → Prop
  | passed {m : NodeId} (h : v.target = some m) : Points v [] m
  | child {key : String} {m : NodeId} (hkey : key ∈ wayKeywords)
      (h : v.fragment.get? (.str key) = some (.fragment m)) : Points v [.name key] m
  | member {key name : String} {es : Entries} {m : NodeId} (hkey : key ∈ wayKeywords)
      (h : v.fragment.get? (.str key) = some (.dict es))
      (hm : es.get? (.str name) = some (.fragment m)) : Points v [.name key, .name name] m
  | element {key : String} {xs : List Value} {i : Nat} {m : NodeId} (hkey : key ∈ wayKeywords)
      (h : v.fragment.get? (.str key) = some (.list xs)) (hm : xs[i]? = some (.fragment m)) :
      Points v [.name key, .index (Int.ofNat i)] m

namespace Path.Arrives

variable {visits : NodeId → Visit → Prop} {x : Value} {p q : Path} {n m : NodeId} {v : Visit}

/-- Two paths that arrive one behind the other make one that arrives. -/
theorem append (h₁ : Arrives visits x p n) (h₂ : Arrives visits (.fragment n) q m) :
    Arrives visits x (p ++ q) m := by
  induction h₁ with
  | here n => exact h₂
  | passed hv ht _ ih => exact .passed hv ht (ih h₂)
  | keyword hv hx _ ih => exact .keyword hv hx (ih h₂)
  | member hx _ ih => exact .member hx (ih h₂)
  | element hx _ ih => exact .element hx (ih h₂)

/-- Where a name leads from the fragment of a visited node. -/
theorem of_name {s : Survey} {key : String} {path : Path} {k : NodeId}
    (h : Arrives (fun n v => s.visit? n = some v) (.fragment n) (.name key :: path) k) :
    (∃ m, (s.visit? n).bind (·.target) = some m ∧
      Arrives (fun n v => s.visit? n = some v) (.fragment m) (.name key :: path) k) ∨
    ∃ x, (s.visit? n).bind (·.fragment.get? (.str key)) = some x ∧
      Arrives (fun n v => s.visit? n = some v) x path k := by
  cases h with
  | @passed n m k v path hv ht h => exact .inl ⟨m, by rw [hv]; exact ht, h⟩
  | @keyword n k v key x path hv hx h => exact .inr ⟨x, by rw [hv]; exact hx, h⟩

/-- Where a visit points, its node leads. -/
theorem of_points (hv : visits n v) (h : v.Points p m) : Arrives visits (.fragment n) p m := by
  cases h with
  | passed h => exact .passed hv h (.here m)
  | child hkey h => exact .keyword hv h (.here m)
  | member hkey h hm => exact .keyword hv h (.member hm (.here m))
  | element hkey h hm => exact .keyword hv h (.element hm (.here m))

end Path.Arrives

/-- Visits that pass the same on, and have the same under the keywords of paths, point the same way. -/
theorem Visit.Points.congr {v w : Visit} {p : Path} {m : NodeId} (h : v.Points p m)
    (ht : w.target = v.target)
    (hkeys : ∀ key ∈ wayKeywords, w.fragment.get? (.str key) = v.fragment.get? (.str key)) :
    w.Points p m := by
  cases h with
  | passed h => exact .passed (ht.trans h)
  | child hkey h => exact .child hkey ((hkeys _ hkey).trans h)
  | member hkey h hm => exact .member hkey ((hkeys _ hkey).trans h) hm
  | element hkey h hm => exact .element hkey ((hkeys _ hkey).trans h) hm

/-! ### What steps leave behind -/

namespace Step

variable {required : List (String × NodeId) → Option (List String)} {answer : Option Resolved}
  {v w : Visit} {s : Store} {n m : NodeId} {p q : Path}

/-- What steps write in one go, they write in two portions. -/
theorem replayAll_append {first rest : List Step}
    (h : replayAll required answer (first ++ rest) v = some w) :
    ∃ u, replayAll required answer first v = some u ∧ replayAll required answer rest u = some w := by
  induction first generalizing v with
  | nil => exact ⟨v, rfl, h⟩
  | cons step first ih =>
    cases hstep : replay required answer v step with
    | none => simp [replayAll, hstep] at h
    | some u =>
      simp only [List.cons_append, replayAll, hstep] at h ⊢
      exact ih h

/-- What one of the steps writes under a keyword that all others spare stands there in the end. -/
theorem written {steps : List Step} {key : String} {x : Value}
    (h : replayAll required answer steps v = some w)
    (hsole : ∀ step ∈ steps, step = .write key x ∨ step.Spares key)
    (hmem : .write key x ∈ steps ∨ v.fragment.get? (.str key) = some x) :
    w.fragment.get? (.str key) = some x := by
  induction steps generalizing v with
  | nil =>
    cases h
    exact hmem.resolve_left List.not_mem_nil
  | cons step rest ih =>
    obtain ⟨u, hstep, h⟩ := replayAll_cons.mp h
    refine ih h (fun other hother => hsole other (List.mem_cons_of_mem _ hother)) ?_
    rcases hsole step (List.mem_cons_self ..) with rfl | hspares
    · cases hstep
      exact .inr (Entries.get?_set_self ..)
    · rw [get?_replay hspares hstep]
      refine hmem.imp_left fun hmem => (List.mem_cons.mp hmem).resolve_left ?_
      rintro rfl
      exact hspares rfl

/-- A step without a lead goes no way. -/
theorem way?_of_lead?_none {step : Step} (h : step.lead? = none) : step.way? s n = none := by
  cases step <;> first | rfl | cases h

/-- A bound shows no way. -/
theorem way?_numberKeyword {key : String} {x : Value} {step : Step}
    (h : step ∈ numberKeyword key x) : step.way? s n = none := by
  unfold numberKeyword at h
  split at h
  · obtain rfl := List.mem_singleton.mp h
    rfl
  · cases h

/-- The way of a visit to one of several children is that child's index. -/
theorem way?_visitSteps {key : String} {children : List NodeId} {step : Step}
    (h : step ∈ visitSteps key children p) (hway : step.way? s n = some (m, q)) :
    ∃ i : Nat, children[i]? = some m ∧ q = p ++ [.name key, .index (Int.ofNat i)] := by
  obtain ⟨⟨child, i⟩, hchild, rfl⟩ := List.mem_map.mp h
  cases hway
  exact ⟨i, by simpa using List.mem_zipIdx_iff_getElem?.mp hchild, rfl⟩

/-- Steps without a lead keep what is passed on. -/
theorem target_replayAll {steps : List Step} (h : replayAll required answer steps v = some w)
    (hsteps : leadsOf steps = []) : w.target = v.target := by
  refine replayAll_keeps (P := fun u => u.target = v.target) ?_ h rfl
  intro step hstep u x hx hu
  have hlead : step.lead? = none := lead?_of_mem hsteps hstep
  -- A step that leads nowhere sets no target.
  cases step with
  | require shape =>
    obtain ⟨names, -, rfl⟩ := replay_require.mp hx
    exact hu
  | visit | inherit | inheritResolved | inheritSource => cases hlead
  | fail f => cases hx
  | _ =>
    cases hx
    exact hu

/-- A node that passes on the content of the one inside points there along the empty path. -/
theorem points_inheritStep {inner : NodeId} {rest : List Step}
    (h : replayAll required answer (inheritStep inner p :: rest) v = some w)
    (hrest : leadsOf rest = []) {step : Step} (hstep : step ∈ inheritStep inner p :: rest)
    (hway : step.way? s n = some (m, q)) : ∃ suffix, q = p ++ suffix ∧ w.Points suffix m := by
  rcases List.mem_cons.mp hstep with rfl | hstep
  · unfold inheritStep at h hway
    split at hway
    · cases hway
    · rename_i hgap
      rw [if_neg hgap] at h
      cases hway
      have htarget := target_replayAll (v := { v with target := some m }) h hrest
      exact ⟨[], (List.append_nil _).symm, .passed htarget⟩
  · rw [way?_of_lead?_none (lead?_of_mem hrest hstep)] at hway
    cases hway

/-- Properties that are written one by one stand under their names, if the names differ. -/
theorem written_properties {shape : List (String × NodeId)} {es : Entries}
    (h : replayAll required answer (shape.flatMap fun (name, child) =>
      [.visit child (p ++ [.name "properties", .name name]), .property name child]) v = some w)
    (hv : v.fragment.get? "properties" = some (.dict es)) (hnames : (shape.map (·.1)).Nodup) :
    ∃ es' : Entries, w.fragment.get? "properties" = some (.dict es') ∧
      (∀ property ∈ shape, es'.get? (.str property.1) = some (.fragment property.2)) ∧
      ∀ name ∉ shape.map (·.1), es'.get? (.str name) = es.get? (.str name) := by
  induction shape generalizing v es with
  | nil =>
    cases h
    exact ⟨es, hv, nofun, fun _ _ => rfl⟩
  | cons property rest ih =>
    obtain ⟨name, child⟩ := property
    obtain ⟨hname, hnames⟩ := List.nodup_cons.mp hnames
    have hput : (Conversion.putProperty name child v.fragment).get? "properties" =
        some (.dict (es.set (.str name) (.fragment child))) := by
      simp only [Conversion.putProperty, hv]
      exact Entries.get?_set_self ..
    obtain ⟨es', hes', hall, hother⟩ := ih (v := { v with fragment := _ }) h hput hnames
    refine ⟨es', hes', List.forall_mem_cons.mpr ⟨?_, hall⟩, fun other hnew => ?_⟩
    · rw [hother name hname]
      exact Entries.get?_set_self ..
    · obtain ⟨hne, hnew⟩ := not_or.mp (List.mem_cons.not.mp hnew)
      rw [hother other hnew, Entries.get?_set_str, if_neg hne]

end Step

/-! ### Nodes point at their children -/

/-- The paths to the children of a node go by the keywords that it writes: it is not one that may be
    `null`, and no tuple in the older dialect.  The names of its properties differ. -/
def Node.Straight (target : Target) (node : Node) : Prop :=
  node.lowering = .null → node.parent = .gap →
    node.kind ≠ .nullable ∧ (node.kind = .tuple → target = .draft2020) ∧
      ((node.shape.getD []).map (·.1)).Nodup

instance (target : Target) (node : Node) : Decidable (node.Straight target) :=
  inferInstanceAs (Decidable (_ = _ → _ = _ → _ ≠ _ ∧ (_ = _ → _ = _) ∧ List.Nodup _))

section Points

variable {required : List (String × NodeId) → Option (List String)} {answer : Option Resolved}
  {w : Visit} {s : Store} {node : Node} {n m : NodeId} {p q : Path}

/-- A bound spares the other keywords. -/
theorem spares_numberKeyword {key name : String} {x : Value} (hne : key ≠ name) {step : Step}
    (h : step ∈ numberKeyword key x) : step.Spares name := by
  unfold numberKeyword at h
  split at h
  · obtain rfl := List.mem_singleton.mp h
    exact hne
  · cases h

/-- An array points at the node of its elements along the path to it. -/
theorem points_arraySteps (h : Step.replayAll required answer (arraySteps node p) {} = some w)
    {step : Step} (hstep : step ∈ arraySteps node p) (hway : step.way? s n = some (m, q)) :
    ∃ suffix, q = p ++ suffix ∧ w.Points suffix m := by
  -- No later step of the recipe writes `items` again.
  have hitems : w.fragment.get? (.str "items") = some (.fragment node.element) := by
    refine Step.written h (fun step hstep => ?_) (.inl (by simp [arraySteps]))
    simp only [arraySteps, List.mem_append, List.mem_cons, List.not_mem_nil, or_false] at hstep
    rcases hstep with (hstep | hstep) | rfl | rfl | rfl
    · exact .inr (spares_numberKeyword (by decide) hstep)
    · exact .inr (spares_numberKeyword (by decide) hstep)
    · exact .inr (by decide : "type" ≠ "items")
    · exact .inr trivial
    · exact .inl rfl
  simp only [arraySteps, List.mem_append, List.mem_cons, List.not_mem_nil, or_false] at hstep
  rcases hstep with (hstep | hstep) | rfl | rfl | rfl
  · rw [Step.way?_numberKeyword hstep] at hway
    cases hway
  · rw [Step.way?_numberKeyword hstep] at hway
    cases hway
  · cases hway
  · cases hway
    exact ⟨_, rfl, .child (by decide) hitems⟩
  · cases hway

/-- Several children whose fragments stand in a list under the keyword of their paths. -/
theorem points_visitSteps {key : String} {children : List NodeId} (hkey : key ∈ wayKeywords)
    (h : w.fragment.get? (.str key) = some (fragments children)) {step : Step}
    (hstep : step ∈ visitSteps key children p) (hway : step.way? s n = some (m, q)) :
    ∃ suffix, q = p ++ suffix ∧ w.Points suffix m := by
  obtain ⟨i, hi, rfl⟩ := Step.way?_visitSteps hstep hway
  refine ⟨_, rfl, .element hkey h ?_⟩
  rw [List.getElem?_map, hi]
  rfl

/-- A record points at the nodes of its names and values along the paths to them. -/
theorem points_recordSteps (h : Step.replayAll required answer (recordSteps node p) {} = some w)
    {step : Step} (hstep : step ∈ recordSteps node p) (hway : step.way? s n = some (m, q)) :
    ∃ suffix, q = p ++ suffix ∧ w.Points suffix m := by
  have hkeys : w.fragment.get? (.str "propertyNames") = some (.fragment node.keyType) := by
    refine Step.written h (fun step hstep => ?_) (.inl (by simp [recordSteps]))
    simp only [recordSteps, List.mem_cons, List.not_mem_nil, or_false] at hstep
    rcases hstep with rfl | rfl | rfl | rfl | rfl <;> simp [Step.Spares]
  have hvalues : w.fragment.get? (.str "additionalProperties") = some (.fragment node.valueType) := by
    refine Step.written h (fun step hstep => ?_) (.inl (by simp [recordSteps]))
    simp only [recordSteps, List.mem_cons, List.not_mem_nil, or_false] at hstep
    rcases hstep with rfl | rfl | rfl | rfl | rfl <;> simp [Step.Spares]
  simp only [recordSteps, List.mem_cons, List.not_mem_nil, or_false] at hstep
  rcases hstep with rfl | rfl | rfl | rfl | rfl
  · cases hway
  · cases hway
    exact ⟨_, rfl, .child (by decide) hkeys⟩
  · cases hway
  · cases hway
    exact ⟨_, rfl, .child (by decide) hvalues⟩
  · cases hway

/-- The children of a tuple stand under the keywords of their paths in the newer dialect. -/
theorem points_tupleSteps
    (h : Step.replayAll required answer (tupleSteps node .draft2020 p) {} = some w) {step : Step}
    (hstep : step ∈ tupleSteps node .draft2020 p) (hway : step.way? s n = some (m, q)) :
    ∃ suffix, q = p ++ suffix ∧ w.Points suffix m := by
  -- The steps of a tuple one by one.
  have hcases : ∀ step ∈ tupleSteps node .draft2020 p,
      step = .write "type" "array" ∨ step ∈ visitSteps "prefixItems" node.items p ∨
      step = .write "prefixItems" (fragments node.items) ∨
      (node.rest ≠ .gap ∧ (step = .visit node.rest (p ++ [.name "items"]) ∨
        step = .write "items" (.fragment node.rest))) ∨
      step ∈ numberKeyword "minItems" node.constraints.minimum ∨
      step ∈ numberKeyword "maxItems" node.constraints.maximum := by
    intro step hstep
    unfold tupleSteps at hstep
    by_cases hrest : node.rest = .gap <;> simpa [hrest, or_assoc] using hstep
  have hvisits : ∀ {name step}, step ∈ visitSteps "prefixItems" node.items p → step.Spares name := by
    intro name step hstep
    obtain ⟨e, -, rfl⟩ := List.mem_map.mp hstep
    trivial
  -- The items are written once, and no other step touches their keyword.
  have hitems : w.fragment.get? (.str "prefixItems") = some (fragments node.items) := by
    refine Step.written h (fun step hstep => ?_) (.inl (by simp [tupleSteps]))
    rcases hcases step hstep with rfl | hstep | rfl | ⟨-, rfl | rfl⟩ | hstep | hstep
    · exact .inr (by decide : "type" ≠ "prefixItems")
    · exact .inr (hvisits hstep)
    · exact .inl rfl
    · exact .inr trivial
    · exact .inr (by decide : "items" ≠ "prefixItems")
    · exact .inr (spares_numberKeyword (by decide) hstep)
    · exact .inr (spares_numberKeyword (by decide) hstep)
  -- Only visits show a way; the rest of a tuple is visited under `items`.
  rcases hcases step hstep with rfl | hstep | rfl | ⟨hgap, hstep⟩ | hstep | hstep
  · cases hway
  · exact points_visitSteps (by decide) hitems hstep hway
  · cases hway
  · have hrest : w.fragment.get? (.str "items") = some (.fragment node.rest) := by
      refine Step.written h (fun step hstep => ?_) (.inl (by simp [tupleSteps, hgap]))
      rcases hcases step hstep with rfl | hstep | rfl | ⟨-, rfl | rfl⟩ | hstep | hstep
      · exact .inr (by decide : "type" ≠ "items")
      · exact .inr (hvisits hstep)
      · exact .inr (by decide : "prefixItems" ≠ "items")
      · exact .inr trivial
      · exact .inl rfl
      · exact .inr (spares_numberKeyword (by decide) hstep)
      · exact .inr (spares_numberKeyword (by decide) hstep)
    rcases hstep with rfl | rfl
    · cases hway
      exact ⟨_, rfl, .child (by decide) hrest⟩
    · cases hway
  · rw [Step.way?_numberKeyword hstep] at hway
    cases hway
  · rw [Step.way?_numberKeyword hstep] at hway
    cases hway

/-- What an object says of all other properties. -/
def otherProperties (node : Node) (catchall : Option Kind) (path : Path) : List Step :=
  if node.catchall = .gap then []
  else if catchall = some .never then [.write "additionalProperties" (.bool false)]
  else [.visit node.catchall (path ++ [.name "additionalProperties"]),
    .write "additionalProperties" (.fragment node.catchall)]

/-- The steps of an object: its type, its properties one by one, and what it says of the others. -/
theorem objectSteps_eq (catchall : Option Kind) :
    objectSteps node catchall p = [.write "type" "object", .write "properties" (.dict [])]
      ++ (node.shape.getD []).flatMap (fun (name, child) =>
        [.visit child (p ++ [.name "properties", .name name]), .property name child])
      ++ [.require (node.shape.getD [])] ++ otherProperties node catchall p := rfl

/-- All other properties have a fragment under their keyword, if they are visited. -/
theorem mem_otherProperties {catchall : Option Kind} {step : Step}
    (h : step ∈ otherProperties node catchall p) :
    (∃ x, step = .write "additionalProperties" x) ∨
      otherProperties node catchall p =
        [.visit node.catchall (p ++ [.name "additionalProperties"]),
          .write "additionalProperties" (.fragment node.catchall)] ∧
        step = .visit node.catchall (p ++ [.name "additionalProperties"]) := by
  unfold otherProperties at h ⊢
  split at h
  · cases h
  · split at h
    · exact .inl ⟨_, List.mem_singleton.mp h⟩
    · rename_i hgap hnever
      rw [if_neg hgap, if_neg hnever]
      simp only [List.mem_cons, List.not_mem_nil, or_false] at h
      exact h.symm.imp (fun h => ⟨_, h⟩) fun h => ⟨rfl, h⟩

/-- The properties of an object stand under their names, the node for all others under its own
    keyword. -/
theorem points_objectSteps {catchall : Option Kind}
    (h : Step.replayAll required answer (objectSteps node catchall p) {} = some w)
    (hnames : ((node.shape.getD []).map (·.1)).Nodup) {step : Step}
    (hstep : step ∈ objectSteps node catchall p) (hway : step.way? s n = some (m, q)) :
    ∃ suffix, q = p ++ suffix ∧ w.Points suffix m := by
  rw [objectSteps_eq] at h hstep
  obtain ⟨u, hu, hothers⟩ := Step.replayAll_append h
  -- The properties are written one by one; what is required and what is said of others comes behind
  -- them.
  have hproperties : ∃ es : Entries, w.fragment.get? (.str "properties") = some (.dict es) ∧
      ∀ property ∈ node.shape.getD [], es.get? (.str property.1) = some (.fragment property.2) := by
    obtain ⟨t, ht, hrequire⟩ := Step.replayAll_append hu
    obtain ⟨first, hfirst, hshape⟩ := Step.replayAll_append ht
    cases hfirst
    obtain ⟨es, hes, hall, -⟩ := Step.written_properties hshape rfl hnames
    refine ⟨es, ?_, hall⟩
    have hspared : u.fragment.get? (.str "properties") = t.fragment.get? (.str "properties") := by
      refine Step.get?_replayAll (fun other hother => ?_) hrequire
      obtain rfl := List.mem_singleton.mp hother
      exact (by decide : "properties" ≠ "required")
    rw [Step.get?_replayAll (fun other hother => ?_) hothers, hspared, hes]
    rcases mem_otherProperties hother with ⟨x, rfl⟩ | ⟨-, rfl⟩
    · exact (by decide : "additionalProperties" ≠ "properties")
    · trivial
  simp only [List.mem_append, List.mem_cons, List.mem_flatMap, List.not_mem_nil, or_false] at hstep
  rcases hstep with (((rfl | rfl) | ⟨property, hproperty, rfl | rfl⟩) | rfl) | hstep
  · cases hway
  · cases hway
  · cases hway
    obtain ⟨es, hes, hall⟩ := hproperties
    exact ⟨_, rfl, .member (by decide) hes (hall property hproperty)⟩
  · cases hway
  · cases hway
  -- What all other properties have to match is visited under a keyword of its own.
  · rcases mem_otherProperties hstep with ⟨x, rfl⟩ | ⟨hvisited, rfl⟩
    · cases hway
    · cases hway
      rw [hvisited] at hothers
      refine ⟨_, rfl, .child (by decide) (Step.written hothers (fun other hother => ?_) (.inl ?_))⟩
      · simp only [List.mem_cons, List.not_mem_nil, or_false] at hother
        rcases hother with rfl | rfl
        · exact .inr trivial
        · exact .inl rfl
      · exact List.mem_cons_of_mem _ (List.mem_singleton_self _)

/-- **Kinds.** A node that a rule has lowered on a path points at its children along their paths, if
    these go by its keywords. -/
theorem points_kindSteps {settings : LoweringSettings} {catchall : Option Kind}
    (h : Step.replayAll required (s.resolved? n) (kindSteps settings catchall node p) {} = some w)
    (hnullable : node.kind ≠ .nullable) (htuple : node.kind = .tuple → settings.target = .draft2020)
    (hnames : ((node.shape.getD []).map (·.1)).Nodup) {step : Step}
    (hstep : step ∈ kindSteps settings catchall node p) (hway : step.way? s n = some (m, q)) :
    ∃ suffix, q = p ++ suffix ∧ w.Points suffix m := by
  -- Where no step leads anywhere, none shows a way.
  have hquiet : ∀ {steps : List Step}, Step.leadsOf steps = [] → step ∉ steps := by
    intro steps hsteps hmem
    rw [Step.way?_of_lead?_none (lead?_of_mem hsteps hmem)] at hway
    cases hway
  unfold kindSteps at h hstep
  cases hk : node.kind <;> simp only [hk] at h hstep
  case nullable => exact absurd hk hnullable
  case array => exact points_arraySteps h hstep hway
  case object => exact points_objectSteps h hnames hstep hway
  case record => exact points_recordSteps h hstep hway
  case tuple =>
    rw [htuple hk] at h hstep
    exact points_tupleSteps h hstep hway
  case union =>
    have hoptions : w.fragment.get? (.str "anyOf") = some (fragments node.options) := by
      obtain ⟨u, -, hwrite⟩ := Step.replayAll_append h
      cases hwrite
      exact Entries.get?_set_self ..
    rcases List.mem_append.mp hstep with hstep | hstep
    · exact points_visitSteps (by decide) hoptions hstep hway
    · obtain rfl := List.mem_singleton.mp hstep
      cases hway
  case intersection =>
    have hsides : w.fragment.get? (.str "allOf") = some (fragments [node.left, node.right]) := by
      obtain ⟨u, -, hwrite⟩ := Step.replayAll_append h
      cases hwrite
      exact Entries.get?_set_self ..
    rcases List.mem_append.mp hstep with hstep | hstep
    · exact points_visitSteps (by decide) hsides hstep hway
    · obtain rfl := List.mem_singleton.mp hstep
      cases hway
  -- Wrappers take over the content of the node inside, on their own path.
  case optional | nonoptional | promise | readonly | pipe =>
    exact Step.points_inheritStep h rfl hstep hway
  case default =>
    have hdefault : (defaultStep node (.write "default")).lead? = none :=
      lead?_defaultStep node fun _ => rfl
    exact Step.points_inheritStep h (by simp [hdefault]) hstep hway
  case prefault =>
    have hdefault : (defaultStep node .prefault).lead? = none :=
      lead?_defaultStep node fun _ => rfl
    exact Step.points_inheritStep h (by split <;> simp [hdefault]) hstep hway
  case fallback => exact Step.points_inheritStep h (leadsOf_fallbackSteps ..) hstep hway
  case lazy =>
    obtain rfl := List.mem_singleton.mp hstep
    obtain ⟨k, hk, hkm⟩ := Option.map_eq_some_iff.mp hway
    cases hkm
    refine ⟨[], (List.append_nil _).symm, .passed ?_⟩
    unfold Store.follow? at hk
    cases hanswer : s.resolved? n with
    | none => simp [hanswer] at hk
    | some answer =>
      cases answer with
      | value v => simp [hanswer] at hk
      | node k =>
        rw [hanswer] at h hk
        cases h
        exact hk
  case string => exact absurd hstep (hquiet (leadsOf_stringSteps ..))
  case number => exact absurd hstep (hquiet (leadsOf_numberSteps ..))
  case literal => exact absurd hstep (hquiet (leadsOf_literalSteps ..))
  case templateLiteral => exact absurd hstep (hquiet (leadsOf_templateSteps ..))
  all_goals
    refine absurd hstep (hquiet ?_)
    first
      | rfl
      | (split <;> rfl)

end Points

namespace Store

variable {s : Store} {guide : Guide} {n m : NodeId} {node : Node} {v w : Visit} {p q : Path}

/-- What the recipe of a node writes, before its annotation is written over it. -/
def Lowers (s : Store) (guide : Guide) (n : NodeId) (w : Visit) : Prop :=
  ∃ node links, s.node? n = some node ∧
    Step.replayAll (s.required? guide.settings.side links) (s.resolved? n)
      (node.recipe guide.settings (s.catchallKind node) []) {} = some w

/-- What a node contributes is what its recipe writes, with its annotation and its default. -/
theorem lowers_of_contents? {links : Nat} (h : s.contents? guide links n = some v) :
    ∃ node w, s.node? n = some node ∧ s.Lowers guide n w ∧
      v = (w.annotated ((s.catalog guide.catalog).get? n)).settled guide.settings.side node.kind := by
  obtain ⟨node, w, hn, hw, hv⟩ := contents?_eq_some.mp h
  exact ⟨node, w, hn, ⟨node, links, hn, hw⟩, hv⟩

/-- **Steps.** A node points at its children along their paths. -/
theorem Lowers.points (hw : s.Lowers guide n w) (hn : s.node? n = some node)
    (hstraight : node.Straight guide.settings.target) (hway : (m, q) ∈ s.ways guide.settings n p) :
    ∃ suffix, q = p ++ suffix ∧ w.Points suffix m := by
  obtain ⟨node', links, hn', hw⟩ := hw
  obtain rfl := Option.some.inj (hn'.symm.trans hn)
  unfold ways at hway
  rw [hn] at hway
  obtain ⟨step, hstep, hway⟩ := List.mem_filterMap.mp hway
  rw [← Step.replayAll_path guide.settings _ node' p] at hw
  unfold Node.recipe at hstep hw
  -- A lowering of its own leads nowhere, a clone points at its source, and else the kind decides.
  by_cases hl : node'.lowering ≠ .null
  · rw [if_pos hl] at hstep
    rw [Step.way?_of_lead?_none (lead?_of_mem (leadsOf_loweringSteps _) hstep)] at hway
    cases hway
  · rw [if_neg hl] at hstep hw
    by_cases hp : node'.parent ≠ .gap
    · rw [if_pos hp] at hstep hw
      obtain rfl := List.mem_singleton.mp hstep
      cases hway
      cases hw
      exact ⟨[], (List.append_nil _).symm, .passed rfl⟩
    · rw [if_neg hp] at hstep hw
      obtain ⟨hnullable, htuple, hnames⟩ := hstraight (not_not.mp hl) (not_not.mp hp)
      exact points_kindSteps hw hnullable htuple hnames hstep hway

/-- The annotation of a node holds none of the keywords that paths lead through. -/
def Signed (s : Store) (catalog : String) (n : NodeId) : Prop :=
  ∀ notes, (s.catalog catalog).get? n = some notes → ∀ key ∈ wayKeywords, notes.get? (.str key) = none

/-- An annotation that holds none of the keywords of paths leaves the way free. -/
theorem Signed.points (h : s.Signed guide.catalog n) {kind : Kind} (hw : w.Points q m)
    (hv : v.content = ((w.annotated ((s.catalog guide.catalog).get? n)).settled
      guide.settings.side kind).content) : v.Points q m := by
  simp only [Visit.content, Prod.mk.injEq] at hv
  obtain ⟨hfragment, htarget, -⟩ := hv
  refine hw.congr ?_ fun key hkey => ?_
  · rw [htarget, Visit.target_settled, Visit.target_annotated]
  · have hne : key ≠ "default" ∧ key ≠ "examples" := by
      constructor <;> (rintro rfl; revert hkey; decide)
    rw [hfragment, Visit.get?_settled_of_ne hne.1 hne.2]
    unfold Visit.annotated
    split
    · rename_i notes hnotes
      exact Entries.get?_update_of_none (h notes hnotes key hkey)
    · rfl

end Store

/-! ### Descents -/

namespace Trek

variable {ways : NodeId → Path → List (NodeId × Path)} {above seen out : List NodeId}
  {ahead : List (NodeId × Path)} {arrivals : List Arrival} {whole : Bool}

/-- What was seen stays in front. -/
theorem isPrefix (h : Trek ways above seen ahead arrivals out whole) : seen <+: out := by
  induction h with
  | done above seen => exact List.prefix_refl seen
  | stop above seen ahead => exact List.prefix_refl seen
  | again _ _ ih => exact ih
  | enter _ _ _ ihbelow ih => exact ((List.prefix_append _ _).trans ihbelow).trans ih
  | broken _ _ ihbelow => exact (List.prefix_append _ _).trans ihbelow

/-- **Arrivals.** What holds of what is ahead, and is handed down along the ways out of visited
    nodes, holds of all arrivals. -/
theorem forall_arrivals {P : List NodeId → NodeId → Path → Prop}
    (h : Trek ways above seen ahead arrivals out whole)
    (hahead : ∀ way ∈ ahead, P above way.1 way.2)
    (hways : ∀ above n path, n ∈ out → P above n path → ∀ way ∈ ways n path,
      P (n :: above) way.1 way.2) : ∀ a ∈ arrivals, P a.above a.node a.path := by
  induction h with
  | done above seen => nofun
  | stop above seen ahead => nofun
  | again hn h ih =>
    obtain ⟨hfirst, hrest⟩ := List.forall_mem_cons.mp hahead
    exact List.forall_mem_cons.mpr ⟨hfirst, ih hrest hways⟩
  | @enter above seen mid out n path rest below arrivals whole hn hbelow h ihbelow ih =>
    obtain ⟨hfirst, hrest⟩ := List.forall_mem_cons.mp hahead
    have hmid : mid ⊆ out := h.isPrefix.subset
    have hentered : n ∈ mid := hbelow.isPrefix.subset (by simp)
    have hall := ihbelow (hways above n path (hmid hentered) hfirst)
      fun above k path hk => hways above k path (hmid hk)
    refine List.forall_mem_cons.mpr ⟨hfirst, fun a ha => ?_⟩
    exact (List.mem_append.mp ha).elim (hall a) (ih hrest hways a)
  -- What comes behind a trek that was broken off is never arrived at.
  | @broken above seen out n path rest below hn hbelow ihbelow =>
    have hfirst := hahead _ (List.mem_cons_self ..)
    have hentered : n ∈ out := hbelow.isPrefix.subset (by simp)
    exact List.forall_mem_cons.mpr
      ⟨hfirst, ihbelow (hways above n path hentered hfirst) hways⟩

end Trek

/-- A node that was last met below itself was arrived at there. -/
theorem exists_of_lastLoop? {arrivals : List Arrival} {n : NodeId} {path : Path}
    (h : lastLoop? arrivals n = some path) :
    ∃ a ∈ arrivals, a.node = n ∧ a.path = path ∧ n ∈ a.above := by
  obtain ⟨a, ha, rfl⟩ := Option.map_eq_some_iff.mp h
  obtain ⟨hmem, hloops⟩ := List.mem_filter.mp (List.mem_of_getLast? ha)
  obtain ⟨rfl, hback⟩ : a.node = n ∧ a.loops = true := by simpa using hloops
  exact ⟨a, hmem, rfl, rfl, of_decide_eq_true (Bool.and_eq_true_iff.mp hback).2⟩

namespace Converter

open Conversion

/-- **Paths arrive.** When a visit to a root of a fresh survey returns, the descent has been a trek
    over the graph; a node that carries a mark was arrived at below itself on the path of the mark;
    and each path on which a node was arrived at, be it entered or met again, leads to the node,
    wherever the paths of all nodes above go by their keywords:

    * followed from what the recipe of the root writes, over what those of the other nodes write;
    * followed from the fragment of the root in the survey, if no annotation of a node above has
      written over a keyword of paths. -/
theorem paths_arrive (conv : Converter) {store : Store} (hs : store.Closed) {root : NodeId}
    {c : Conversion} (h : Returns (conv.process root) (start store) () c) :
    ∃ arrivals,
      Trek (c.store.ways conv.guide.settings) [] [] [(root, [])] arrivals c.survey.order true ∧
      (∀ n v path, c.survey.visit? n = some v → v.cycle = some path →
        ∃ a ∈ arrivals, a.node = n ∧ a.path = path ∧ n ∈ a.above) ∧
      ∀ a ∈ arrivals,
        (∀ m ∈ a.above, ∀ node, c.store.node? m = some node →
          node.Straight conv.guide.settings.target) →
        Path.Arrives (c.store.Lowers conv.guide) (.fragment root) a.path a.node ∧
        ((∀ m ∈ a.above, c.store.Signed conv.guide.catalog m) →
          Path.Arrives (fun n v => c.survey.visit? n = some v) (.fragment root) a.path a.node) := by
  have hrun : conv.process root (start store) = (.ok (), c) := h
  obtain ⟨arrivals, htrek, hmarks⟩ : Travels (c.store.ways conv.guide.settings) [] [(root, [])]
      (conv.process root) (start store) := by
    refine process_travels (start_closed hs) ?_
    rw [hrun]
    exact .refl c.store
  rw [hrun] at htrek hmarks
  have hexplored : Explored conv.guide c.store c.survey :=
    .of_explores (process_explores (start_closed hs) h).1 (not_has_start store)
  have hmark : ∀ n, c.mark? n = lastLoop? arrivals n := by
    intro n
    rw [hmarks n, show (start store).mark? n = none from rfl, Option.or_none]
  -- one step down, from what the recipe of a visited node writes and from its fragment
  have hstep : ∀ n path, n ∈ c.survey.order → ∀ way ∈ c.store.ways conv.guide.settings n path,
      (∀ node, c.store.node? n = some node → node.Straight conv.guide.settings.target) →
      ∃ suffix, way.2 = path ++ suffix ∧
        Path.Arrives (c.store.Lowers conv.guide) (.fragment n) suffix way.1 ∧
        (c.store.Signed conv.guide.catalog n →
          Path.Arrives (fun n v => c.survey.visit? n = some v) (.fragment n) suffix way.1) := by
    intro n path hn way hway hstraight
    obtain ⟨v, hv⟩ := Survey.visit?_of_has ((Survey.has_iff _ _).mpr hn)
    obtain ⟨links, x, hx, hsame⟩ := hexplored.contents hv
    obtain ⟨node, w, hnode, hw, rfl⟩ := Store.lowers_of_contents? hx
    obtain ⟨suffix, hsuffix, hpoints⟩ := hw.points hnode (hstraight node hnode) hway
    exact ⟨suffix, hsuffix, .of_points hw hpoints,
      fun hsigned => .of_points hv (hsigned.points hpoints hsame.symm)⟩
  refine ⟨arrivals, htrek, fun n v path hv hcycle => ?_, ?_⟩
  · refine exists_of_lastLoop? ?_
    rw [← hmark n, mark?, hv]
    exact hcycle
  · refine htrek.forall_arrivals (P := fun above n path =>
      (∀ m ∈ above, ∀ node, c.store.node? m = some node →
        node.Straight conv.guide.settings.target) →
      Path.Arrives (c.store.Lowers conv.guide) (.fragment root) path n ∧
      ((∀ m ∈ above, c.store.Signed conv.guide.catalog m) →
        Path.Arrives (fun n v => c.survey.visit? n = some v) (.fragment root) path n)) ?_ ?_
    · intro way hway _
      obtain rfl := List.mem_singleton.mp hway
      exact ⟨.here root, fun _ => .here root⟩
    · intro above n path hn hdown way hway hstraight
      obtain ⟨hfirst, habove⟩ := List.forall_mem_cons.mp hstraight
      obtain ⟨suffix, hsuffix, hlowers, hvisit⟩ := hstep n path hn way hway hfirst
      obtain ⟨hlowered, hvisited⟩ := hdown habove
      rw [hsuffix]
      refine ⟨hlowered.append hlowers, fun hsigned => ?_⟩
      obtain ⟨hone, hothers⟩ := List.forall_mem_cons.mp hsigned
      exact (hvisited hothers).append (hvisit hone)

/-- A list of tuples, the one item of which is a tuple again. -/
def ringedTuple : Store where
  nodes := [{ kind := .array, element := .node 1 }, { kind := .tuple, items := [.node 2] },
    { kind := .lazy, getter := some 0 }]
  getters := [{ owner := .node 2, source := .named "tuple" }]
  names := [("tuple", .node 1)]

/-- No child of the ring is missing. -/
theorem ringedTuple_closed : ringedTuple.Closed :=
  .of_forall (by decide) (by decide) (List.forall_mem_singleton.mpr trivial)

/-- In the newer dialect the tuple is marked with a path that leads to it. -/
theorem paths_arrive_ringedTuple :
    ∃ c, Returns (({} : Converter).process (.node 0)) (start ringedTuple) () c ∧
      (c.survey.visit? (.node 1)).bind (·.cycle) =
        some [.name "items", .name "prefixItems", .index 0] ∧
      Path.Arrives (fun n v => c.survey.visit? n = some v) (.fragment (.node 0))
        [.name "items", .name "prefixItems", .index 0] (.node 1) := by
  obtain ⟨⟨⟩, h⟩ := exists_returns (a := ({} : Converter).process (.node 0))
    (s := start ringedTuple) (by decide +kernel)
  have hmark : ((({} : Converter).process (.node 0) (start ringedTuple)).2.survey.visit?
      (.node 1)).bind (·.cycle) = some [.name "items", .name "prefixItems", .index 0] := by
    decide +kernel
  have hnodes : ∀ node ∈ (({} : Converter).process (.node 0) (start ringedTuple)).2.store.nodes,
      node.Straight .draft2020 := by decide +kernel
  have hnotes : (({} : Converter).process (.node 0) (start ringedTuple)).2.store.catalogs.isEmpty := by
    decide +kernel
  obtain ⟨arrivals, -, hmarks, harrive⟩ := paths_arrive {} ringedTuple_closed h
  generalize (({} : Converter).process (.node 0) (start ringedTuple)).2 = c at *
  obtain ⟨v, hv, hcycle⟩ := Option.bind_eq_some_iff.mp hmark
  obtain ⟨a, ha, hnode, hpath, -⟩ := hmarks (.node 1) v _ hv hcycle
  have hstraight : ∀ m ∈ a.above, ∀ node, c.store.node? m = some node →
      node.Straight .draft2020 := by
    intro m _ node hm
    cases m with
    | gap => cases hm
    | node i => exact hnodes node (List.mem_of_getElem? hm)
  have hsigned : ∀ m ∈ a.above, c.store.Signed "global" m := by
    intro m _ notes hm
    rw [Store.catalog, List.isEmpty_iff.mp hnotes] at hm
    cases hm
  have harrives := (harrive a ha hstraight).2 hsigned
  rw [hnode, hpath] at harrives
  exact ⟨c, h, hmark, harrives⟩

/-- Lists of such lists, each of which may be `null`. -/
def nullableLists : Store where
  nodes := [{ kind := .nullable, inner := .node 1 }, { kind := .array, element := .node 2 },
    { kind := .lazy, getter := some 0 }]
  getters := [{ owner := .node 2, source := .named "lists" }]
  names := [("lists", .node 0)]

/-- In the older dialect the tuple is marked with the same path, which leads nowhere; and the path
    that marks the lists leaves out that they may be `null`. -/
theorem paths_stray :
    let conv : Converter := { guide := { settings := { target := .draft7 } } }
    let c := (conv.process (.node 0) (start ringedTuple)).2
    let d := (({} : Converter).process (.node 0) (start nullableLists)).2
    ((conv.process (.node 0) (start ringedTuple)).1.isOk ∧
      (c.survey.visit? (.node 1)).bind (·.cycle) =
        some [.name "items", .name "prefixItems", .index 0] ∧
      ¬ Path.Arrives (fun n v => c.survey.visit? n = some v) (.fragment (.node 0))
        [.name "items", .name "prefixItems", .index 0] (.node 1)) ∧
    (({} : Converter).process (.node 0) (start nullableLists)).1.isOk ∧
      (d.survey.visit? (.node 0)).bind (·.cycle) = some [.name "items"] ∧
      ¬ Path.Arrives (fun n v => d.survey.visit? n = some v) (.fragment (.node 0)) [.name "items"]
        (.node 0) := by
  intro conv c d
  refine ⟨⟨by decide +kernel, by decide +kernel, fun h => ?_⟩, by decide +kernel, by decide +kernel,
    fun h => ?_⟩
  -- The path asks for `prefixItems`, where only `items` was written.
  · have hroot : (c.survey.visit? (.node 0)).bind (·.target) = none := by decide +kernel
    have hitems : (c.survey.visit? (.node 0)).bind (·.fragment.get? (.str "items")) =
        some (.fragment (.node 1)) := by decide +kernel
    have htuple : (c.survey.visit? (.node 1)).bind (·.target) = none := by decide +kernel
    have hprefix : (c.survey.visit? (.node 1)).bind (·.fragment.get? (.str "prefixItems")) = none := by
      decide +kernel
    rcases h.of_name with ⟨m, hm, -⟩ | ⟨x, hx, h⟩
    · cases hroot.symm.trans hm
    · cases hitems.symm.trans hx
      rcases h.of_name with ⟨m, hm, -⟩ | ⟨x, hx, -⟩
      · cases htuple.symm.trans hm
      · cases hprefix.symm.trans hx
  -- The path asks for `items` where the alternatives stand in between.
  · have hroot : (d.survey.visit? (.node 0)).bind (·.target) = none := by decide +kernel
    have hitems : (d.survey.visit? (.node 0)).bind (·.fragment.get? (.str "items")) = none := by
      decide +kernel
    rcases h.of_name with ⟨m, hm, -⟩ | ⟨x, hx, -⟩
    · cases hroot.symm.trans hm
    · cases hitems.symm.trans hx

end Converter

end SchemaGraph
