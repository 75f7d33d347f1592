import SchemaGraph.Proofs.Store.Answers

namespace SchemaGraph

open SchemaGraph.Action

/-!
# Extension of the store

Whatever is asked of the store, nodes, getters and lists of annotations are added behind those that
are there, and none of these is changed but for the calls that a getter counts.  So the bound for
descents only grows.

* `Store.Extends s t`   — `t` has further nodes, getters and lists
* `Store.extent_mono`   — the bound for descents grows
* `Store.resolve_extends`, `Store.requiredNames_extends` — what a visit asks extends the store
-/

namespace Store

/-- Further nodes, getters and lists stand behind those that were there. -/
structure Extends (s t : Store) : Prop where
  nodes : s.nodes <+: t.nodes
  sources : s.getters.map (·.source) <+: t.getters.map (·.source)
  lists : s.lists <+: t.lists

/-- A store extends itself. -/
theorem Extends.refl (s : Store) : Extends s s :=
  ⟨List.prefix_refl _, List.prefix_refl _, List.prefix_refl _⟩

/-- An extension of an extension is one. -/
theorem Extends.trans {s t u : Store} (h₁ : Extends s t) (h₂ : Extends t u) : Extends s u :=
  ⟨h₁.nodes.trans h₂.nodes, h₁.sources.trans h₂.sources, h₁.lists.trans h₂.lists⟩

instance : Std.Refl Extends := ⟨Extends.refl⟩

instance : Trans Extends Extends Extends := ⟨Extends.trans⟩

/-! ### The bound for descents -/

/-- Summing up the sizes of sources only adds to what is there. -/
theorem le_foldl_size (sources : List Source) (k : Nat) :
    k ≤ sources.foldl (fun n x => n + x.size) k := by
  induction sources generalizing k with
  | nil => exact Nat.le_refl k
  | cons x rest ih =>
    rw [List.foldl_cons]
    exact Nat.le_trans (Nat.le_add_right k x.size) (ih _)

/-- **Bounds.** The bound for descents grows with the store. -/
theorem extent_mono {s t : Store} (h : Extends s t) : s.extent ≤ t.extent := by
  have hnodes : s.nodes.length ≤ t.nodes.length := h.nodes.length_le
  have hlazy : s.lazyCount ≤ t.lazyCount := by
    obtain ⟨more, hmore⟩ := h.nodes
    unfold lazyCount
    rw [← hmore, List.filter_append, List.length_append]
    omega
  have hsizes : s.getters.foldl (fun n g => n + g.source.size) 0 ≤
      t.getters.foldl (fun n g => n + g.source.size) 0 := by
    have hmap : ∀ getters : List Getter, getters.foldl (fun n g => n + g.source.size) 0 =
        (getters.map (·.source)).foldl (fun n x => n + x.size) 0 :=
      fun _ => by rw [List.foldl_map]
    obtain ⟨more, hmore⟩ := h.sources
    rw [hmap, hmap, ← hmore, List.foldl_append]
    exact le_foldl_size more _
  unfold extent
  exact Nat.add_le_add hnodes (Nat.mul_le_mul hlazy hsizes)

/-! ### Single steps -/

variable {α : Type}

/-- A change that leaves nodes, getters and lists alone. -/
theorem extends_of_eq {s t : Store} (hn : t.nodes = s.nodes) (hg : t.getters = s.getters)
    (hl : t.lists = s.lists) : Extends s t :=
  ⟨hn ▸ List.prefix_refl _, hg ▸ List.prefix_refl _, hl ▸ List.prefix_refl _⟩

/-- An event changes no node, getter or list. -/
theorem log_extends (e : Event) : Within Extends (log e) := fun _ => extends_of_eq rfl rfl rfl

/-- A failure changes nothing. -/
theorem fail_extends (f : Failure) : Within Extends (fail f : Action Store α) := by
  unfold fail
  split
  · exact .bind (log_extends _) fun _ => within_throw f
  · exact within_throw f

/-- Looking a node up changes nothing. -/
theorem fetch_extends (n : NodeId) : Within Extends (fetch n) := by
  refine .bind within_get fun s => ?_
  split
  · exact within_pure _
  · exact fail_extends _

/-- A new node stands behind the others. -/
theorem addNode_extends (node : Node) : Within Extends (addNode node) := fun _ =>
  ⟨⟨[node], rfl⟩, List.prefix_refl _, List.prefix_refl _⟩

/-- A new getter stands behind the others. -/
theorem addLazy_extends (source : Source) : Within Extends (addLazy source) := by
  intro s
  refine ⟨⟨[_], rfl⟩, ⟨[source], ?_⟩, List.prefix_refl _⟩
  show _ = List.map Getter.source (s.getters ++ [⟨s.nextId, source, 0⟩])
  rw [List.map_append]
  rfl

/-- Names of nodes are no part of what is extended. -/
theorem bind_extends (name : String) (n : NodeId) :
    Within Extends (modify fun s => s.bind name n) := by
  intro s
  show Extends s (s.bind name n)
  unfold Store.bind
  split <;> exact extends_of_eq rfl rfl rfl

/-- A new list of annotations stands behind the others. -/
theorem annotate_extends (catalog : String) (n : NodeId) (notes : Entries) :
    Within Extends (annotate catalog n notes) := by
  intro s
  obtain ⟨more, hmore⟩ := detachList_eq s notes
  have hdetach : Extends s (s.detachList notes).1 :=
    hmore ▸ ⟨List.prefix_refl _, List.prefix_refl _, List.prefix_append _ _⟩
  cases hadd : (s.catalog catalog).add n (s.detachList notes).2 with
  | error f =>
    rw [annotate_of_error hadd]
    exact fail_extends f s
  | ok c =>
    rw [annotate_of_ok hadd]
    exact hdetach.trans
      (extends_of_eq (nodes_setCatalog ..) (getters_setCatalog ..) (lists_setCatalog ..))

/-- A counted call leaves the getter what it is. -/
theorem countCall_extends (i : Nat) : Within Extends (modify fun s => s.countCall i) := by
  intro s
  have hsources : s.getters.map (·.source) <+: (s.countCall i).getters.map (·.source) :=
    map_source_countCall s i ▸ List.prefix_refl _
  exact ⟨List.prefix_refl _, hsources, List.prefix_refl _⟩

/-! ### Blueprints -/

mutual

/-- Building a blueprint extends the store: induction on the blueprint, together with its children
    and its parts. -/
theorem build_extends (b : Blueprint) : Within Extends (build b) := by
  -- By the shape of the blueprint: each case builds parts, and adds at most one node or getter of
  -- its own behind them.
  cases b with
  | named name =>
    simp only [build]
    refine .bind within_get fun s => ?_
    split
    · exact within_pure _
    · exact fail_extends _
  | node base children =>
    simp only [build]
    exact .bind (buildChildren_extends children base) fun node => addNode_extends node
  | concatenation parts =>
    simp only [build]
    exact .bind (buildParts_extends parts) fun parts => addNode_extends _
  | lazyNamed name => simpa only [build] using addLazy_extends _
  | lazyFresh result => simpa only [build] using addLazy_extends _
  | lazyValue v => simpa only [build] using addLazy_extends _
  | lazyRaise cause => simpa only [build] using addLazy_extends _
  | clone source =>
    simp only [build]
    exact .bind (build_extends source) fun n => .bind (fetch_extends n) fun _ => addNode_extends _
  | constrained source changes =>
    simp only [build]
    exact .bind (build_extends source) fun n => .bind (fetch_extends n) fun _ => addNode_extends _
  | annotated source notes catalog =>
    simp only [build]
    refine .bind (build_extends source) fun n => .bind (fetch_extends n) fun _ => ?_
    refine .bind (addNode_extends _) fun m => ?_
    exact .bind (annotate_extends catalog m notes) fun _ => within_pure _
  | lowered source lowering =>
    simp only [build]
    exact .bind (build_extends source) fun n => .bind (fetch_extends n) fun _ => addNode_extends _
  | aliased source name =>
    simp only [build]
    refine .bind (build_extends source) fun n => ?_
    exact .bind (bind_extends name n) fun _ => within_pure _
  | broken children cause =>
    simp only [build]
    exact .bind (buildChildren_extends children _) fun _ => fail_extends _

/-- So does building the children of a blueprint. -/
theorem buildChildren_extends (children : List (Slot × Blueprint)) (node : Node) :
    Within Extends (buildChildren node children) := by
  cases children with
  | nil => simpa only [buildChildren] using within_pure _
  | cons p rest =>
    obtain ⟨slot, child⟩ := p
    simp only [buildChildren]
    exact .bind (build_extends child) fun n => buildChildren_extends rest _

/-- So does building the parts of a template. -/
theorem buildParts_extends (parts : List (Sum String Blueprint)) :
    Within Extends (buildParts parts) := by
  match parts with
  | [] => simpa only [buildParts] using within_pure _
  | .inl text :: rest =>
    simp only [buildParts]
    exact .bind (buildParts_extends rest) fun _ => within_pure _
  | .inr part :: rest =>
    simp only [buildParts]
    refine .bind (build_extends part) fun n => .bind (fetch_extends n) fun _ => ?_
    exact .bind (buildParts_extends rest) fun _ => within_pure _

end

/-! ### Questions -/

/-- Asking a source, which may build nodes, extends the store. -/
theorem ask_extends (source : Source) : Within Extends (ask source) := by
  cases source with
  | named name =>
    refine .bind within_get fun s => ?_
    split <;> exact within_pure _
  | fresh blueprint => exact .bind (build_extends blueprint) fun _ => within_pure _
  | value v => exact within_pure _
  | raises cause => exact fail_extends _

/-- Asking a lazy node extends the store, whatever comes of it. -/
theorem resolve_extends (n : NodeId) : Within Extends (resolve n) := by
  refine .bind within_get fun s => ?_
  split
  · exact within_pure _
  · refine .bind (fetch_extends n) fun node => ?_
    split
    · exact fail_extends _
    · refine .bind (countCall_extends _) fun _ => .bind (ask_extends _) fun answer => ?_
      exact .bind (fun _ => extends_of_eq rfl rfl rfl) fun _ => within_pure _

/-- Whether a node is optional is found by asking getters on the way: induction on the links that
    may be followed. -/
theorem isOptionalWithin_extends (side : Side) (links : Nat) (n : NodeId) :
    Within Extends (isOptionalWithin side links n) := by
  induction links generalizing n with
  | zero => exact fail_extends _
  | succ links ih =>
    refine .bind (fetch_extends n) fun node => ?_
    split
    · exact within_pure _
    · split
      · exact within_pure _
      · exact ih _
    · refine .bind (resolve_extends n) fun answer => ?_
      split
      · exact ih _
      · exact fail_extends _

/-- Asking which properties must be there extends the store, whatever comes of it. -/
theorem requiredNames_extends (side : Side) (shape : List (String × NodeId)) :
    Within Extends (requiredNames side shape) := by
  induction shape with
  | nil => exact within_pure _
  | cons p rest ih =>
    obtain ⟨name, child⟩ := p
    refine .bind (.bind within_get fun s => isOptionalWithin_extends side _ child) fun skip => ?_
    exact .bind ih fun names => within_pure _

end Store

end SchemaGraph
