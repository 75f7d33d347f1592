import SchemaGraph.Proofs.Survey.Shapes
import SchemaGraph.Proofs.Value.Founded

namespace SchemaGraph

open SchemaGraph.Action

/-!
# Sober stores

A store is sober if nothing that its nodes carry and nothing that is supplied for them contains
itself or refers to another place: values are trees, and so are annotations, but for the lists of
these that are kept apart.  Whatever is asked of a sober store, it stays sober; the lists that it
gets hold trees.

* `Entries.Sober`, `Entries.Noted` — what is supplied, and annotations as they are kept
* `Node.Sober`, `Blueprint.Sober`  — nodes, and what is made by lazy nodes
* `Store.Sober`     — a sober store
* `Store.Harmless`      — an action that keeps a store sober, whatever comes of it
-/

namespace Entries

/-- Trees, and no reference. -/
structure Sober (es : Entries) : Prop where
  trees : es.Each fun v => v.isTree = true
  spared : es.get? Visit.refKey = none

/-- An annotation as it is kept: finite values that point at lists only, and no reference. -/
structure Noted (es : Entries) : Prop where
  finite : es.Each fun v => v.isFinite = true
  lists : ∀ survey, ∀ p ∈ Value.entryPlaces survey es, ∃ k, p = .list k
  spared : es.get? Visit.refKey = none

/-- Sober entries may be kept as annotations. -/
theorem Sober.noted {es : Entries} (h : es.Sober) : es.Noted where
  finite := h.trees.mono fun _ hv => (Value.isTree_iff.mp hv).2
  lists survey p hp := by
    obtain ⟨q, hq, hp⟩ := Value.mem_entryPlaces.mp hp
    rw [Value.places_of_plain _ (Value.isTree_iff.mp (h.trees q hq)).1] at hp
    cases hp
  spared := h.spared

end Entries

/-- What a node carries are trees, and a function that lowers it supplies trees. -/
structure Node.Sober (node : Node) : Prop where
  carried : ∀ v ∈ node.carried, v.isTree = true
  lowered : ∀ v, node.lowering.call none = .ok v → v.mergeable.1.Sober

mutual

/-- What a blueprint puts into nodes and annotations are trees. -/
def Blueprint.Sober : Blueprint → Prop
  | .named _ => True
  | .node base children => base.Sober ∧ SoberChildren children
  | .concatenation parts => SoberParts parts
  | .lazyNamed _ => True
  | .lazyFresh result => result.Sober
  | .lazyValue _ => True
  | .lazyRaise _ => True
  | .clone source => source.Sober
  | .constrained source changes => source.Sober ∧ ∀ p ∈ changes, p.2.isTree = true
  | .annotated source notes _ => source.Sober ∧ notes.Sober
  | .lowered source lowering => source.Sober ∧ lowering.isTree = true ∧
      ∀ v, lowering.call none = .ok v → v.mergeable.1.Sober
  | .aliased source _ => source.Sober
  | .broken children _ => SoberChildren children

/-- What the blueprints of children put into nodes and annotations are trees. -/
def Blueprint.SoberChildren : List (Slot × Blueprint) → Prop
  | [] => True
  | (_, child) :: rest => child.Sober ∧ SoberChildren rest

/-- What the parts of a concatenation put into nodes and annotations are trees. -/
def Blueprint.SoberParts : List (Sum String Blueprint) → Prop
  | [] => True
  | .inl _ :: rest => SoberParts rest
  | .inr part :: rest => part.Sober ∧ SoberParts rest

end

/-- What a getter makes is sober. -/
def Source.Sober : Source → Prop
  | .fresh blueprint => blueprint.Sober
  | _ => True

namespace Node

variable {node node' : Node}

/-- A node that carries what a sober one carries is sober. -/
theorem Sober.of_carried (h : node.Sober) (hcarried : node'.carried = node.carried)
    (hlowering : node'.lowering = node.lowering) : node'.Sober where
  carried := hcarried ▸ h.carried
  lowered := hlowering ▸ h.lowered

/-- A sober node stays sober when a child is attached. -/
theorem Sober.attach (h : node.Sober) (slot : Slot) (child : NodeId) :
    (node.attach slot child).Sober := by
  cases slot <;> exact h.of_carried rfl rfl

/-- A node that carries nothing. -/
theorem sober_of_null (hcarried : ∀ v ∈ node.carried, v = .null) (h : node.lowering = .null) :
    node.Sober where
  carried v hv := by rw [hcarried v hv]; rfl
  lowered v hv := by rw [h] at hv; cases hv

/-- Constraints may be replaced by trees. -/
theorem Sober.constrained (h : node.Sober) {changes : List (ConstraintName × Value)}
    (hchanges : ∀ p ∈ changes, p.2.isTree = true) :
    ({ node with
      constraints := changes.foldl (fun c (name, v) => c.set name v) node.constraints
      parent := .gap } : Node).Sober := by
  -- The constraints are set one by one; induction on the changes.
  have hset : ∀ {c : Constraints} {changes : List (ConstraintName × Value)},
      (∀ name, (c.get name).isTree = true) → (∀ p ∈ changes, p.2.isTree = true) →
      ∀ name, ((changes.foldl (fun c (name, v) => c.set name v) c).get name).isTree = true := by
    intro c changes hc hchanges
    induction changes generalizing c with
    | nil => exact hc
    | cons p rest ih =>
      obtain ⟨hp, hrest⟩ := List.forall_mem_cons.mp hchanges
      refine ih (fun other => ?_) hrest
      by_cases hother : other = p.1
      · rw [hother, Constraints.get_set_self]
        exact hp
      · rw [Constraints.get_set_of_ne hother]
        exact hc other
  refine ⟨fun v hv => ?_, h.lowered⟩
  simp only [Node.carried, List.mem_append, List.mem_map] at hv
  have hcarried := h.carried
  simp only [Node.carried, List.mem_append, List.mem_map] at hcarried
  rcases hv with ((⟨name, -, rfl⟩ | hv) | hv) | hv
  · refine hset (fun other => hcarried _ (.inl (.inl (.inl ⟨other, ?_, rfl⟩)))) hchanges name
    cases other <;> decide
  · exact hcarried v (.inl (.inl (.inr hv)))
  · exact hcarried v (.inl (.inr hv))
  · exact hcarried v (.inr hv)

/-- Another function may lower a node. -/
theorem Sober.lowering (h : node.Sober) {lowering : Value} (htree : lowering.isTree = true)
    (hlowered : ∀ v, lowering.call none = .ok v → v.mergeable.1.Sober) :
    ({ node with lowering, parent := .gap } : Node).Sober where
  carried v hv := by
    simp only [Node.carried, List.mem_append, List.mem_cons, List.not_mem_nil, or_false] at hv
    have hcarried := h.carried v
    simp only [Node.carried, List.mem_append, List.mem_cons, List.not_mem_nil, or_false] at hcarried
    rcases hv with hv | rfl | rfl | rfl
    · exact hcarried (.inl hv)
    · exact hcarried (.inr (.inl rfl))
    · exact hcarried (.inr (.inr (.inl rfl)))
    · exact htree
  lowered := hlowered

end Node

namespace Store

/-- Nodes, getters and annotations are sober. -/
structure Sober (s : Store) : Prop where
  nodes : ∀ node ∈ s.nodes, node.Sober
  getters : ∀ g ∈ s.getters, g.source.Sober
  notes : ∀ e ∈ s.catalogs, ∀ p ∈ e.2.entries, p.2.Noted

variable {s t u : Store}

/-- The nodes of a sober store are sober. -/
theorem Sober.node (h : s.Sober) {n : NodeId} {node : Node} (hn : s.node? n = some node) :
    node.Sober := by
  cases n with
  | gap => cases hn
  | node i => exact h.nodes node (List.mem_of_getElem? hn)

/-- What stands in a catalog stands in one of the catalogs of the store. -/
theorem mem_catalog {name : String} {p : NodeId × Entries}
    (hp : p ∈ (s.catalog name).entries) : ∃ e ∈ s.catalogs, p ∈ e.2.entries := by
  unfold catalog at hp
  cases hfind : s.catalogs.find? fun e => e.1 = name with
  | none =>
    rw [hfind] at hp
    cases hp
  | some e =>
    rw [hfind] at hp
    exact ⟨e, List.mem_of_find?_eq_some hfind, hp⟩

/-- The annotations in a sober store are kept as annotations may be. -/
theorem Sober.noted (h : s.Sober) {name : String} {n : NodeId} {notes : Entries}
    (hn : (s.catalog name).get? n = some notes) : notes.Noted := by
  obtain ⟨e, he, hp⟩ := mem_catalog (Catalog.mem_of_get? hn)
  exact h.notes e he _ hp

/-- A store that is sober and has grown: it has got lists of trees, and left its archive alone. -/
structure Enlarges (s t : Store) : Prop where
  sober : t.Sober
  lists : ∃ more, t.lists = s.lists ++ more ∧ ∀ xs ∈ more, ∀ x ∈ xs, x.isTree = true
  archive : t.archive = s.archive

/-- A sober store with the same lists and the same archive is no less. -/
theorem Enlarges.of_lists (ht : t.Sober) (hl : t.lists = s.lists) (ha : t.archive = s.archive) :
    Enlarges s t := ⟨ht, ⟨[], by rw [hl, List.append_nil], nofun⟩, ha⟩

/-- A sober store is enlarged by nothing. -/
theorem Enlarges.refl (hs : s.Sober) : Enlarges s s := .of_lists hs rfl rfl

/-- A sober store may be enlarged again. -/
theorem Enlarges.trans (h₁ : Enlarges s t) (h₂ : Enlarges t u) : Enlarges s u where
  sober := h₂.sober
  lists := by
    obtain ⟨xs, hxs, htrees⟩ := h₁.lists
    obtain ⟨ys, hys, htrees'⟩ := h₂.lists
    refine ⟨xs ++ ys, by rw [hys, hxs, List.append_assoc], fun zs hzs => ?_⟩
    rcases List.mem_append.mp hzs with hzs | hzs
    · exact htrees zs hzs
    · exact htrees' zs hzs
  archive := h₂.archive.trans h₁.archive

/-- What is kept apart of a sober annotation are trees. -/
theorem detachList_sober {notes : Entries} (hs : s.Sober) (h : notes.Sober) :
    s.Enlarges (s.detachList notes).1 ∧ (s.detachList notes).2.Noted := by
  unfold detachList
  split
  · rename_i xs hget
    obtain ⟨hplain, hfinite⟩ := Value.isTree_iff.mp (h.trees.get? hget)
    -- The list that is taken out holds plain and finite data.
    have hmore : ∀ ys ∈ [xs], ∀ x ∈ ys, x.isTree = true := by
      intro ys hys x hx
      obtain rfl := List.mem_singleton.mp hys
      exact Value.isTree_iff.mpr
        ⟨Value.allPlain_iff.mp hplain x hx, Value.allFinite_iff.mp hfinite x hx⟩
    refine ⟨⟨⟨hs.nodes, hs.getters, hs.notes⟩, ⟨[xs], rfl, hmore⟩, rfl⟩, ?_, ?_, ?_⟩
    · exact h.noted.finite.set _ rfl
    · intro survey p hp
      obtain ⟨q, hq, hp⟩ := Value.mem_entryPlaces.mp hp
      rcases Entries.mem_set hq with hq | ⟨hsame, -⟩
      · exact h.noted.lists survey p (Value.mem_entryPlaces.mpr ⟨q, hq, hp⟩)
      · rw [hsame] at hp
        exact ⟨_, List.mem_singleton.mp hp⟩
    · exact (Entries.get?_set_of_ne (by decide) _ _).trans h.spared
  · rename_i hget
    cases h.trees.get? hget
  · exact ⟨.refl hs, h.noted⟩

/-- What stands in a catalog after an entry was put in is this entry, or stood there before. -/
theorem mem_put {n : NodeId} {e : Entries} {es : List (NodeId × Entries)} {p : NodeId × Entries}
    (hp : p ∈ Catalog.put n e es) : p.2 = e ∨ p ∈ es := by
  induction es with
  | nil => exact .inl (congrArg (·.2) (List.mem_singleton.mp hp))
  | cons q rest ih =>
    obtain ⟨m, old⟩ := q
    unfold Catalog.put at hp
    split at hp <;> rcases List.mem_cons.mp hp with rfl | hp
    · exact .inl rfl
    · exact .inr (List.mem_cons_of_mem _ hp)
    · exact .inr (List.mem_cons_self ..)
    · exact (ih hp).imp id (List.mem_cons_of_mem _)

/-- One more annotation. -/
theorem Sober.add (hs : s.Sober) {name : String} {n : NodeId} {notes : Entries} (h : notes.Noted)
    {c : Catalog} (hadd : (s.catalog name).add n notes = .ok c) : (s.setCatalog name c).Sober := by
  -- Nothing but the new notes comes into the catalog.
  have hentries : ∀ p ∈ c.entries, p.2.Noted := by
    intro p hp
    unfold Catalog.add at hadd
    dsimp only at hadd
    split at hadd
    · cases hadd
    · split at hadd
      · cases hadd
      · cases hadd
        rcases mem_put hp with hnew | hp
        · exact hnew ▸ h
        · obtain ⟨e, he, hp⟩ := mem_catalog hp
          exact hs.notes e he p hp
  refine ⟨by simpa using hs.nodes, by simpa using hs.getters, fun e he => ?_⟩
  unfold setCatalog at he
  split at he
  · obtain ⟨e', he', rfl⟩ := List.mem_map.mp he
    split
    · exact hentries
    · exact hs.notes e' he'
  · rcases List.mem_append.mp he with he | he
    · exact hs.notes e he
    · obtain rfl := List.mem_singleton.mp he
      exact hentries

/-! ### Harmless actions -/

/-- Whatever comes of the action, a sober store stays sober; what is returned has a property. -/
def Harmless {α : Type} (P : α → Prop) (a : Action Store α) : Prop :=
  ∀ s : Store, s.Sober → Meets a s (fun x t => P x ∧ s.Enlarges t) s.Enlarges

section Harmless

variable {α β : Type} {P Q : α → Prop} {R : β → Prop} {a : Action Store α}
  {f : α → Action Store β}

/-- Harmless actions may follow each other. -/
theorem Harmless.bind (ha : Harmless P a) (hf : ∀ x, P x → Harmless R (f x)) :
    Harmless R (a >>= f) := fun s hs => by
  refine Meets.bind (ha s hs) fun x t ⟨hx, ht⟩ => ?_
  exact (hf x hx t ht.sober).mono (fun _ _ h => ⟨h.1, ht.trans h.2⟩) fun _ h => ht.trans h

/-- A result with the property is harmless. -/
theorem harmless_pure {x : α} (hx : P x) : Harmless P (pure x) :=
  fun _ hs => meets_pure ⟨hx, .refl hs⟩

/-- Looking at the store is harmless. -/
theorem harmless_get : Harmless (fun _ => True) (get : Action Store Store) :=
  fun _ hs => ⟨trivial, .refl hs⟩

/-- A change that enlarges sober stores is harmless. -/
theorem harmless_modify {g : Store → Store} (h : ∀ s : Store, s.Sober → s.Enlarges (g s)) :
    Harmless (fun _ => True) (modify g) := fun s hs => ⟨trivial, h s hs⟩

/-- Recording an event is harmless. -/
theorem harmless_log (e : Event) : Harmless (fun _ => True) (log e) :=
  harmless_modify fun _ hs => .of_lists ⟨hs.nodes, hs.getters, hs.notes⟩ rfl rfl

/-- A failure is harmless. -/
theorem harmless_fail (g : Failure) : Harmless P (fail g : Action Store α) := by
  have hthrow : Harmless P (throw g : Action Store α) := fun _ hs => Enlarges.refl hs
  unfold Store.fail
  split
  · exact (harmless_log _).bind fun _ _ => hthrow
  · exact hthrow

/-- Looking up a node is harmless, and the node is sober. -/
theorem harmless_fetch (n : NodeId) : Harmless Node.Sober (fetch n) := fun s hs => by
  unfold fetch
  refine Meets.bind (P := fun r u => s = r ∧ s = u) ⟨rfl, rfl⟩ fun r u hru => ?_
  obtain ⟨rfl, rfl⟩ := hru
  split
  · rename_i node hn
    exact meets_pure ⟨hs.node hn, .refl hs⟩
  · exact harmless_fail _ s hs

/-- Making a sober node is harmless. -/
theorem harmless_addNode {node : Node} (h : node.Sober) :
    Harmless (fun _ => True) (addNode node) := fun s hs => by
  refine ⟨trivial, .of_lists ⟨fun x hx => ?_, hs.getters, hs.notes⟩ rfl rfl⟩
  rcases List.mem_append.mp hx with hx | hx
  · exact hs.nodes x hx
  · exact List.mem_singleton.mp hx ▸ h

/-- Making a lazy node is harmless if what it makes is sober. -/
theorem harmless_addLazy {source : Source} (h : source.Sober) :
    Harmless (fun _ => True) (addLazy source) := fun s hs => by
  refine ⟨trivial, .of_lists ⟨fun x hx => ?_, fun g hg => ?_, hs.notes⟩ rfl rfl⟩
  · rcases List.mem_append.mp hx with hx | hx
    · exact hs.nodes x hx
    · rw [List.mem_singleton.mp hx]
      exact Node.sober_of_null (by simp [Node.carried, ConstraintName.all, Constraints.get]) rfl
  · rcases List.mem_append.mp hg with hg | hg
    · exact hs.getters g hg
    · rw [List.mem_singleton.mp hg]
      exact h

/-- Naming a node is harmless. -/
theorem harmless_bind (name : String) (n : NodeId) :
    Harmless (fun _ => True) (modify fun s => s.bind name n) := by
  refine harmless_modify fun s hs => ?_
  unfold Store.bind
  split <;> exact .of_lists ⟨hs.nodes, hs.getters, hs.notes⟩ rfl rfl

/-- Sober annotations are harmless. -/
theorem harmless_annotate {catalog : String} {n : NodeId} {notes : Entries} (h : notes.Sober) :
    Harmless (fun _ => True) (annotate catalog n notes) := fun s hs => by
  obtain ⟨hlarger, hnoted⟩ := detachList_sober hs h
  -- Taking the list out leaves the catalogs alone.
  have hcatalog : (s.detachList notes).1.catalog catalog = s.catalog catalog := by
    obtain ⟨more, hmore⟩ := detachList_eq s notes
    rw [hmore]
    rfl
  cases hadd : (s.catalog catalog).add n (s.detachList notes).2 with
  | error f =>
    unfold Meets
    rw [annotate_of_error hadd]
    exact harmless_fail f s hs
  | ok c =>
    unfold Meets
    rw [annotate_of_ok hadd]
    refine ⟨trivial, hlarger.sober.add hnoted (hcatalog ▸ hadd), ?_, ?_⟩
    · rw [lists_setCatalog]
      exact hlarger.lists
    · rw [archive_setCatalog]
      exact hlarger.archive

/-! ### Blueprints -/

mutual

/-- **What a sober blueprint makes is sober.** -/
theorem harmless_build (b : Blueprint) (hb : b.Sober) : Harmless (fun _ => True) (build b) := by
  -- By the shape of the blueprint.  Copies carry what their source carries, and what is changed in
  -- them is sober by hypothesis.
  match b with
  | .named name =>
    refine harmless_get.bind fun s _ => ?_
    split
    · exact harmless_pure trivial
    · exact harmless_fail _
  | .node base children =>
    exact (harmless_buildChildren children hb.2 base hb.1).bind fun node hn => harmless_addNode hn
  | .concatenation parts =>
    refine (harmless_buildParts parts hb).bind fun nodes _ => harmless_addNode ?_
    exact Node.sober_of_null (by simp [Node.carried, ConstraintName.all, Constraints.get]) rfl
  | .lazyNamed name => exact harmless_addLazy trivial
  | .lazyFresh result => exact harmless_addLazy hb
  | .lazyValue v => exact harmless_addLazy trivial
  | .lazyRaise cause => exact harmless_addLazy trivial
  | .clone source =>
    refine (harmless_build source hb).bind fun n _ => (harmless_fetch n).bind fun node hn => ?_
    exact harmless_addNode (hn.of_carried rfl rfl)
  | .constrained source changes =>
    refine (harmless_build source hb.1).bind fun n _ => (harmless_fetch n).bind fun node hn => ?_
    exact harmless_addNode (hn.constrained hb.2)
  | .annotated source notes catalog =>
    refine (harmless_build source hb.1).bind fun n _ => (harmless_fetch n).bind fun node hn => ?_
    have hclone : ({ node with parent := n } : Node).Sober := hn.of_carried rfl rfl
    refine (harmless_addNode hclone).bind fun m _ => ?_
    exact (harmless_annotate hb.2).bind fun _ _ => harmless_pure trivial
  | .lowered source lowering =>
    refine (harmless_build source hb.1).bind fun n _ => (harmless_fetch n).bind fun node hn => ?_
    exact harmless_addNode (hn.lowering hb.2.1 hb.2.2)
  | .aliased source name =>
    exact (harmless_build source hb).bind fun n _ => (harmless_bind name n).bind
      fun _ _ => harmless_pure trivial
  | .broken children cause =>
    refine (harmless_buildChildren children hb { kind := .any } ?_).bind fun _ _ => harmless_fail _
    exact Node.sober_of_null (by simp [Node.carried, ConstraintName.all, Constraints.get]) rfl

/-- Building the children of a sober node is harmless, and the node stays sober. -/
theorem harmless_buildChildren (children : List (Slot × Blueprint))
    (hc : Blueprint.SoberChildren children) (node : Node) (hn : node.Sober) :
    Harmless Node.Sober (buildChildren node children) := by
  match children with
  | [] => exact harmless_pure hn
  | (slot, child) :: rest =>
    refine (harmless_build child hc.1).bind fun n _ => ?_
    exact harmless_buildChildren rest hc.2 _ (hn.attach slot n)

/-- Building the parts of a concatenation is harmless. -/
theorem harmless_buildParts (parts : List (Sum String Blueprint))
    (hp : Blueprint.SoberParts parts) : Harmless (fun _ => True) (buildParts parts) := by
  match parts with
  | [] => exact harmless_pure trivial
  | .inl text :: rest =>
    exact (harmless_buildParts rest hp).bind fun _ _ => harmless_pure trivial
  | .inr part :: rest =>
    refine (harmless_build part hp.1).bind fun n _ => (harmless_fetch n).bind fun _ _ => ?_
    exact (harmless_buildParts rest hp.2).bind fun _ _ => harmless_pure trivial

end

/-! ### Lazy nodes and optional properties -/

/-- Asking a getter of sober nodes is harmless. -/
theorem harmless_ask {source : Source} (h : source.Sober) :
    Harmless (fun _ => True) (ask source) := by
  cases source with
  | named name =>
    refine harmless_get.bind fun s _ => ?_
    split <;> exact harmless_pure trivial
  | fresh blueprint => exact (harmless_build blueprint h).bind fun _ _ => harmless_pure trivial
  | value v => exact harmless_pure trivial
  | raises cause => exact harmless_fail _

/-- Asking a lazy node is harmless: a sober store holds sober getters alone. -/
theorem harmless_resolve (n : NodeId) : Harmless (fun _ => True) (resolve n) := fun s hs => by
  unfold resolve
  refine Meets.bind (P := fun r t => s = r ∧ s = t) ⟨rfl, rfl⟩ ?_
  rintro _ _ ⟨rfl, rfl⟩
  split
  · exact harmless_pure trivial s hs
  · refine Harmless.bind (harmless_fetch n) (fun node _ => ?_) s hs
    split
    · exact harmless_fail _
    · rename_i i source hsource
      -- The source stands in the store, which is sober.
      have hsober : source.Sober := by
        obtain ⟨j, -, hj⟩ := Option.bind_eq_some_iff.mp hsource
        obtain ⟨g, hg, he⟩ := Option.map_eq_some_iff.mp hj
        cases he
        exact hs.getters g (List.mem_of_getElem? hg)
      refine (harmless_modify fun t ht => ?_).bind fun _ _ => (harmless_ask hsober).bind fun _ _ =>
        (harmless_modify fun t ht => ?_).bind fun _ _ => harmless_pure trivial
      · refine .of_lists ⟨ht.nodes, fun g hg => ?_, ht.notes⟩ rfl rfl
        have hmem := List.mem_map_of_mem (f := (·.source)) hg
        rw [map_source_countCall] at hmem
        obtain ⟨g', hg', he⟩ := List.mem_map.mp hmem
        exact he ▸ ht.getters g' hg'
      · exact .of_lists ⟨ht.nodes, ht.getters, ht.notes⟩ rfl rfl

/-- Finding out whether a property is optional is harmless. By induction on the links that are
    followed. -/
theorem harmless_isOptionalWithin (side : Side) (links : Nat) (n : NodeId) :
    Harmless (fun _ => True) (isOptionalWithin side links n) := by
  induction links generalizing n with
  | zero => exact harmless_fail _
  | succ links ih =>
    refine (harmless_fetch n).bind fun node _ => ?_
    split
    · exact harmless_pure trivial
    · split
      · exact harmless_pure trivial
      · exact ih _
    · refine (harmless_resolve n).bind fun answer _ => ?_
      cases answer with
      | node m => exact ih m
      | value v => exact harmless_fail _

/-- **Questions.** What is asked of a sober store leaves it sober. -/
theorem harmless_requiredNames (side : Side) (shape : List (String × NodeId)) :
    Harmless (fun _ => True) (requiredNames side shape) := by
  induction shape with
  | nil => exact harmless_pure trivial
  | cons e rest ih =>
    obtain ⟨name, child⟩ := e
    refine (harmless_get.bind fun s _ => harmless_isOptionalWithin side _ child).bind fun _ _ => ?_
    exact ih.bind fun _ _ => harmless_pure trivial

end Harmless

end Store

end SchemaGraph
