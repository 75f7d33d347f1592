import SchemaGraph.Proofs.Action
import SchemaGraph.Store.Optionality

namespace SchemaGraph

open SchemaGraph.Action

/-!
# Growth of the store

While nodes are visited the store only grows: lazy nodes make new nodes, names and
annotations, but what was there stays as it was.

* `Store.Grows s t`  — `t` holds everything that `s` holds, unchanged;
* `Store.Closed s`   — every node that a node or a name refers to exists;
* `Store.Keeps s t`  — if `s` is closed, it has grown to `t` and `t` is closed;
* `Store.Makes s t`  — the same, and no lazy node has answered in between.
-/

namespace Store

/-- Everything that a store holds is there in the other one, unchanged.  Lists of
    annotations may have become longer. -/
structure Grows (s t : Store) : Prop where
  nodes : s.nodes <+: t.nodes
  resolved : ∀ {n r}, s.resolved? n = some r → t.resolved? n = some r
  notes : ∀ name {n}, (s.node? n).isSome → (t.catalog name).get? n = (s.catalog name).get? n
  lists : ∀ {k : Nat} {xs}, s.lists[k]? = some xs → ∃ ys, t.lists[k]? = some (xs ++ ys)
  archive : t.archive = s.archive

/-- Whether a child exists, if it is one. -/
def Has (s : Store) (n : NodeId) : Prop := n = .gap ∨ (s.node? n).isSome

end Store

/-- All places that a node names. -/
def Node.links (node : Node) : List NodeId :=
  [node.element, node.catchall, node.left, node.right, node.rest, node.keyType,
    node.valueType, node.inner, node.input, node.output, node.parent]
    ++ node.options ++ node.items ++ (node.shape.getD []).map (·.2)

mutual

/-- The bases of a blueprint name no places; all children are made by the blueprint. -/
def Blueprint.Rooted : Blueprint → Prop
  | .named _ => True
  | .node base children => (∀ m ∈ base.links, m = .gap) ∧ RootedChildren children
  | .concatenation parts => RootedParts parts
  | .lazyNamed _ => True
  | .lazyFresh result => result.Rooted
  | .lazyValue _ => True
  | .lazyRaise _ => True
  | .clone source => source.Rooted
  | .constrained source _ => source.Rooted
  | .annotated source _ _ => source.Rooted
  | .lowered source _ => source.Rooted
  | .aliased source _ => source.Rooted
  | .broken children _ => RootedChildren children

/-- The bases of the children of a blueprint name no places. -/
def Blueprint.RootedChildren : List (Slot × Blueprint) → Prop
  | [] => True
  | (_, child) :: rest => child.Rooted ∧ RootedChildren rest

/-- The bases of the parts of a concatenation name no places. -/
def Blueprint.RootedParts : List (Sum String Blueprint) → Prop
  | [] => True
  | .inl _ :: rest => RootedParts rest
  | .inr part :: rest => part.Rooted ∧ RootedParts rest

end

/-- The bases of what a getter makes name no places. -/
def Source.Rooted : Source → Prop
  | .fresh blueprint => blueprint.Rooted
  | _ => True

namespace Store

/-- Every node that a node or a name refers to exists, and getters make all that they
    refer to. -/
structure Closed (s : Store) : Prop where
  links : ∀ {n node}, s.node? n = some node → ∀ m ∈ node.links, s.Has m
  names : ∀ {name n}, s.named? name = some n → (s.node? n).isSome
  getters : ∀ g ∈ s.getters, g.source.Rooted

instance (s : Store) (n : NodeId) : Decidable (s.Has n) :=
  inferInstanceAs (Decidable (n = .gap ∨ (s.node? n).isSome))

/-- A store is closed if its nodes, names and getters are, one by one. -/
theorem Closed.of_forall {s : Store} (hlinks : ∀ node ∈ s.nodes, ∀ m ∈ node.links, s.Has m)
    (hnames : ∀ e ∈ s.names, (s.node? e.2).isSome)
    (hgetters : ∀ g ∈ s.getters, g.source.Rooted) : s.Closed where
  links {n node} hn := by
    cases n with
    | gap => cases hn
    | node i => exact hlinks node (List.mem_of_getElem? hn)
  names {_ n} hn := by
    obtain ⟨e, he, rfl⟩ := Option.map_eq_some_iff.mp hn
    exact hnames e (List.mem_of_find?_eq_some he)
  getters := hgetters

/-! ### Growth is a preorder -/

/-- A store holds all that it holds. -/
theorem Grows.refl (s : Store) : Grows s s where
  nodes := List.prefix_refl _
  resolved h := h
  notes _ _ _ := rfl
  lists {_ xs} h := ⟨[], by rw [List.append_nil]; exact h⟩
  archive := rfl

/-- A node is found in every store that has grown out of its own, unchanged. -/
theorem Grows.node? {s t : Store} (h : Grows s t) {n : NodeId} {node : Node}
    (hn : s.node? n = some node) : t.node? n = some node := by
  cases n with
  | gap => simp [Store.node?] at hn
  | node i =>
    obtain ⟨more, hmore⟩ := h.nodes
    simp only [Store.node?] at hn ⊢
    rw [← hmore, List.getElem?_append_left (List.getElem?_eq_some_iff.mp hn).1]
    exact hn

/-- A node that exists goes on existing. -/
theorem Grows.isSome {s t : Store} (h : Grows s t) {n : NodeId}
    (hn : (s.node? n).isSome) : (t.node? n).isSome := by
  obtain ⟨node, hnode⟩ := Option.isSome_iff_exists.mp hn
  rw [h.node? hnode]; rfl

/-- Growth goes on from one store to the next. -/
theorem Grows.trans {s t u : Store} (h₁ : Grows s t) (h₂ : Grows t u) : Grows s u where
  nodes := h₁.nodes.trans h₂.nodes
  resolved h := h₂.resolved (h₁.resolved h)
  notes name _ hn := (h₂.notes name (h₁.isSome hn)).trans (h₁.notes name hn)
  lists h := by
    obtain ⟨ys, hys⟩ := h₁.lists h
    obtain ⟨zs, hzs⟩ := h₂.lists hys
    exact ⟨ys ++ zs, by rw [hzs, List.append_assoc]⟩
  archive := h₂.archive.trans h₁.archive

/-- A child that exists, or is none, stays so. -/
theorem Grows.has {s t : Store} (h : Grows s t) {n : NodeId} (hn : s.Has n) : t.Has n :=
  hn.imp id h.isSome

/-- A closed store that has grown out of another one without an answer of a lazy node. -/
structure Kept (s t : Store) : Prop where
  grows : Grows s t
  closed : t.Closed
  resolved : t.resolved = s.resolved

/-- A closed store is kept as it is. -/
theorem Kept.refl {s : Store} (hs : s.Closed) : Kept s s := ⟨.refl s, hs, rfl⟩

/-- Being kept goes on from one store to the next. -/
theorem Kept.trans {s t u : Store} (h₁ : Kept s t) (h₂ : Kept t u) : Kept s u :=
  ⟨h₁.grows.trans h₂.grows, h₂.closed, h₂.resolved.trans h₁.resolved⟩

/-- A change by which a closed store grows and stays closed; no lazy node answers. -/
def Makes (s t : Store) : Prop := s.Closed → Kept s t

/-- A store that does not change stays closed. -/
theorem Makes.refl (s : Store) : Makes s s := fun hs => .refl hs

/-- Changes without answers may follow each other. -/
theorem Makes.trans {s t u : Store} (h₁ : Makes s t) (h₂ : Makes t u) : Makes s u :=
  fun hs => (h₁ hs).trans (h₂ (h₁ hs).closed)

/-- A kept store stays kept through a change without an answer. -/
theorem Kept.step {s t u : Store} (h : Kept s t) (hk : Makes t u) : Kept s u :=
  h.trans (hk h.closed)

instance : Std.Refl Makes := ⟨Makes.refl⟩

instance : Trans Makes Makes Makes := ⟨Makes.trans⟩

/-- A change by which a closed store grows and stays closed. -/
def Keeps (s t : Store) : Prop := s.Closed → Grows s t ∧ t.Closed

/-- A store that does not change keeps closed. -/
theorem Keeps.refl (s : Store) : Keeps s s := fun hs => ⟨.refl s, hs⟩

/-- Changes that keep a store closed may follow each other. -/
theorem Keeps.trans {s t u : Store} (h₁ : Keeps s t) (h₂ : Keeps t u) : Keeps s u :=
  fun hs => ⟨(h₁ hs).1.trans (h₂ (h₁ hs).2).1, (h₂ (h₁ hs).2).2⟩

instance : Std.Refl Keeps := ⟨Keeps.refl⟩

instance : Trans Keeps Keeps Keeps := ⟨Keeps.trans⟩

/-- A change without an answer keeps a store closed. -/
theorem Makes.keeps {s t : Store} (h : Makes s t) : Keeps s t :=
  fun hs => ⟨(h hs).grows, (h hs).closed⟩

/-! ### Changes that touch one part of the store -/

/-- A change that leaves nodes, names, answers, annotations, lists and the archive alone. -/
theorem makes_of_eq {s t : Store} (hn : t.nodes = s.nodes) (hm : t.names = s.names)
    (hr : t.resolved = s.resolved) (hc : t.catalogs = s.catalogs) (hl : t.lists = s.lists)
    (ha : t.archive = s.archive) (hg : t.getters.map (·.source) = s.getters.map (·.source)) :
    Makes s t := by
  have hnode : ∀ n, t.node? n = s.node? n := fun n => by cases n <;> simp [Store.node?, hn]
  refine fun h => ⟨⟨hn ▸ List.prefix_refl _, ?_, ?_, ?_, ha⟩, ⟨?_, ?_, ?_⟩, hr⟩
  · intro n r h; simpa [Store.resolved?, hr] using h
  · intro name n _; simp [Store.catalog, hc]
  · intro k xs h; exact ⟨[], by rw [hl, List.append_nil]; exact h⟩
  · intro n node hnd m hm
    rw [hnode] at hnd
    simpa [Has, hnode] using h.links hnd m hm
  · intro name n h'
    rw [hnode]
    exact h.names (by simpa [Store.named?, hm] using h')
  · intro g hgt
    have hmem : g.source ∈ s.getters.map (·.source) := hg ▸ List.mem_map_of_mem hgt
    obtain ⟨g', hg', he⟩ := List.mem_map.mp hmem
    exact he ▸ h.getters g' hg'

/-- An event changes no node. -/
theorem record_makes (s : Store) (e : Event) : Makes s (s.record e) :=
  makes_of_eq rfl rfl rfl rfl rfl rfl rfl

/-- Counting a call leaves what the getters make. -/
theorem map_source_countCall (s : Store) (i : Nat) :
    (s.countCall i).getters.map (·.source) = s.getters.map (·.source) := by
  refine List.ext_getElem? fun k => ?_
  simp only [countCall, List.getElem?_map, List.getElem?_modify]
  split <;> cases s.getters[k]? <;> rfl

/-- Counting a call changes no node. -/
theorem countCall_makes (s : Store) (i : Nat) : Makes s (s.countCall i) :=
  makes_of_eq rfl rfl rfl rfl rfl rfl (map_source_countCall s i)

/-- A node that exists is found when another one is made. -/
@[simp] theorem node?_push_of_isSome (s : Store) (node : Node) {n : NodeId}
    (hn : (s.node? n).isSome) : (s.push node).node? n = s.node? n := by
  cases n with
  | gap => rfl
  | node i =>
    obtain ⟨x, hx⟩ := Option.isSome_iff_exists.mp hn
    simp only [Store.node?, push] at hx ⊢
    rw [List.getElem?_append_left (List.getElem?_eq_some_iff.mp hx).1]

/-- The node that is made is found at the next place. -/
@[simp] theorem node?_push_nextId (s : Store) (node : Node) :
    (s.push node).node? s.nextId = some node := by
  simp [Store.node?, push, nextId]

/-- A node of the longer store is the new one or was there before. -/
theorem node?_push_eq_some {s : Store} {node x : Node} {n : NodeId}
    (h : (s.push node).node? n = some x) : (n = s.nextId ∧ x = node) ∨ s.node? n = some x := by
  cases n with
  | gap => simp [Store.node?] at h
  | node i =>
    simp only [Store.node?, push] at h
    by_cases hi : i < s.nodes.length
    · rw [List.getElem?_append_left hi] at h
      exact .inr h
    · rw [List.getElem?_append_right (by omega)] at h
      obtain ⟨hlt, hx⟩ := List.getElem?_eq_some_iff.mp h
      simp only [List.length_singleton] at hlt
      have hi' : i = s.nodes.length := by omega
      subst hi'
      simp at hx
      exact .inl ⟨rfl, hx.symm⟩

/-- A store grows by a node that is made. -/
theorem push_grows (s : Store) (node : Node) : Grows s (s.push node) := by
  refine ⟨⟨[node], rfl⟩, fun h => h, fun _ _ _ => rfl, fun h => ⟨[], ?_⟩, rfl⟩
  rw [List.append_nil]; exact h

/-- One more node whose children exist. -/
theorem push_closed {s : Store} (h : s.Closed) {node : Node} (hl : ∀ m ∈ node.links, s.Has m) :
    (s.push node).Closed := by
  refine ⟨?_, ?_, h.getters⟩
  · intro n x hx m hm
    rcases node?_push_eq_some hx with ⟨-, rfl⟩ | hx
    · exact (push_grows s _).has (hl m hm)
    · exact (push_grows s _).has (h.links hx m hm)
  · intro name n hn
    exact (push_grows s _).isSome (h.names hn)

/-- An entry replaced where it stands is found where the former one was. -/
theorem find?_replaced {α : Type} (name other : String) (x : α) (entries : List (String × α)) :
    ((entries.map fun e => if e.1 = name then (name, x) else e).find? fun e => e.1 = other)
      = (entries.find? fun e => e.1 = other).map
          fun e => if e.1 = name then (name, x) else e := by
  induction entries with
  | nil => rfl
  | cons e rest ih =>
    rw [List.map_cons, List.find?_cons, List.find?_cons, ih]
    by_cases hname : e.1 = name
    · rw [if_pos hname, hname]
      by_cases hother : name = other <;> simp [hother, hname]
    · rw [if_neg hname]
      by_cases hother : e.1 = other <;> simp [hother]
      exact fun h => absurd (hother.trans h) hname

/-- Naming a node changes none. -/
theorem node?_bind (s : Store) (name : String) (n m : NodeId) :
    (s.bind name n).node? m = s.node? m := by
  unfold bind
  split <;> cases m <;> rfl

/-- A node that bears a name behind a naming is the one named or bore it before. -/
theorem named?_bind {s : Store} {name other : String} {n m : NodeId}
    (h : (s.bind name n).named? other = some m) : m = n ∨ s.named? other = some m := by
  unfold bind at h
  split at h
  · simp only [named?, find?_replaced, Option.map_map, Option.map_eq_some_iff] at h
    obtain ⟨e, he, hem⟩ := h
    simp only [Function.comp_apply] at hem
    split at hem
    · exact .inl hem.symm
    · exact .inr (Option.map_eq_some_iff.mpr ⟨e, he, hem⟩)
  · simp only [named?, List.find?_append, Option.map_eq_some_iff] at h
    obtain ⟨e, he, hem⟩ := h
    rcases Option.or_eq_some_iff.mp he with hold | ⟨-, hnew⟩
    · exact .inr (Option.map_eq_some_iff.mpr ⟨e, hold, hem⟩)
    · simp only [List.find?_singleton] at hnew
      split at hnew <;> simp only [Option.some.injEq, reduceCtorEq] at hnew
      exact .inl (hem.symm.trans (congrArg (·.2) hnew.symm))

/-- A store grows by a name. -/
theorem bind_grows (s : Store) (name : String) (n : NodeId) : Grows s (s.bind name n) := by
  refine ⟨?_, fun {m r} h => ?_, fun c m _ => ?_, fun {k xs} h => ⟨[], ?_⟩, ?_⟩
    <;> unfold bind <;> split <;> simp_all [resolved?, catalog]

/-- A name for a node that exists. -/
theorem bind_closed {s : Store} (h : s.Closed) {name : String} {n : NodeId}
    (hn : (s.node? n).isSome) : (s.bind name n).Closed := by
  refine ⟨?_, ?_, ?_⟩
  · intro m x hx k hk
    rw [node?_bind] at hx
    exact (bind_grows s name n).has (h.links hx k hk)
  · intro other m hm
    rw [node?_bind]
    rcases named?_bind hm with rfl | hold
    · exact hn
    · exact h.names hold
  · unfold bind
    split <;> exact h.getters

/-! ### Annotations -/

/-- A catalog that is replaced makes no difference to the others. -/
theorem catalog_setCatalog_of_ne {name other : String} (h : other ≠ name) (s : Store)
    (c : Catalog) : (s.setCatalog name c).catalog other = s.catalog other := by
  unfold setCatalog catalog
  split
  · simp only [find?_replaced, Option.map_map]
    congr 1
    refine Option.map_congr fun e he => ?_
    have : e.1 = other := by simpa using List.find?_some he
    simp [this, h]
  · simp [List.find?_append, h.symm]

/-- A catalog that is replaced is found. -/
theorem catalog_setCatalog_self (name : String) (s : Store) (c : Catalog) :
    (s.setCatalog name c).catalog name = c := by
  unfold setCatalog catalog
  split
  · rename_i hany
    have hfound : (s.catalogs.find? fun e => decide (e.1 = name)).isSome := by
      rw [List.find?_isSome]
      exact List.any_eq_true.mp hany
    obtain ⟨e, he⟩ := Option.isSome_iff_exists.mp hfound
    have hname : e.1 = name := by simpa using List.find?_some he
    simp only [find?_replaced, he, Option.map_some, hname, if_true, Option.getD_some]
  · rename_i hany
    have hnone : s.catalogs.find? (fun e => decide (e.1 = name)) = none := by
      rw [List.find?_eq_none]
      intro e he hname
      exact hany (List.any_eq_true.mpr ⟨e, he, hname⟩)
    simp [List.find?_append, hnone]

/-- The annotation of a node leaves those of other nodes alone. -/
theorem get?_add {c c' : Catalog} {n m : NodeId} {notes : Entries}
    (h : c.add n notes = .ok c') (hm : m ≠ n) : c'.get? m = c.get? m := by
  unfold Catalog.add at h
  dsimp only at h
  split at h
  · cases h
  · split at h
    · cases h
    · cases h
      exact Catalog.find?_put_of_ne hm _ _

/-- Keeping the list of an annotation apart adds at most one list. -/
theorem detachList_eq (s : Store) (notes : Entries) :
    ∃ more, (s.detachList notes).1 = { s with lists := s.lists ++ more } := by
  unfold detachList
  split
  · exact ⟨[_], rfl⟩
  · exact ⟨[_], rfl⟩
  · exact ⟨[], by rw [List.append_nil]⟩

section setCatalog

variable (s : Store) (name : String) (c : Catalog)

/-- Replacing a catalog leaves the nodes. -/
@[simp] theorem nodes_setCatalog : (s.setCatalog name c).nodes = s.nodes := by
  unfold setCatalog; split <;> rfl

/-- Replacing a catalog leaves the names. -/
@[simp] theorem names_setCatalog : (s.setCatalog name c).names = s.names := by
  unfold setCatalog; split <;> rfl

/-- Replacing a catalog leaves the answers of lazy nodes. -/
@[simp] theorem resolved_setCatalog : (s.setCatalog name c).resolved = s.resolved := by
  unfold setCatalog; split <;> rfl

/-- Replacing a catalog leaves the lists of annotations. -/
@[simp] theorem lists_setCatalog : (s.setCatalog name c).lists = s.lists := by
  unfold setCatalog; split <;> rfl

/-- Replacing a catalog leaves the getters. -/
@[simp] theorem getters_setCatalog : (s.setCatalog name c).getters = s.getters := by
  unfold setCatalog; split <;> rfl

/-- Replacing a catalog leaves the fragments of surveys that are over. -/
@[simp] theorem archive_setCatalog : (s.setCatalog name c).archive = s.archive := by
  unfold setCatalog; split <;> rfl

/-- Replacing a catalog leaves every single node. -/
@[simp] theorem node?_setCatalog (n : NodeId) : (s.setCatalog name c).node? n = s.node? n := by
  cases n <;> simp [node?]

end setCatalog

/-- One more list, and one more annotation of a node that is new. -/
theorem Kept.annotated {s t : Store} {name : String} {n : NodeId} {kept : Entries}
    {c : Catalog} (more : List (List Value)) (h : Kept s t) (hn : s.node? n = none)
    (hadd : (t.catalog name).add n kept = .ok c) :
    Kept s ({ t with lists := t.lists ++ more }.setCatalog name c) := by
  have hnode : ∀ m, ({ t with lists := t.lists ++ more } : Store).node? m = t.node? m :=
    fun m => by cases m <;> rfl
  refine ⟨⟨by simpa using h.grows.nodes, ?_, ?_, ?_, by simpa using h.grows.archive⟩,
    ⟨?_, ?_, by simpa using h.closed.getters⟩, by simpa using h.resolved⟩
  · intro m r hm
    simpa [resolved?] using h.grows.resolved hm
  · intro other m hm
    rw [← h.grows.notes other hm]
    -- Only the notes of the new node differ, and it was no node before.
    by_cases hname : other = name
    · subst hname
      rw [catalog_setCatalog_self]
      refine get?_add hadd ?_
      rintro rfl
      rw [hn] at hm
      cases hm
    · rw [catalog_setCatalog_of_ne hname]
      rfl
  · intro k xs hk
    obtain ⟨ys, hys⟩ := h.grows.lists hk
    refine ⟨ys, ?_⟩
    rw [lists_setCatalog, List.getElem?_append_left (List.getElem?_eq_some_iff.mp hys).1, hys]
  · intro m x hx k hk
    rw [node?_setCatalog, hnode] at hx
    simpa [Has, hnode] using h.closed.links hx k hk
  · intro other m hm
    rw [node?_setCatalog, hnode]
    exact h.closed.names (by simpa [named?] using hm)

/-! ### Actions -/

/-- Recording an event keeps a store closed. -/
theorem log_makes (e : Event) : Within Makes (log e) := fun s => record_makes s e

/-- A failure keeps a store closed. -/
theorem fail_makes {α : Type} (f : Failure) : Within Makes (fail f : Action Store α) := by
  unfold fail
  split
  · exact .bind (log_makes _) fun _ => within_throw f
  · exact within_throw f

/-- A failure does not return. -/
theorem not_returns_fail {α : Type} {f : Failure} {s t : Store} {x : α} :
    ¬ Returns (fail f : Action Store α) s x t := by
  unfold fail
  split
  · intro h
    obtain ⟨_, _, -, h⟩ := returns_bind.mp h
    exact not_returns_throw h
  · exact not_returns_throw

/-- A fetch that returns finds the node and changes nothing. -/
@[simp] theorem returns_fetch {n : NodeId} {s t : Store} {node : Node} :
    Returns (fetch n) s node t ↔ s.node? n = some node ∧ t = s := by
  unfold fetch
  simp only [returns_bind, returns_get]
  constructor
  · rintro ⟨_, _, ⟨rfl, rfl⟩, h⟩
    split at h
    · rename_i hn
      obtain ⟨rfl, rfl⟩ := returns_pure.mp h
      exact ⟨hn, rfl⟩
    · exact absurd h not_returns_fail
  · rintro ⟨hn, rfl⟩
    exact ⟨_, _, ⟨rfl, rfl⟩, by rw [hn]; exact returns_pure.mpr ⟨rfl, rfl⟩⟩

/-- An annotation that the catalog takes is kept there. -/
theorem annotate_of_ok {s : Store} {catalog : String} {n : NodeId} {notes : Entries} {c : Catalog}
    (h : (s.catalog catalog).add n (s.detachList notes).2 = .ok c) :
    annotate catalog n notes s = (.ok (), (s.detachList notes).1.setCatalog catalog c) := by
  unfold annotate
  simp only [run_bind, run_get, h, run_set]

/-- For an annotation that the catalog does not take, the action fails. -/
theorem annotate_of_error {s : Store} {catalog : String} {n : NodeId} {notes : Entries}
    {f : Failure} (h : (s.catalog catalog).add n (s.detachList notes).2 = .error f) :
    annotate catalog n notes s = fail f s := by
  unfold annotate
  simp only [run_bind, run_get, h]

/-- Looking up a node keeps a store closed. -/
theorem fetch_makes (n : NodeId) : Within Makes (fetch n) := by
  unfold fetch
  refine .bind within_get fun s => ?_
  split
  · exact within_pure _
  · exact fail_makes _

end Store

end SchemaGraph
