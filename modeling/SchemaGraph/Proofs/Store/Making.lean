import SchemaGraph.Proofs.Store.Growth

namespace SchemaGraph

open SchemaGraph.Action

/-!
# What blueprints make

Making a node adds nodes behind those that are there, each after the nodes that it is made
of, so that a closed store stays closed.  That holds up to the point where the making fails,
if it does.

* `Store.build_meets`   — what a blueprint makes exists
* `Store.ask_makes`     — what a getter answers leaves the store closed
-/

namespace Store

/-- The store has grown, and the place exists. -/
def Made (s : Store) (n : NodeId) (t : Store) : Prop := Kept s t ∧ (t.node? n).isSome

/-- All that a node names exists. -/
def Covers (s : Store) (node : Node) : Prop := ∀ m ∈ node.links, s.Has m

/-- The children of a node are still there when the store has grown. -/
theorem Covers.mono {s t : Store} {node : Node} (h : Covers s node) (hg : Grows s t) :
    Covers t node := fun m hm => hg.has (h m hm)

/-- A node that names what another one names, and a place that exists. -/
theorem Covers.of_subset {s : Store} {node node' : Node} {n : NodeId} (h : Covers s node)
    (hn : s.Has n) (hl : ∀ m ∈ node'.links, m ∈ node.links ∨ m = n) : Covers s node' := by
  intro m hm
  rcases hl m hm with hm | rfl
  · exact h m hm
  · exact hn

/-- A gap is there in every store. -/
theorem has_gap (s : Store) : s.Has .gap := .inl rfl

/-! ### Single nodes -/

/-- A node whose children are there may be added. -/
theorem addNode_meets {s t : Store} {node : Node} (hk : Kept s t) (hc : Covers t node) :
    Meets (addNode node) t (Made s) (Kept s) := by
  show Made s t.nextId (t.push node)
  exact ⟨hk.trans ⟨push_grows t node, push_closed hk.closed hc, rfl⟩,
    by rw [node?_push_nextId]; rfl⟩

/-- A failure keeps what was kept. -/
theorem fail_meets {α : Type} {s t : Store} (hk : Kept s t) (f : Failure)
    {Q : α → Store → Prop} : Meets (fail f : Action Store α) t Q (Kept s) :=
  ((fail_makes f).meets fun _ _ h => absurd h not_returns_fail).mono (fun _ _ h => h)
    fun _ h => hk.step h

/-- One more getter. -/
theorem getter_makes {s : Store} {g : Getter} (hr : g.source.Rooted) :
    Makes s { s with getters := s.getters ++ [g] } := by
  have hnode : ∀ n, ({ s with getters := s.getters ++ [g] } : Store).node? n = s.node? n :=
    fun n => by cases n <;> rfl
  refine fun hs => ⟨⟨List.prefix_refl _, id, fun _ _ _ => rfl, fun h => ⟨[], ?_⟩, rfl⟩,
    ⟨?_, ?_, ?_⟩, rfl⟩
  · rw [List.append_nil]; exact h
  · intro n node hn m hm
    rw [hnode] at hn
    simpa [Has, hnode] using hs.links hn m hm
  · intro name n hn
    rw [hnode]
    exact hs.names hn
  · intro g' hg'
    rcases List.mem_append.mp hg' with hold | hnew
    · exact hs.getters g' hold
    · rw [List.mem_singleton.mp hnew]; exact hr

/-- A getter that makes whole nodes may be added. -/
theorem addLazy_meets {s : Store} (hs : s.Closed) {source : Source} (hr : source.Rooted) :
    Meets (addLazy source) s (Made s) (Kept s) := by
  have hlinks : Covers s { kind := .lazy, getter := some s.getters.length } := by
    intro m hm
    simp only [Node.links, Option.getD_none, List.map_nil, List.append_nil, List.mem_cons,
      List.not_mem_nil, or_false, or_self] at hm
    exact hm ▸ has_gap s
  have hg : (Getter.mk s.nextId source 0).source.Rooted := hr
  have hk : Kept s (s.push { kind := .lazy, getter := some s.getters.length }) :=
    ⟨push_grows s _, push_closed hs hlinks, rfl⟩
  refine ⟨hk.step (getter_makes hg), ?_⟩
  show (Store.node? _ s.nextId).isSome
  simp [node?, nextId]

/-- A property that is put adds at most its child to a shape. -/
theorem mem_putProperty {name : String} {child m : NodeId} {shape : List (String × NodeId)}
    (h : m ∈ (SchemaGraph.putProperty name child shape).map (·.2)) :
    m ∈ shape.map (·.2) ∨ m = child := by
  induction shape with
  | nil => simpa [SchemaGraph.putProperty] using h
  | cons e rest ih =>
    obtain ⟨k, c⟩ := e
    unfold SchemaGraph.putProperty at h
    split at h
    · rcases List.mem_cons.mp h with rfl | h
      · exact .inr rfl
      · exact .inl (List.mem_cons_of_mem _ h)
    · rcases List.mem_cons.mp h with rfl | h
      · exact .inl (List.mem_cons_self ..)
      · exact (ih h).imp (List.mem_cons_of_mem _) id

/-- A node with one more child names that child besides its own. -/
theorem mem_links_attach {node : Node} {slot : Slot} {child m : NodeId}
    (h : m ∈ (node.attach slot child).links) : m ∈ node.links ∨ m = child := by
  cases slot with
  | property name =>
    simp only [Node.attach, Node.links, List.mem_append, Option.getD_some] at h ⊢
    rcases h with h | h
    · exact .inl (.inl h)
    · exact (mem_putProperty h).imp .inr id
  | option | item =>
    simp only [Node.attach, Node.links, List.mem_append, List.mem_singleton] at h ⊢
    grind
  | _ =>
    simp only [Node.attach, Node.links, List.mem_append, List.mem_cons] at h ⊢
    grind


/-- The node of a place that was made, and what is done with it. -/
theorem fetched_meets {α : Type} {f : Node → Action Store α} {s t : Store} {n : NodeId}
    {Q : α → Store → Prop} (ht : Made s n t)
    (hf : ∀ node, t.node? n = some node → Covers t node → Meets (f node) t Q (Kept s)) :
    Meets (fetch n >>= f) t Q (Kept s) := by
  refine Meets.bind (P := fun node u => t.node? n = some node ∧ u = t) ?_ fun node u hu => ?_
  · exact ((fetch_makes n).meets fun _ _ h => returns_fetch.mp h).mono (fun _ _ h => h)
      fun _ h => ht.1.step h
  · obtain ⟨hn, rfl⟩ := hu
    exact hf node hn (ht.1.closed.links hn)

/-- A place that comes next is new to every store that this one has grown out of. -/
theorem Grows.fresh {s t : Store} (h : Grows s t) : s.node? t.nextId = none := by
  have hle := h.nodes.length_le
  simp [Store.node?, nextId, hle]

/-- The annotation of a node that is new. -/
theorem annotate_meets {s t : Store} {catalog : String} {n : NodeId} {notes : Entries}
    (hk : Kept s t) (hn : s.node? n = none) :
    Meets (annotate catalog n notes) t
      (fun _ u => Kept s u ∧ ∀ m, u.node? m = t.node? m) (Kept s) := by
  obtain ⟨more, hmore⟩ := detachList_eq t notes
  unfold annotate
  refine Meets.bind (P := fun r u => t = r ∧ t = u) ⟨rfl, rfl⟩ fun r u hru => ?_
  obtain ⟨rfl, rfl⟩ := hru
  dsimp only
  split
  · rename_i c hc
    refine meets_set ⟨?_, fun m => ?_⟩
    · rw [hmore]
      exact hk.annotated more hn hc
    · rw [node?_setCatalog, hmore]
      cases m <;> rfl
  · exact fail_meets hk _

/-! ### Blueprints -/

mutual

/-- **What a blueprint makes exists**, and the store stays closed. -/
theorem build_meets (b : Blueprint) (hb : b.Rooted) {s : Store} (hs : s.Closed) :
    Meets (build b) s (Made s) (Kept s) := by
  match b with
  | .named name =>
    unfold build
    show Meets (match s.named? name with | some n => pure n | none => fail _) s _ _
    cases h : s.named? name with
    | some n => exact meets_pure ⟨.refl hs, hs.names h⟩
    | none => exact fail_meets (.refl hs) _
  | .node base children =>
    unfold build
    refine (buildChildren_meets children hb.2 base (.refl hs) fun m hm => ?_).bind
      fun node t ht => addNode_meets ht.1 ht.2
    exact hb.1 m hm ▸ has_gap s
  | .concatenation parts =>
    unfold build
    refine (buildParts_meets parts hb hs).bind fun nodes t ht => addNode_meets ht fun m hm => ?_
    simp only [Node.links, Option.getD_none, List.map_nil, List.append_nil, List.mem_cons,
      List.not_mem_nil, or_false, or_self] at hm
    exact hm ▸ has_gap t
  | .lazyNamed name => exact addLazy_meets hs trivial
  | .lazyFresh result => exact addLazy_meets hs hb
  | .lazyValue v => exact addLazy_meets hs trivial
  | .lazyRaise cause => exact addLazy_meets hs trivial
  | .clone source =>
    unfold build
    refine (build_meets source hb hs).bind fun n t ht => fetched_meets ht fun node hn hc => ?_
    refine addNode_meets ht.1 (hc.of_subset (.inr ht.2) fun m hm => ?_)
    simp only [Node.links, List.mem_append, List.mem_cons] at hm ⊢
    grind
  | .constrained source changes =>
    unfold build
    refine (build_meets source hb hs).bind fun n t ht => fetched_meets ht fun node hn hc => ?_
    refine addNode_meets ht.1 (hc.of_subset (has_gap t) fun m hm => ?_)
    simp only [Node.links, List.mem_append, List.mem_cons] at hm ⊢
    grind
  | .annotated source notes catalog =>
    unfold build
    refine (build_meets source hb hs).bind fun n t ht => fetched_meets ht fun node hn hc => ?_
    have hlinks : Covers t { node with parent := n } := by
      refine hc.of_subset (.inr ht.2) fun m hm => ?_
      simp only [Node.links, List.mem_append, List.mem_cons] at hm ⊢
      grind
    obtain ⟨hku, hmade⟩ := addNode_meets ht.1 hlinks
    -- the annotated clone is newer than all that was there at the beginning
    refine (annotate_meets hku ht.1.grows.fresh).bind fun _ u hu => ?_
    exact meets_pure ⟨hu.1, by rw [hu.2]; exact hmade⟩
  | .lowered source lowering =>
    unfold build
    refine (build_meets source hb hs).bind fun n t ht => fetched_meets ht fun node hn hc => ?_
    refine addNode_meets ht.1 (hc.of_subset (has_gap t) fun m hm => ?_)
    simp only [Node.links, List.mem_append, List.mem_cons] at hm ⊢
    grind
  | .aliased source name =>
    unfold build
    refine (build_meets source hb hs).bind fun n t ht => ?_
    show Made s n (t.bind name n)
    exact ⟨ht.1.trans ⟨bind_grows t name n, bind_closed ht.1.closed ht.2, by
        unfold bind; split <;> rfl⟩,
      by rw [node?_bind]; exact ht.2⟩
  | .broken children cause =>
    unfold build
    refine (buildChildren_meets children hb { kind := .any } (.refl hs) fun m hm => ?_).bind
      fun node t ht => fail_meets ht.1 cause
    simp only [Node.links, Option.getD_none, List.map_nil, List.append_nil, List.mem_cons,
      List.not_mem_nil, or_false, or_self] at hm
    exact hm ▸ has_gap s

/-- The children of a node exist when they are in their slots. -/
theorem buildChildren_meets (children : List (Slot × Blueprint))
    (hc : Blueprint.RootedChildren children) {s t : Store} (node : Node) (hk : Kept s t)
    (hn : Covers t node) :
    Meets (buildChildren node children) t (fun node' u => Kept s u ∧ Covers u node')
      (Kept s) := by
  match children with
  | [] => exact meets_pure ⟨hk, hn⟩
  | (slot, child) :: rest =>
    unfold buildChildren
    refine ((build_meets child hc.1 hk.closed).mono (fun _ _ h => h)
      fun _ h => hk.trans h).bind fun n u hu => ?_
    refine buildChildren_meets rest hc.2 _ (hk.trans hu.1) ?_
    exact (hn.mono hu.1.grows).of_subset (.inr hu.2) fun m => mem_links_attach

/-- The nodes among the parts of a concatenation leave the store closed. -/
theorem buildParts_meets (parts : List (Sum String Blueprint))
    (hp : Blueprint.RootedParts parts) {s : Store} (hs : s.Closed) :
    Meets (buildParts parts) s (fun _ t => Kept s t) (Kept s) := by
  match parts with
  | [] => exact meets_pure (.refl hs)
  | .inl text :: rest =>
    unfold buildParts
    exact (buildParts_meets rest hp hs).bind fun more t ht => meets_pure ht
  | .inr part :: rest =>
    unfold buildParts
    refine (build_meets part hp.1 hs).bind fun n t ht => fetched_meets ht fun node _ _ => ?_
    refine ((buildParts_meets rest hp.2 ht.1.closed).mono (fun _ _ h => ht.1.trans h)
      fun _ h => ht.1.trans h).bind fun more u hu => meets_pure hu

end

/-! ### Getters -/

/-- What a getter answers leaves the store closed, up to a failure. -/
theorem ask_makes {source : Source} (hr : source.Rooted) : Within Makes (ask source) := by
  intro s hs
  refine Meets.state (P := Kept s) ?_
  cases source with
  | named name =>
    show Meets (match s.named? name with
      | some n => pure (Resolved.node n)
      | none => pure (Resolved.value .null)) s _ _
    split <;> exact meets_pure (.refl hs)
  | fresh blueprint => exact (build_meets blueprint hr hs).bind fun n t ht => meets_pure ht.1
  | value v => exact meets_pure (.refl hs)
  | raises cause => exact fail_meets (.refl hs) _

end Store

end SchemaGraph
