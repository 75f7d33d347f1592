import SchemaGraph.Proofs.Survey.Cycles

namespace SchemaGraph

open SchemaGraph.Action

/-!
# The order of visits

A descent from a root visits what the root leads to, each node once: depth first, and below a node
in the order in which the node declares what it leads to.  How often a node was reached is how often
the visited nodes lead to it, and once more for the root.

* `DepthFirst`                  — going through nodes depth first
* `Store.children`              — the nodes that a node leads to, in the order of its declaration
* `Conversion.Walks`            — a part of a descent as a walk over given nodes
* `Converter.process_preorder`  — what is visited, in which order, and how often
-/

/-! ### Depth first -/

/-- Going depth first through nodes, behind those that were seen.  A node that was seen is passed
    over; another one is entered, and what it leads to comes next. -/
inductive DepthFirst {α : Type} (next : α → List α) : List α → List α → List α → Prop
  | done (seen : List α) : DepthFirst next seen [] seen
  | again {seen rest out : List α} {n : α} (hn : n ∈ seen) (h : DepthFirst next seen rest out) :
      DepthFirst next seen (n :: rest) out
  | enter {seen below rest out : List α} {n : α} (hn : n ∉ seen)
      (hbelow : DepthFirst next (seen ++ [n]) (next n) below) (h : DepthFirst next below rest out) :
      DepthFirst next seen (n :: rest) out

namespace DepthFirst

variable {α : Type} {next : α → List α} {seen mid out ns ms : List α} {n m root : α}

/-- Depth first over some nodes and then over others is depth first over all of them. -/
theorem append (h₁ : DepthFirst next seen ns mid) (h₂ : DepthFirst next mid ms out) :
    DepthFirst next seen (ns ++ ms) out := by
  induction h₁ with
  | done seen => exact h₂
  | again hn _ ih => exact .again hn (ih h₂)
  | enter hn hbelow _ _ ih => exact .enter hn hbelow (ih h₂)

/-- What was seen stays in front. -/
theorem isPrefix (h : DepthFirst next seen ns out) : seen <+: out := by
  induction h with
  | done seen => exact List.prefix_refl seen
  | again _ _ ih => exact ih
  | enter _ _ _ ihbelow ih => exact ((List.prefix_append _ _).trans ihbelow).trans ih

/-- No node is entered twice. -/
theorem nodup (h : DepthFirst next seen ns out) (hseen : seen.Nodup) : out.Nodup := by
  induction h with
  | done seen => exact hseen
  | again _ _ ih => exact ih hseen
  | enter hn _ _ ihbelow ih =>
    refine ih (ihbelow (List.nodup_append.mpr ⟨hseen, by simp, ?_⟩))
    rintro a ha b hb rfl
    exact hn (List.mem_singleton.mp hb ▸ ha)

/-- There is one way to go. -/
theorem unique (h : DepthFirst next seen ns out) (h' : DepthFirst next seen ns ms) : out = ms := by
  induction h generalizing ms with
  | done seen =>
    cases h'
    rfl
  | again hn _ ih =>
    cases h' with
    | again _ h' => exact ih h'
    | enter hn' => exact absurd hn hn'
  | enter hn _ _ ihbelow ih =>
    cases h' with
    | again hn' => exact absurd hn' hn
    | enter _ hbelow h' =>
      obtain rfl := ihbelow hbelow
      exact ih h'

/-- All nodes that were to be gone through are seen. -/
theorem covers (h : DepthFirst next seen ns out) : ∀ n ∈ ns, n ∈ out := by
  induction h with
  | done seen => nofun
  | again hn h ih => exact List.forall_mem_cons.mpr ⟨h.isPrefix.subset hn, ih⟩
  | enter _ hbelow h _ ih =>
    refine List.forall_mem_cons.mpr ⟨h.isPrefix.subset (hbelow.isPrefix.subset ?_), ih⟩
    exact List.mem_append_right _ (List.mem_singleton_self _)

/-- What an entered node leads to is seen as well. -/
theorem closed (h : DepthFirst next seen ns out) :
    ∀ n ∈ out, n ∉ seen → ∀ m ∈ next n, m ∈ out := by
  induction h with
  | done seen => exact fun n hn hnew => absurd hn hnew
  | again _ _ ih => exact ih
  | @enter seen below rest out n hn hbelow h ihbelow ih =>
    intro k hk hnew m hm
    by_cases hkbelow : k ∈ below
    · refine h.isPrefix.subset ?_
      by_cases hkn : k = n
      · exact hbelow.covers m (hkn ▸ hm)
      · exact ihbelow k hkbelow (by simp [hnew, hkn]) m hm
    · exact ih k hk hkbelow m hm

/-- What is entered can be reached. -/
theorem reached (h : DepthFirst next seen ns out) :
    ∀ m ∈ out, m ∉ seen → ∃ n ∈ ns, Relation.ReflTransGen (fun a b => b ∈ next a) n m := by
  induction h with
  | done seen => exact fun n hn hnew => absurd hn hnew
  | again _ _ ih =>
    intro m hm hnew
    obtain ⟨n, hn, hreach⟩ := ih m hm hnew
    exact ⟨n, List.mem_cons_of_mem _ hn, hreach⟩
  | @enter seen below rest out n hn hbelow h ihbelow ih =>
    intro m hm hnew
    by_cases hmbelow : m ∈ below
    · by_cases hmn : m = n
      · exact ⟨n, List.mem_cons_self .., hmn ▸ .refl⟩
      · obtain ⟨k, hk, hreach⟩ := ihbelow m hmbelow (by simp [hnew, hmn])
        exact ⟨n, List.mem_cons_self .., .head hk hreach⟩
    · obtain ⟨k, hk, hreach⟩ := ih m hm hmbelow
      exact ⟨k, List.mem_cons_of_mem _ hk, hreach⟩

/-- **Reachability.** Going depth first from a root enters exactly what can be reached from it. -/
theorem mem_iff (h : DepthFirst next [] [root] out) :
    n ∈ out ↔ Relation.ReflTransGen (fun a b => b ∈ next a) root n := by
  refine ⟨fun hn => ?_, fun hreach => ?_⟩
  · obtain ⟨k, hk, hreach⟩ := h.reached n hn List.not_mem_nil
    exact List.mem_singleton.mp hk ▸ hreach
  · induction hreach with
    | refl => exact h.covers root (List.mem_singleton_self root)
    | tail _ hstep ih => exact h.closed _ ih List.not_mem_nil _ hstep

end DepthFirst

/-! ### Walks -/

namespace Store

/-- The nodes that a node leads to, in the order of its declaration. -/
def children (s : Store) (side : Side) (n : NodeId) : List NodeId :=
  (s.leads side n).filterMap (s.follow? n)

/-- The children of a node are those that an edge leads to. -/
theorem mem_children {s : Store} {side : Side} {n m : NodeId} :
    m ∈ s.children side n ↔ s.Edge side n m := List.mem_filterMap

end Store

namespace Conversion

/-- How often a node was reached. -/
def tally (c : Conversion) (n : NodeId) : Nat := ((c.survey.visit? n).map (·.count)).getD 0

/-- A part of a descent that arrives at the given nodes, one after the other: it goes through them
    depth first, and counts these arrivals and those at what the entered nodes lead to. -/
structure Walks (next : NodeId → List NodeId) (arrivals : List NodeId) (c d : Conversion) : Prop where
  order : DepthFirst next c.survey.order arrivals d.survey.order
  tally : ∃ more, d.survey.order = c.survey.order ++ more ∧
    ∀ m, d.tally m = c.tally m + (arrivals ++ more.flatMap next).count m

variable {next : NodeId → List NodeId} {xs ys : List NodeId} {c d e : Conversion} {n m : NodeId}

/-- A walk behind a walk is a walk. -/
theorem Walks.append (h₁ : Walks next xs c d) (h₂ : Walks next ys d e) :
    Walks next (xs ++ ys) c e where
  order := h₁.order.append h₂.order
  tally := by
    obtain ⟨more, horder, htally⟩ := h₁.tally
    obtain ⟨more', horder', htally'⟩ := h₂.tally
    refine ⟨more ++ more', by rw [horder', horder, List.append_assoc], fun m => ?_⟩
    rw [htally', htally]
    simp only [List.count_append, List.flatMap_append]
    omega

/-- What enters nothing and counts nothing is no walk at all. -/
theorem Walks.quiet (horder : d.survey.order = c.survey.order) (htally : ∀ m, d.tally m = c.tally m) :
    Walks next [] c d where
  order := by
    rw [horder]
    exact .done _
  tally := ⟨[], by rw [horder, List.append_nil], fun m => by rw [htally]; rfl⟩

/-- A change of a visit that keeps its count keeps all counts. -/
theorem tally_onVisit {f : Visit → Visit} (hf : ∀ v, (f v).count = v.count) (m : NodeId) :
    tally { c with survey := c.survey.modify n f } m = c.tally m := by
  unfold tally
  rw [Survey.map_visit?_modify hf]

/-- A change of a visit that keeps its count walks nowhere. -/
theorem walks_onVisit {f : Visit → Visit} {u : Unit} (h : Returns (onVisit n f) c u d)
    (hf : ∀ v, (f v).count = v.count) : Walks next [] c d := by
  rw [returns_onVisit] at h
  subst h
  exact .quiet (Survey.order_modify c.survey n f) fun m => tally_onVisit hf m

/-- What concerns the store alone walks nowhere. -/
theorem walks_onStore {α : Type} {a : Action Store α} {x : α} (h : Returns (onStore a) c x d) :
    Walks next [] c d := by
  obtain ⟨s, -, rfl⟩ := returns_onStore.mp h
  exact .quiet rfl fun _ => rfl

/-! ### Descents walk -/

/-- What is known of visits: they descend, and they walk over the graph as it is in the end. -/
structure Walking (side : Side) (final : Store) (visit : NodeId → Path → Action Conversion Unit) :
    Prop where
  within : ∀ m path, Within (Descends []) (visit m path)
  walks : ∀ {m path c d}, Returns (visit m path) c () d → c.store.Closed →
    Store.Grows d.store final → Walks (final.children side) [m] c d

variable {side : Side} {final : Store} {visit : NodeId → Path → Action Conversion Unit}

/-- A step of a recipe walks over the node at the end of its lead. -/
theorem perform_walks (hvisit : Walking side final visit) {step : Step} (hs : c.store.Closed)
    (hfinal : Store.Grows d.store final) (h : Returns (perform side visit n step) c () d) :
    Walks (final.children side) (step.lead?.toList.filterMap (final.follow? n)) c d := by
  cases step with
  | write key value => exact walks_onVisit h fun _ => rfl
  | merge entries => exact walks_onVisit h fun _ => rfl
  | property name child => exact walks_onVisit h fun _ => rfl
  | prefault value => exact walks_onVisit h fun _ => rfl
  | visit child path => exact hvisit.walks h hs hfinal
  | inherit child path =>
    obtain ⟨_, e, he, hpass⟩ := returns_bind.mp h
    obtain rfl := returns_onVisit.mp hpass
    exact (hvisit.walks he hs hfinal).append (walks_onVisit hpass fun _ => rfl)
  | inheritResolved path =>
    obtain ⟨answer, e, he, h⟩ := returns_bind.mp h
    have hes := ((onStore_within (Store.resolve_keeps n)).of_returns he : Descends [] c e).store hs
    obtain ⟨s, hresolve, rfl⟩ := returns_onStore.mp he
    have hanswer : s.resolved? n = some answer := Store.resolve_returns hresolve hs
    cases answer with
    | value v => exact absurd h not_returns_fail
    | node child =>
      obtain ⟨_, b, hb, hpass⟩ := returns_bind.mp h
      obtain rfl := returns_onVisit.mp hpass
      have hgrows := (((hvisit.within child path).of_returns hb).store hes.2).1
      -- What the lazy node answers now it answers in the end, so the walk is one there too.
      have hfollow : final.follow? n .answer = some child :=
        Store.follow?_mono (hgrows.trans hfinal) (by simp [Store.follow?, hanswer])
      have hwalks := (walks_onStore he).append
        ((hvisit.walks hb hes.2 hfinal).append (walks_onVisit hpass fun _ => rfl))
      simpa [Step.lead?, hfollow] using hwalks
  | inheritSource child path =>
    obtain ⟨_, e, hpass, h⟩ := returns_bind.mp h
    obtain ⟨_, b, hb, hsource⟩ := returns_bind.mp h
    have hquiet : Walks (final.children side) [] c e := walks_onVisit hpass fun _ => rfl
    obtain rfl := returns_onVisit.mp hpass
    have hlast : Walks (final.children side) [] b d := walks_onVisit hsource fun _ => rfl
    obtain rfl := returns_onVisit.mp hsource
    exact hquiet.append ((hvisit.walks hb hs hfinal).append hlast)
  | require shape =>
    obtain ⟨names, e, he, h⟩ := returns_bind.mp h
    exact (walks_onStore he).append (walks_onVisit h fun _ => rfl)
  | fail f => exact absurd h not_returns_fail

/-- The steps of a recipe walk over the nodes at the end of their leads. -/
theorem performAll_walks (hvisit : Walking side final visit) {steps : List Step}
    (hs : c.store.Closed) (hfinal : Store.Grows d.store final)
    (h : Returns (performAll side visit n steps) c () d) :
    Walks (final.children side) ((Step.leadsOf steps).filterMap (final.follow? n)) c d := by
  induction steps generalizing c with
  | nil =>
    obtain ⟨-, rfl⟩ := returns_pure.mp h
    exact .quiet rfl fun _ => rfl
  | cons step rest ih =>
    obtain ⟨_, e, he, h⟩ := returns_bind.mp h
    have hes := ((perform_within hvisit.within n step).of_returns he).store hs
    have hgrows := (((performAll_within hvisit.within n rest).of_returns h).store hes.2).1
    rw [Step.leadsOf_cons, List.filterMap_append]
    exact (perform_walks hvisit hs (hgrows.trans hfinal) he).append (ih hes.2 h)

variable {guide : Guide}

/-- A node that is lowered is walked below: over its children, in the order of its declaration. -/
theorem lower_walks (hvisit : Walking guide.settings.side final visit) {path : Path}
    (hs : c.store.Closed) (hfinal : Store.Grows d.store final)
    (h : Returns (lower guide visit n path) c () d) :
    Walks (final.children guide.settings.side) (final.children guide.settings.side n) c d := by
  obtain ⟨node, b, e, hnode, hb, he, hsettle⟩ := lower_returns h
  have hannotate : Walks (final.children guide.settings.side) [] b e ∧ e.store = b.store := by
    obtain ⟨_, _, hget, hput⟩ := returns_bind.mp he
    obtain ⟨rfl, rfl⟩ := returns_get.mp hget
    split at hput
    · refine ⟨walks_onVisit hput fun _ => rfl, ?_⟩
      rw [returns_onVisit.mp hput]
    · obtain ⟨-, rfl⟩ := returns_pure.mp hput
      exact ⟨.quiet rfl fun _ => rfl, rfl⟩
  have hdefault : Walks (final.children guide.settings.side) [] e d ∧ d.store = e.store := by
    split at hsettle
    · refine ⟨walks_onVisit hsettle fun _ => rfl, ?_⟩
      rw [returns_onVisit.mp hsettle]
    · obtain ⟨-, rfl⟩ := returns_pure.mp hsettle
      exact ⟨.quiet rfl fun _ => rfl, rfl⟩
  rw [hdefault.2, hannotate.2] at hfinal
  have hgrows := (((performAll_within hvisit.within n _).of_returns hb).store hs).1
  -- The recipe leads to the children of the node, in their order.
  have hchildren : (Step.leadsOf (node.recipe guide.settings (c.store.catchallKind node) path)).filterMap
      (final.follow? n) = final.children guide.settings.side n := by
    rw [leadsOf_recipe (runs_of_returns hb), Store.children,
      Store.leads_eq (hgrows.trans hfinal) hs _ (by rw [hnode]; rfl)]
    simp [Store.leads, hnode]
  have hwalks := ((performAll_walks hvisit hs hfinal hb).append hannotate.1).append hdefault.1
  rwa [List.append_nil, List.append_nil, hchildren] at hwalks

/-- Meeting a node again is one arrival. -/
theorem revisit_walks {above : List NodeId} {path : Path} (hn : c.survey.has n = true)
    (h : Returns (revisit above n path) c () d) : Walks next [n] c d := by
  obtain ⟨v, hv⟩ := Survey.visit?_of_has hn
  obtain ⟨horder, hother, hself⟩ := revisit_returns hv h
  refine ⟨?_, [], by rw [horder, List.append_nil], fun m => ?_⟩
  · rw [horder]
    exact .again ((Survey.has_iff _ _).mp hn) (.done _)
  · unfold tally
    by_cases hm : m = n
    · subst hm
      rw [hself, hv]
      simp
    · rw [hother m hm]
      simp [Ne.symm hm]

/-- A node that is entered is one arrival, and is walked below. -/
theorem Walks.of_entered (hn : c.survey.has n = false) (h : Walks next (next n) (c.entered n) d) :
    Walks next [n] c d := by
  have hnew : n ∉ c.survey.order := fun hmem => by
    rw [← Survey.has_iff, hn] at hmem
    cases hmem
  have hentered : (c.entered n).survey.order = c.survey.order ++ [n] := Survey.order_enter _ _
  obtain ⟨more, horder, htally⟩ := h.tally
  refine ⟨.enter hnew (hentered ▸ h.order) (.done _), n :: more, ?_, fun m => ?_⟩
  · rw [horder, hentered, List.append_assoc]
    rfl
  -- Entering counts the node once, and no other.
  · have hone : (c.entered n).tally m = c.tally m + [n].count m := by
      unfold Conversion.tally entered
      dsimp only
      by_cases hm : m = n
      · subst hm
        have hnone : c.survey.visit? m = none := by simpa [Survey.has] using hn
        rw [Survey.visit?_enter_self hn, hnone]
        simp
      · rw [Survey.visit?_enter_of_ne hm]
        simp [Ne.symm hm]
    rw [htally, hone]
    simp only [List.flatMap_cons, List.count_append, List.count_cons]
    omega

/-- **Arrivals walk.** An arrival that returns has gone depth first through what it leads to. -/
theorem arrive_walking (final : Store) (depth : Nat) (ancestors : List NodeId) :
    Walking guide.settings.side final (arrive guide depth ancestors) := by
  induction depth generalizing ancestors with
  | zero =>
    refine ⟨fun m path => arrive_within 0 ancestors m path, fun {m path c d} h hs hfinal => ?_⟩
    unfold Returns at h
    rw [arrive_eq] at h
    split at h
    · rename_i hm
      exact revisit_walks hm h
    · exact absurd h not_returns_fail
  | succ depth ih =>
    refine ⟨fun m path => arrive_within _ ancestors m path, fun {m path c d} h hs hfinal => ?_⟩
    unfold Returns at h
    rw [arrive_eq] at h
    split at h
    · rename_i hm
      exact revisit_walks hm h
    · rename_i hm
      exact .of_entered (by simpa using hm) (lower_walks (ih (m :: ancestors)) hs hfinal h)

end Conversion

namespace Converter

open Conversion

/-- A visit to a root is a walk from it. -/
theorem process_walks (conv : Converter) {root : NodeId} {c d : Conversion} (hs : c.store.Closed)
    (h : Returns (conv.process root) c () d) :
    Walks (d.store.children conv.guide.settings.side) [root] c d := by
  obtain ⟨_, b, hvisit, h⟩ := returns_bind.mp h
  obtain ⟨_, e, hget, hlog⟩ := returns_bind.mp h
  rw [(returns_get.mp hget).2] at hlog
  obtain ⟨_, a, hget, harrive⟩ := returns_bind.mp hvisit
  rw [(returns_get.mp hget).2] at harrive
  have hclosed := (((arrive_within _ _ _ _).of_returns harrive).store hs).2
  have hgrows : Store.Grows b.store d.store := by
    rw [returns_log.mp hlog]
    exact (Store.record_makes b.store _ hclosed).grows
  exact ((arrive_walking d.store _ []).walks harrive hs hgrows).append (walks_onStore hlog)

/-- **What is visited, in which order, and how often.** When a visit to a root of a fresh survey
    returns, every lead of a visited node ends at a node, and

    * the order of visits is the one of going depth first from the root over what nodes lead to;
    * so each node is visited once, and the visited nodes are those that the root leads to, over any
      number of edges;
    * each node was reached as often as the visited nodes lead to it, and the root once more;
    * the content of each node is what can be told of the node alone: the keywords of its own recipe
      with pointers to the fragments of its children, its annotation and its default. -/
theorem process_preorder (conv : Converter) {store : Store} (hs : store.Closed) {root : NodeId}
    {c : Conversion} (h : Returns (conv.process root) (start store) () c) :
    let side := conv.guide.settings.side
    (∀ n ∈ c.survey.order, ∀ lead ∈ c.store.leads side n, (c.store.follow? n lead).isSome) ∧
    (∀ order, DepthFirst (c.store.children side) [] [root] order ↔ order = c.survey.order) ∧
    c.survey.order.Nodup ∧
    (∀ n, n ∈ c.survey.order ↔ Relation.ReflTransGen (c.store.Edge side) root n) ∧
    ∀ n v, c.survey.visit? n = some v →
      v.count = (c.survey.order.flatMap (c.store.children side)).count n
        + (if n = root then 1 else 0) ∧
      ∃ links w, c.store.contents? conv.guide links n = some w ∧ w.content = v.content := by
  intro side
  have hwalks := process_walks conv (start_closed hs) h
  obtain ⟨hexplores, -⟩ := process_explores (start_closed hs) h
  have horder : DepthFirst (c.store.children side) [] [root] c.survey.order := hwalks.order
  -- Children are listed along the edges.
  have hedge : (fun a b => b ∈ c.store.children side a) = c.store.Edge side :=
    funext fun a => funext fun b => propext Store.mem_children
  refine ⟨fun n hn lead hlead => ?_,
    fun order => ⟨fun h => h.unique horder, fun h => h ▸ horder⟩, horder.nodup List.nodup_nil,
    fun n => hedge ▸ horder.mem_iff, fun n v hv => ⟨?_, hexplores.contents rfl hv⟩⟩
  · obtain ⟨m, hm, -⟩ := hexplores.leads rfl ((Survey.has_iff _ _).mpr hn) lead hlead
    rw [hm]
    rfl
  · obtain ⟨more, hmore, htally⟩ := hwalks.tally
    obtain rfl : c.survey.order = more := hmore
    have hcount : v.count = 0 + ([root] ++ c.survey.order.flatMap (c.store.children side)).count n := by
      rw [← show c.tally n = v.count by rw [tally, hv]; rfl]
      exact htally n
    rw [List.count_append, List.count_singleton] at hcount
    simp only [beq_iff_eq, eq_comm (a := root)] at hcount
    omega

/-- An object with a text and a list of such texts; all other properties are objects of the same
    kind. -/
def sharedEntries : Store where
  nodes := [{ kind := .object, shape := some [("text", .node 1), ("texts", .node 2)]
              catchall := .node 3 },
    { kind := .string }, { kind := .array, element := .node 1 }, { kind := .lazy, getter := some 0 }]
  getters := [{ owner := .node 3, source := .named "entry" }]
  names := [("entry", .node 0)]

/-- The list is visited behind the text, and only counts it.  The lazy node leads back to the
    object, which is the root. -/
theorem process_preorder_sharedEntries :
    ∃ c, Returns (({} : Converter).process (.node 0)) (start sharedEntries) () c ∧
      c.survey.order = [.node 0, .node 1, .node 2, .node 3] ∧
      DepthFirst (c.store.children .output) [] [.node 0] c.survey.order ∧
      (c.survey.order.map fun n => (c.survey.visit? n).map (·.count)) =
        [some 2, some 2, some 1, some 1] ∧
      ∀ n, n ∈ c.survey.order ↔ Relation.ReflTransGen (c.store.Edge .output) (.node 0) n := by
  have hclosed : sharedEntries.Closed :=
    .of_forall (by decide) (by decide) (List.forall_mem_singleton.mpr trivial)
  obtain ⟨⟨⟩, h⟩ := exists_returns (a := ({} : Converter).process (.node 0))
    (s := start sharedEntries) (by decide +kernel)
  obtain ⟨-, horder, -, hreach, -⟩ := process_preorder {} hclosed h
  exact ⟨_, h, by decide +kernel, (horder _).mpr rfl, by decide +kernel, hreach⟩

end Converter

end SchemaGraph
