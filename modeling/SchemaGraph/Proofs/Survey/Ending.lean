import SchemaGraph.Proofs.Survey.Asking

namespace SchemaGraph

open SchemaGraph.Action

/-!
# Descents come to an end

Every step down enters another node, so that a descent over finitely many nodes comes to an end.
What may be endless is the question which properties of an object must be there: it is passed on
over links that nothing remembers.  A visit to a root is endless exactly if it comes to an object
with a property about which the question runs in a circle.

* `Node.Lists`                  — the properties that a node asks about
* `Conversion.Underway`, `Conversion.Ending` — descents over finitely many nodes
* `Conversion.arrive_ending`    — arrivals are endless only where a question runs in a circle
* `Converter.process_ends`      — when a visit to a root comes to an end
-/

/-! ### Recipes -/

/-- The node is an object made by the rules for its kind, and asks whether the child must be there
    as one of its properties. -/
def Node.Lists (node : Node) (child : NodeId) : Prop :=
  node.kind = .object ∧ node.lowering = .null ∧ node.parent = .gap ∧
    ∃ p ∈ node.shape.getD [], p.2 = child

/-- A step that does not fail as endless, and that asks about certain properties alone. -/
def Step.Fair (asks : List (String × NodeId) → Prop) : Step → Prop
  | .fail f => f ≠ .endless
  | .require shape => asks shape
  | _ => True

section Recipes

variable {asks : List (String × NodeId) → Prop} {path : Path} {node : Node}

/-- What the rules refuse is nothing endless. -/
theorem Node.Refuses.ne_endless {settings : LoweringSettings} {f : Failure}
    (h : node.Refuses settings f) : f ≠ .endless := by
  cases h with
  | default => exact Store.ofRaised_ne_endless _
  | _ => nofun

/-- The rules for the kinds do not fail as endless, and only those for objects ask about
    properties. -/
theorem fair_kindSteps (settings : LoweringSettings) (catchall : Option Kind)
    (h : node.kind = .object → asks (node.shape.getD [])) :
    ∀ step ∈ kindSteps settings catchall node path, step.Fair asks := by
  intro step hstep
  cases byRule_kindSteps hstep with
  | fail hrefused => exact hrefused.ne_endless
  | require hkind => exact h hkind
  | _ => trivial

/-- The steps of a custom lowering are fair. -/
theorem fair_loweringSteps (lowering : Value) : ∀ step ∈ loweringSteps lowering, step.Fair asks := by
  intro step hstep
  cases step with
  | fail f =>
    rcases fail_of_mem_loweringSteps hstep with ⟨cause, -, rfl⟩ | rfl | ⟨i, length, rfl⟩
    · exact Store.ofRaised_ne_endless cause
    · nofun
    · nofun
  | require shape =>
    unfold loweringSteps at hstep
    split at hstep
    · cases List.mem_singleton.mp hstep
    · dsimp only at hstep
      split at hstep <;> simp at hstep
  | _ => trivial

/-- **Recipes.** No recipe fails as endless by itself, and a node asks about its own properties. -/
theorem Node.fair_recipe (settings : LoweringSettings) (catchall : Option Kind) (node : Node)
    (path : Path) : ∀ step ∈ node.recipe settings catchall path,
      step.Fair fun shape => ∀ p ∈ shape, node.Lists p.2 := by
  unfold Node.recipe
  split
  · exact fair_loweringSteps _
  · rename_i hlowering
    split
    · simp [Step.Fair]
    · rename_i hparent
      exact fair_kindSteps settings catchall fun hkind p hp =>
        ⟨hkind, of_not_not hlowering, of_not_not hparent, p, hp, rfl⟩

end Recipes

/-! ### Descents -/

namespace Conversion

variable {α : Type} {guide : Guide} {visit : NodeId → Path → Action Conversion Unit}
  {start c d : Conversion} {above : List NodeId} {n : NodeId} {side : Side}

/-- Lazy nodes were asked, and nothing else was done to the store. -/
def Asks (c d : Conversion) : Prop := c.store.Asked d.store

instance : Std.Refl Asks := ⟨fun c => .refl c.store⟩

instance : Trans Asks Asks Asks := ⟨Store.Asked.trans⟩

/-- Asking lazy nodes in the store asks lazy nodes. -/
theorem onStore_asks {a : Action Store α} (h : Within Store.Asked a) :
    Within Asks (onStore a) := fun c => h c.store

/-- A change to a visit asks nothing. -/
theorem onVisit_asks (n : NodeId) (f : Visit → Visit) : Within Asks (onVisit n f) :=
  fun c => Store.Asked.refl c.store

/-- The steps at a node do nothing to the store but ask lazy nodes. -/
theorem treads_asks (n : NodeId) : Treads n Asks where
  fetch := onStore_asks (Store.fetch_asked n)
  requiredNames side shape := onStore_asks (Store.requiredNames_asked side shape)
  resolve := onStore_asks (Store.resolve_asked n)
  fail f := onStore_asks (Store.fail_asked f)
  write _ _ := onVisit_asks n _
  merge _ := onVisit_asks n _
  passOn _ := onVisit_asks n _
  prefault _ := onVisit_asks n _
  settle _ := onVisit_asks n _

/-- A visit to a node that was visited before asks nothing. -/
theorem revisit_asks (ancestors : List NodeId) (n : NodeId) (path : Path) :
    Within Asks (revisit ancestors n path) := by
  refine .bind (onVisit_asks n _) fun _ => ?_
  split
  · exact .bind (onVisit_asks n _) fun _ => onStore_asks fun s => .event (.refl s) _
  · exact within_pure _

/-- Arrivals do nothing to the store but ask lazy nodes. By induction on the depth. -/
theorem arrive_asks (depth : Nat) (ancestors : List NodeId) (n : NodeId) (path : Path) :
    Within Asks (arrive guide depth ancestors n path) := by
  induction depth generalizing ancestors n path with
  | zero =>
    intro c
    rw [arrive_eq]
    split
    · exact revisit_asks ancestors n path c
    · exact onStore_asks (Store.fail_asked _) (c.entered n)
  | succ depth ih =>
    intro c
    rw [arrive_eq]
    split
    · exact revisit_asks ancestors n path c
    · exact (treads_asks n).lower (ih (n :: ancestors)) (fun _ => onVisit_asks _ _) path (c.entered n)

/-- An object was visited since the start about one of whose properties the question runs in a
    circle. -/
def Stuck (side : Side) (start c : Conversion) : Prop :=
  ∃ n node child, start.survey.has n = false ∧ c.survey.has n = true ∧
    c.store.node? n = some node ∧ node.Lists child ∧ c.store.Circles side child

/-- A failure as endless is due to a question that runs in a circle. -/
def Ends (side : Side) (start : Conversion) (c : Conversion) (f : Failure) : Prop :=
  f = .endless → Stuck side start c

/-- A descent on its way: what was visited is still visited, lazy nodes alone were asked, and the
    nodes above were entered and exist. -/
structure Underway (start : Conversion) (above : List NodeId) (c : Conversion) : Prop where
  closed : c.store.Closed
  asked : start.store.Asked c.store
  visited : ∀ m, start.survey.has m = true → c.survey.has m = true
  entered : ∀ a ∈ above, c.survey.has a = true
  exist : ∀ a ∈ above, (c.store.node? a).isSome

/-- A descent goes on its way while nothing that was visited is lost. -/
theorem Underway.mono {own : List NodeId} (h : Underway start above c) (hd : Descends own c d)
    (ha : c.Asks d) : Underway start above d where
  closed := (hd.store h.closed).2
  asked := h.asked.trans ha
  visited m hm := hd.has (h.visited m hm)
  entered a ha := hd.has (h.entered a ha)
  exist a ha := (hd.store h.closed).1.isSome (h.exist a ha)

/-- A descent goes on its way from where an action of it returns. -/
theorem Underway.of_returns {own : List NodeId} {a : Action Conversion α} {x : α}
    (h : Underway start above c) (hd : Within (Descends own) a) (ha : Within Asks a)
    (hr : Returns a c x d) : Underway start above d := h.mono (hd.of_returns hr) (ha.of_returns hr)

/-- What is known of the visits below the nodes above. -/
structure Ending (side : Side) (start : Conversion) (above : List NodeId)
    (visit : NodeId → Path → Action Conversion Unit) : Prop where
  within : ∀ m path, Within (Descends []) (visit m path)
  asks : ∀ m path, Within Asks (visit m path)
  ends : ∀ {m path c}, Underway start above c → Explains (Ends side start) (visit m path) c

/-- A failure that is not endless needs no reason. -/
theorem ends_fail {f : Failure} (hf : f ≠ .endless) :
    Explains (Ends side start) (fail f : Action Conversion α) c := by
  intro g d hrun hg
  have hraises : Raises (· ≠ .endless) (Store.fail f : Action Store α) := Store.raises_fail hf
  exact absurd hg (hraises.of_error (s := c.store) (congrArg (·.1) hrun))

/-- A change to a visit is not endless. -/
theorem ends_onVisit (n : NodeId) (f : Visit → Visit) :
    Explains (Ends side start) (onVisit n f) c := explains_modify _

/-- A step at a node that was visited since the start. -/
theorem perform_ends (hdefinite : start.store.Definite) (hvisit : Ending side start above visit)
    (hc : Underway start above c) {node : Node} (hnew : start.survey.has n = false)
    (hn : c.survey.has n = true) (hnode : c.store.node? n = some node) {step : Step}
    (hstep : step.Fair fun shape => ∀ p ∈ shape, node.Lists p.2) :
    Explains (Ends side start) (perform side visit n step) c := by
  cases step with
  | write key value => exact ends_onVisit n _
  | merge entries => exact ends_onVisit n _
  | visit child path => exact hvisit.ends hc
  | property name child => exact ends_onVisit n _
  -- The question which properties are required is endless only where one of them runs in a circle,
  -- and the node lists it.
  | require shape =>
    refine Explains.bind (fun f d hrun hf => ?_) fun _ d _ => ends_onVisit n _
    rcases hq : Store.requiredNames side shape c.store with ⟨r, t⟩
    unfold onStore at hrun
    rw [hq] at hrun
    cases hrun
    obtain ⟨p, hp, hcircles⟩ :=
      Store.circles_of_required hdefinite hc.closed hc.asked shape f t hq hf
    have hgrows : Store.Grows c.store t := by
      have := Store.requiredNames_keeps side shape c.store hc.closed
      rw [hq] at this
      exact this.1
    exact ⟨n, node, p.2, hnew, hn, hgrows.node? hnode, hstep p hp, hcircles⟩
  | inherit child path => exact (hvisit.ends hc).bind fun _ _ _ => ends_onVisit n _
  | inheritResolved path =>
    refine Explains.bind (fun f d hrun hf => ?_) fun answer d hd => ?_
    · refine absurd ?_ (hdefinite.ends hc.asked n)
      exact hf ▸ congrArg (·.1) hrun
    · cases answer with
      | node child =>
        have hready := hc.of_returns (treads_within n).resolve (treads_asks n).resolve hd
        exact (hvisit.ends hready).bind fun _ _ _ => ends_onVisit n _
      | value v => exact ends_fail (by simp)
  | inheritSource child path =>
    refine (ends_onVisit n _).bind fun _ d hd => ?_
    have hready := hc.of_returns ((treads_within n).passOn child) ((treads_asks n).passOn child) hd
    exact (hvisit.ends hready).bind fun _ _ _ => ends_onVisit child _
  | prefault v => exact ends_onVisit n _
  | fail f => exact ends_fail hstep

/-- The steps at a node that was visited since the start. -/
theorem performAll_ends (hdefinite : start.store.Definite) (hvisit : Ending side start above visit)
    (hc : Underway start above c) {node : Node} (hnew : start.survey.has n = false)
    (hn : c.survey.has n = true) (hnode : c.store.node? n = some node) {steps : List Step}
    (hsteps : ∀ step ∈ steps, step.Fair fun shape => ∀ p ∈ shape, node.Lists p.2) :
    Explains (Ends side start) (performAll side visit n steps) c := by
  induction steps generalizing c with
  | nil => exact explains_pure _
  | cons step rest ih =>
    obtain ⟨hstep, hrest⟩ := List.forall_mem_cons.mp hsteps
    refine (perform_ends hdefinite hvisit hc hnew hn hnode hstep).bind fun _ d hd => ?_
    have hwithin : Within (Descends [n]) (perform side visit n step) :=
      perform_within hvisit.within n step
    have hasks : Within Asks (perform side visit n step) :=
      (treads_asks n).perform hvisit.asks step fun child _ _ => onVisit_asks child _
    have hdescends := hwithin.of_returns hd
    exact ih (hc.of_returns hwithin hasks hd) (hdescends.has hn)
      ((hdescends.store hc.closed).1.node? hnode) hrest

/-- A node that was just entered is lowered. -/
theorem lower_ends (hdefinite : start.store.Definite)
    (hvisit : Ending guide.settings.side start (n :: above) visit)
    (hc : Underway start above c) (hnew : start.survey.has n = false) (hn : c.survey.has n = true)
    (path : Path) : Explains (Ends guide.settings.side start) (lower guide visit n path) c := by
  refine Explains.bind (fun f d hrun hf => ?_) fun node d hfetch => ?_
  · refine absurd ?_ (Store.fetch_ne_endless (s := c.store) n)
    exact hf ▸ congrArg (·.1) hrun
  obtain ⟨s, hs, rfl⟩ := returns_onStore.mp hfetch
  obtain ⟨hnode, rfl⟩ := Store.returns_fetch.mp hs
  have hexists : (c.store.node? n).isSome := by rw [hnode]; rfl
  -- The node is on the way down while its recipe is carried out.
  have hbelow : Underway start (n :: above) c :=
    { hc with
      entered := List.forall_mem_cons.mpr ⟨hn, hc.entered⟩
      exist := List.forall_mem_cons.mpr ⟨hexists, hc.exist⟩ }
  refine explains_get.bind fun _ _ hget => ?_
  rw [(returns_get.mp hget).2]
  refine (performAll_ends hdefinite hvisit hbelow hnew hn hnode
    (node.fair_recipe guide.settings _ path)).bind fun _ _ _ => Explains.bind ?_ fun _ _ _ => ?_
  · refine explains_get.bind fun _ _ _ => ?_
    split
    · exact ends_onVisit n _
    · exact explains_pure _
  · split
    · exact ends_onVisit n _
    · exact explains_pure _

/-- A visit to a node that was visited before is not endless. -/
theorem revisit_ends (ancestors : List NodeId) (n : NodeId) (path : Path) :
    Explains (Ends side start) (revisit ancestors n path) c := by
  refine (ends_onVisit n _).bind fun _ _ _ => ?_
  split
  · exact (ends_onVisit n _).bind fun _ _ _ => fun f d hrun => by cases hrun
  · exact explains_pure _

/-- **Arrivals.** An arrival is endless only where a question runs in a circle, if there are no more
    nodes than the nodes above and the steps down that are left. -/
theorem arrive_ending (hdefinite : start.store.Definite) {depth : Nat} (hnodup : above.Nodup)
    (hdepth : start.store.extent < depth + above.length) :
    Ending guide.settings.side start above (arrive guide depth above) := by
  induction depth generalizing above with
  | zero =>
    refine ⟨arrive_within 0 above, arrive_asks 0 above, fun {m path c} hc => ?_⟩
    -- there are not as many nodes as stand above
    have hlength := Store.length_le_of_nodup hnodup hc.exist
    have hfew := hdefinite.few hc.asked
    omega
  | succ depth ih =>
    refine ⟨arrive_within _ above, arrive_asks _ above, fun {m path c} hc f d hrun => ?_⟩
    rw [arrive_eq] at hrun
    split at hrun
    · exact revisit_ends above m path f d hrun
    · rename_i hm
      have hm : c.survey.has m = false := by simpa using hm
      have hfresh : m ∉ above := fun hmem => by
        rw [hc.entered m hmem] at hm
        cases hm
      have hnew : start.survey.has m = false := by
        by_contra hold
        rw [hc.visited m (by simpa using hold)] at hm
        cases hm
      have hentered : (c.entered m).survey.has m = true :=
        Survey.has_of_visit? (Survey.visit?_enter_self hm)
      have hhas : ∀ k, c.survey.has k = true → (c.entered m).survey.has k = true := by
        intro k hk
        rw [Survey.has_iff] at hk ⊢
        show k ∈ (c.survey.enter m).order
        rw [Survey.order_enter]
        exact List.mem_append_left _ hk
      have hready : Underway start above (c.entered m) :=
        ⟨hc.closed, hc.asked, fun k hk => hhas k (hc.visited k hk),
          fun a ha => hhas a (hc.entered a ha), hc.exist⟩
      have hbelow := ih (List.nodup_cons.mpr ⟨hfresh, hnodup⟩) (by rw [List.length_cons]; omega)
      exact lower_ends hdefinite hbelow hready hnew hentered path f d hrun

/-- Where the properties of an object are known that must be there, no question about them runs in a
    circle. -/
theorem not_circles_of_contents {s : Store} {links : Nat} {node : Node} {child : NodeId} {v : Visit}
    (hv : s.contents? guide links n = some v) (hn : s.node? n = some node)
    (hchild : node.Lists child) : ¬ s.Circles guide.settings.side child := by
  intro hcircles
  obtain ⟨hkind, hlowering, hparent, p, hp, rfl⟩ := hchild
  obtain ⟨node', w, hn', hw, -⟩ := Store.contents?_eq_some.mp hv
  obtain rfl := Option.some.inj (hn.symm.trans hn')
  -- An object asks about its properties in a step that was answered.
  have hrequire : Step.require (node.shape.getD []) ∈
      node.recipe guide.settings (s.catchallKind node) [] := by
    simp [Node.recipe, hlowering, hparent, kindSteps, hkind, objectSteps]
  obtain ⟨u, x, hreplay⟩ := Step.answered_of_replayAll hw _ hrequire
  obtain ⟨names, hnames, -⟩ := Step.replay_require.mp hreplay
  obtain ⟨b, hb⟩ := Store.optional?_of_required hnames p hp
  rw [hcircles.optional?_eq] at hb
  cases hb

end Conversion

namespace Converter

open Conversion

/-- **Visits come to an end.** In a finite graph, a visit to a root is endless only if it comes to an
    object with a property about which the question whether it must be there runs in a circle; and if
    it returns, it has come to no such object.  Otherwise it fails as a step of a recipe does, or as a
    lazy node. -/
theorem process_ends (conv : Converter) {c : Conversion} (hclosed : c.store.Closed)
    (hdefinite : c.store.Definite) (root : NodeId) :
    ((conv.process root c).1 = .error .endless →
      Stuck conv.guide.settings.side c (conv.process root c).2) ∧
    ((conv.process root c).1 = .ok () →
      ¬ Stuck conv.guide.settings.side c (conv.process root c).2) := by
  constructor
  · intro hrun
    have hdepth : c.store.extent < c.store.extent + 2 + ([] : List NodeId).length := by
      simp only [List.length_nil]
      omega
    -- The visit of a root starts with nothing above it, and with more depth than there are nodes.
    have hready : Underway c [] c := ⟨hclosed, .refl _, fun _ h => h, nofun, nofun⟩
    have hends : Explains (Ends conv.guide.settings.side c) (conv.process root) c := by
      refine Explains.bind (explains_get.bind fun b d hget => ?_) fun _ d _ => ?_
      · obtain ⟨rfl, rfl⟩ := returns_get.mp hget
        exact (arrive_ending hdefinite List.nodup_nil hdepth).ends hready
      · exact explains_get.bind fun _ _ _ => fun f d hlog => by cases hlog
    exact hends _ _ (Prod.ext hrun rfl) rfl
  · rintro hrun ⟨n, node, child, hnew, hn, hnode, hchild, hcircles⟩
    obtain ⟨hexplores, -⟩ := process_explores hclosed
      (show Returns (conv.process root) c () _ from Prod.ext hrun rfl)
    obtain ⟨v, hv⟩ := Survey.visit?_of_has hn
    obtain ⟨links, w, hw, -⟩ := hexplores.contents hnew hv
    exact not_circles_of_contents hw hnode hchild hcircles

/-- A record of a record, which may be missing. -/
def optionalRing : Store where
  nodes := [{ kind := .object, shape := some [("p", .node 1)] },
    { kind := .optional, inner := .node 2 }, { kind := .lazy, getter := some 0 }]
  getters := [{ owner := .node 2, source := .named "record" }]
  names := [("record", .node 0)]

/-- All children in the ring exist. -/
theorem optionalRing_closed : optionalRing.Closed :=
  .of_forall (by decide) (by decide) (List.forall_mem_singleton.mpr trivial)

/-- A getter that names a node makes none. -/
theorem settled_of_named {s : Store} (h : ∀ g ∈ s.getters, ∃ name, g.source = .named name) :
    s.Settled := by
  intro n node i g b _ _ hg hfresh
  obtain ⟨name, hname⟩ := h g (List.mem_of_getElem? hg)
  rw [hname] at hfresh
  cases hfresh

/-- The visit to the record comes to an end. -/
theorem process_ends_optionalRing :
    (({} : Converter).process (.node 0) (start optionalRing)).1 = .ok () ∧
    ¬ Stuck .output (start optionalRing) (({} : Converter).process (.node 0) (start optionalRing)).2 := by
  have hclosed : (start optionalRing).store.Closed := start_closed optionalRing_closed
  have hdefinite : (start optionalRing).store.Definite :=
    Store.definite_of_settled (settled_of_named (List.forall_mem_singleton.mpr ⟨_, rfl⟩))
  have hrun : (({} : Converter).process (.node 0) (start optionalRing)).1 = .ok () := by
    decide +kernel
  exact ⟨hrun, (process_ends {} hclosed hdefinite (.node 0)).2 hrun⟩

/-- A record with a property that may be `null`, and is otherwise what the property is. -/
def nullableRing : Store where
  nodes := [{ kind := .object, shape := some [("p", .node 1)] },
    { kind := .nullable, inner := .node 2 }, { kind := .lazy, getter := some 0 }]
  getters := [{ owner := .node 2, source := .named "property" }]
  names := [("property", .node 1)]

/-- The visit to the record does not come to an end, though there are three nodes, and the lazy one
    stands for one of them: whether the property must be there is asked for ever. -/
theorem process_ends_never :
    let c := (({} : Converter).process (.node 0) (start nullableRing)).2
    nullableRing.Closed ∧ nullableRing.Definite ∧
    (({} : Converter).process (.node 0) (start nullableRing)).1 = .error .endless ∧
    c.store.nodes.length = 3 ∧ c.store.resolved? (.node 2) = some (.node (.node 1)) ∧
    ∀ links, Store.isOptionalWithin .output links (.node 1) c.store = (.error .endless, c.store) := by
  intro c
  have hresolved : c.store.resolved? (.node 2) = some (.node (.node 1)) := by decide +kernel
  have hforth : c.store.Defers .output (.node 1) (.node 2) :=
    ⟨{ kind := .nullable, inner := .node 2 }, by decide +kernel, .inl (by decide)⟩
  have hback : c.store.Defers .output (.node 2) (.node 1) :=
    ⟨{ kind := .lazy, getter := some 0 }, by decide +kernel, .inr ⟨by decide, hresolved⟩⟩
  have hcircles : c.store.Circles .output (.node 1) :=
    ⟨.node 1, .refl, .tail (.single hforth) hback⟩
  exact ⟨.of_forall (by decide) (by decide) (List.forall_mem_singleton.mpr trivial),
    Store.definite_of_settled (settled_of_named (List.forall_mem_singleton.mpr ⟨_, rfl⟩)),
    by decide +kernel, by decide +kernel, hresolved, hcircles.endless⟩

end Converter

end SchemaGraph
