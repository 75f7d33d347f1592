import SchemaGraph.Converter
import SchemaGraph.Proofs.Store.Extension
import SchemaGraph.Proofs.Survey.Failing

namespace SchemaGraph

open SchemaGraph.Action

/-!
# Descents done again

A descent that has returned leaves a store in which all its lazy nodes have answered.  Done again
over that store, or over one that recalls it, the descent comes to the same survey: no getter is
asked any more, and nothing is added to the store but events.

* `Store.Recalls s t`    — `t` knows the nodes of `s`, their answers and their annotations
* `Converter.processAll_extends` — descents extend the store, whatever comes of them
* `Action.Replays a b`   — what `a` has done, `b` does over a store that recalls what `a` has left
* `Conversion.replays_visit`, `Converter.replays_processAll` — descents are done again
-/

/-! ### Stores that recall others -/

namespace Store

/-- The store knows the nodes of another one, what these have answered and how they are annotated,
    and bounds descents no earlier. -/
structure Recalls (s t : Store) : Prop where
  nodes : s.nodes <+: t.nodes
  resolved : ∀ {n r}, s.resolved? n = some r → t.resolved? n = some r
  notes : ∀ name {n}, (s.node? n).isSome → (t.catalog name).get? n = (s.catalog name).get? n
  extent : s.extent ≤ t.extent

namespace Recalls

variable {s t u : Store} {n : NodeId}

/-- A store that has grown and extends another one recalls it. -/
theorem of_grows (h : Grows s t) (he : Extends s t) : Recalls s t :=
  ⟨h.nodes, h.resolved, h.notes, extent_mono he⟩

/-- A store recalls itself. -/
theorem refl (s : Store) : Recalls s s := of_grows (.refl s) (.refl s)

/-- A store that recalls another one has grown out of it, but for lists and what surveys have left
    behind. -/
theorem grows (h : Recalls s t) : Grows s { t with lists := s.lists, archive := s.archive } where
  nodes := h.nodes
  resolved := h.resolved
  notes := h.notes
  lists {_ xs} hk := ⟨[], by rw [List.append_nil]; exact hk⟩
  archive := rfl

/-- The nodes of a store are found in every store that recalls it. -/
theorem node? (h : Recalls s t) {node : Node} (hn : s.node? n = some node) :
    t.node? n = some node := by
  have hgrown := h.grows.node? hn
  cases n with
  | gap => cases hn
  | node i => exact hgrown

/-- The nodes of a store exist in every store that recalls it. -/
theorem isSome (h : Recalls s t) (hn : (s.node? n).isSome) : (t.node? n).isSome := by
  obtain ⟨node, hnode⟩ := Option.isSome_iff_exists.mp hn
  rw [h.node? hnode]
  rfl

/-- What is recalled of a store is recalled of what it recalls. -/
theorem trans (h₁ : Recalls s t) (h₂ : Recalls t u) : Recalls s u where
  nodes := h₁.nodes.trans h₂.nodes
  resolved h := h₂.resolved (h₁.resolved h)
  notes name _ hn := (h₂.notes name (h₁.isSome hn)).trans (h₁.notes name hn)
  extent := Nat.le_trans h₁.extent h₂.extent

/-- What a closed store names is there, or is no node in either store. -/
theorem node?_eq (h : Recalls s t) (hn : s.Has n) : t.node? n = s.node? n := by
  rcases hn with rfl | hn
  · rfl
  · obtain ⟨node, hnode⟩ := Option.isSome_iff_exists.mp hn
    rw [hnode, h.node? hnode]

/-- What was read off the answers is read off again. -/
theorem optional? (h : Recalls s t) {side : Side} {links more : Nat} (hle : links ≤ more) {b : Bool}
    (hb : s.optional? side links n = some b) : t.optional? side more n = some b := by
  have hsame : ∀ links n, Store.optional? { t with lists := s.lists, archive := s.archive } side
      links n = t.optional? side links n := by
    intro links
    induction links with
    | zero => exact fun _ => rfl
    | succ links ih =>
      intro n
      have hnode : ({ t with lists := s.lists, archive := s.archive } : Store).node? n =
          t.node? n := by cases n <;> rfl
      unfold Store.optional?
      simp only [hnode, ih]
      rfl
  rw [← hsame]
  exact optional?_mono h.grows hle hb

end Recalls

variable {s t : Store}

/-! ### Questions asked again -/

/-- A lazy node that has answered is not asked again. -/
theorem run_resolve {n : NodeId} {r : Resolved} (h : s.resolved? n = some r) :
    resolve n s = (.ok r, s) := by
  unfold resolve
  rw [run_bind, run_get]
  dsimp only
  rw [h]
  rfl

/-- A lazy node that has answered answers the same, without its getter. -/
theorem resolve_again (hs : s.Closed) {n : NodeId} {r : Resolved} (h : Returns (resolve n) s r t)
    {u : Store} (hu : t.Recalls u) : resolve n u = (.ok r, u) :=
  run_resolve (hu.resolved (resolve_returns h hs))

/-- What can be read off is answered without a getter. -/
theorem isOptionalWithin_of_optional? {side : Side} {links : Nat} {n : NodeId} {b : Bool}
    (h : s.optional? side links n = some b) : isOptionalWithin side links n s = (.ok b, s) := by
  -- Induction on the links, in step with the question about answers that are known.
  induction links generalizing n with
  | zero => cases h
  | succ links ih =>
    unfold optional? at h
    cases hn : s.node? n with
    | none =>
      rw [hn] at h
      cases h
    | some node =>
      simp only [hn] at h
      have hfetch : fetch n s = (.ok node, s) := returns_fetch.mpr ⟨hn, rfl⟩
      unfold isOptionalWithin
      rw [run_bind, hfetch]
      dsimp only
      cases ho : node.optionality side with
      | known answer =>
        simp only [ho, Option.some.injEq] at h
        rw [h]
        rfl
      | sameAs m =>
        simp only [ho] at h ⊢
        split at h
        · rename_i hm
          rw [if_pos hm, Option.some.inj h]
          rfl
        · rename_i hm
          rw [if_neg hm]
          exact ih h
      | asResolved =>
        simp only [ho] at h
        split at h
        · rename_i m hm
          dsimp only
          rw [run_bind, run_resolve hm]
          exact ih h
        · cases h

/-- The question which properties must be there, asked again. -/
theorem requiredNames_again (hs : s.Closed) {side : Side} {shape : List (String × NodeId)}
    {names : List String} (h : Returns (requiredNames side shape) s names t) {u : Store}
    (hu : t.Recalls u) : requiredNames side shape u = (.ok names, u) := by
  induction shape generalizing s names with
  | nil =>
    obtain ⟨rfl, -⟩ := returns_pure.mp h
    rfl
  | cons p rest ih =>
    obtain ⟨name, child⟩ := p
    obtain ⟨skip, s₁, hskip, h₁⟩ := returns_bind.mp h
    obtain ⟨others, s₂, hothers, h₂⟩ := returns_bind.mp h₁
    obtain ⟨rfl, rfl⟩ := returns_pure.mp h₂
    obtain ⟨_, _, hget, hwithin⟩ := returns_bind.mp hskip
    obtain ⟨rfl, rfl⟩ := returns_get.mp hget
    obtain ⟨hkeeps, hread⟩ := (isOptionalWithin_meets side hs _ child).of_returns hwithin
    obtain ⟨hgrows, hclosed⟩ := hkeeps hs
    have hextends := (isOptionalWithin_extends side _ child).of_returns hwithin
    have hgrows' := ((requiredNames_keeps side rest).of_returns hothers hclosed).1
    have hextends' := (requiredNames_extends side rest).of_returns hothers
    -- The later store recalls what was known when this question was put.
    have hbefore : Recalls s₁ u := (Recalls.of_grows hgrows' hextends').trans hu
    have hbound := Nat.le_trans (extent_mono hextends) hbefore.extent
    have hskip' : isOptional side child u = (.ok skip, u) :=
      isOptionalWithin_of_optional? (hbefore.optional? (Nat.succ_le_succ hbound) hread)
    unfold requiredNames
    rw [run_bind, hskip']
    dsimp only
    rw [run_bind, ih hclosed hothers]
    rfl

end Store

/-! ### Descents extend the store -/

namespace Conversion

/-- The store of the one conversion extends that of the other. -/
def Extends (c d : Conversion) : Prop := c.store.Extends d.store

instance : Std.Refl Extends := ⟨fun c => .refl c.store⟩

instance : Trans Extends Extends Extends := ⟨Store.Extends.trans⟩

variable {guide : Guide} {visit : NodeId → Path → Action Conversion Unit} {α : Type}

/-- What extends the store extends the conversion. -/
theorem onStore_extends {a : Action Store α} (h : Within Store.Extends a) :
    Within Extends (onStore a) := fun c => h c.store

/-- A change of the survey leaves the store. -/
theorem onSurvey_extends (f : Survey → Survey) : Within Extends (onSurvey f) :=
  fun c => Store.Extends.refl c.store

/-- A failure extends the store by events at most. -/
theorem fail_extends (f : Failure) : Within Extends (Conversion.fail f : Action Conversion α) :=
  onStore_extends (Store.fail_extends f)

/-- The steps at a node extend the store. -/
theorem treads_extends (n : NodeId) : Treads n Extends where
  fetch := onStore_extends (Store.fetch_extends n)
  requiredNames side shape := onStore_extends (Store.requiredNames_extends side shape)
  resolve := onStore_extends (Store.resolve_extends n)
  fail := fail_extends
  write _ _ := onSurvey_extends _
  merge _ := onSurvey_extends _
  passOn _ := onSurvey_extends _
  prefault _ := onSurvey_extends _
  settle _ := onSurvey_extends _

/-- A step extends the store if the visits to children do. -/
theorem perform_extends {side : Side} (hvisit : ∀ m path, Within Extends (visit m path))
    (n : NodeId) (step : Step) : Within Extends (perform side visit n step) :=
  (treads_extends n).perform hvisit step fun _ _ _ => onSurvey_extends _

/-- Describing a node extends the store if the visits to children do. -/
theorem lower_extends (hvisit : ∀ m path, Within Extends (visit m path)) (n : NodeId)
    (path : Path) : Within Extends (lower guide visit n path) :=
  (treads_extends n).lower hvisit (fun _ => onSurvey_extends _) path

/-- Arrivals extend the store. By induction on the depth. -/
theorem arrive_extends (depth : Nat) (ancestors : List NodeId) (n : NodeId) (path : Path) :
    Within Extends (arrive guide depth ancestors n path) := by
  induction depth generalizing ancestors n path with
  | zero =>
    unfold arrive
    refine .bind within_get fun c => ?_
    split
    · exact revisit_extends ancestors n path
    · exact .bind (onSurvey_extends _) fun _ => fail_extends _
  | succ depth ih =>
    unfold arrive
    refine .bind within_get fun c => ?_
    split
    · exact revisit_extends ancestors n path
    · exact .bind (onSurvey_extends _) fun _ => lower_extends (fun m path => ih _ m path) n path
where
  /-- Another arrival leaves at most an event. -/
  revisit_extends (ancestors : List NodeId) (n : NodeId) (path : Path) :
      Within Extends (revisit ancestors n path) := by
    refine .bind (onSurvey_extends _) fun _ => ?_
    split
    · exact .bind (onSurvey_extends _) fun _ => onStore_extends (Store.log_extends _)
    · exact within_pure _

end Conversion

/-- The visits of roots extend the store, whatever comes of them. -/
theorem Converter.processAll_extends (conv : Converter) (roots : List NodeId) :
    Within Conversion.Extends (conv.processAll roots) := by
  induction roots with
  | nil => exact within_pure _
  | cons root rest ih =>
    refine .bind (.bind (.bind within_get fun c => ?_) fun _ => .bind within_get fun _ => ?_)
      fun _ => ih
    · exact Conversion.arrive_extends _ _ _ _
    · exact Conversion.onStore_extends (Store.log_extends _)

/-! ### Actions done again -/

namespace Conversion

/-- A conversion with another store and another number of its survey. -/
def retold (c : Conversion) (store : Store) (number : Nat) (events : List Event) : Conversion :=
  { c with store := { store with events }, survey := { c.survey with number } }

end Conversion

namespace Action

open Conversion

variable {α β : Type}

/-- When the one action has returned from a closed store, the other one does the same over each
    store that recalls the one that was left, and changes nothing there but events. -/
structure Replays (a b : Action Conversion α) : Prop where
  recalls : ∀ {c x d}, c.store.Closed → Returns a c x d →
    c.store.Recalls d.store ∧ d.store.Closed
  again : ∀ {c x d}, c.store.Closed → Returns a c x d → ∀ {s : Store} (number : Nat)
    (events : List Event), d.store.Recalls s →
      ∃ events', b (c.retold s number events) = (.ok x, d.retold s number events')

/-- Actions one after the other are done again if each of them is. -/
theorem Replays.bind {a b : Action Conversion α} {f g : α → Action Conversion β}
    (ha : Replays a b) (hf : ∀ x, Replays (f x) (g x)) : Replays (a >>= f) (b >>= g) where
  recalls hc h := by
    obtain ⟨x, c', h₁, h₂⟩ := returns_bind.mp h
    obtain ⟨hrecalls, hc'⟩ := ha.recalls hc h₁
    obtain ⟨hrecalls', hd⟩ := (hf x).recalls hc' h₂
    exact ⟨hrecalls.trans hrecalls', hd⟩
  again hc h s number events hs := by
    obtain ⟨x, c', h₁, h₂⟩ := returns_bind.mp h
    obtain ⟨-, hc'⟩ := ha.recalls hc h₁
    obtain ⟨hrecalls, -⟩ := (hf x).recalls hc' h₂
    obtain ⟨events₁, hb⟩ := ha.again hc h₁ number events (hrecalls.trans hs)
    obtain ⟨events₂, hg⟩ := (hf x).again hc' h₂ number events₁ hs
    refine ⟨events₂, ?_⟩
    rw [run_bind, hb]
    exact hg

/-- A result alone is done again. -/
theorem replays_pure (x : α) : Replays (pure x) (pure x) where
  recalls hc h := by
    obtain ⟨-, rfl⟩ := returns_pure.mp h
    exact ⟨.refl _, hc⟩
  again _ h s number events _ := by
    obtain ⟨rfl, rfl⟩ := returns_pure.mp h
    exact ⟨events, rfl⟩

/-- A question to the store that is answered again without changing it. -/
theorem replays_onStore {a : Action Store α} (hk : Within Store.Keeps a)
    (he : Within Store.Extends a)
    (hagain : ∀ {s x t}, s.Closed → Returns a s x t → ∀ {u : Store}, t.Recalls u →
      a u = (.ok x, u)) : Replays (onStore a) (onStore a) := by
  refine ⟨fun hc h => ?_, fun {c x d} hc h s number events hs => ⟨events, ?_⟩⟩
  · obtain ⟨t, hrun, rfl⟩ := returns_onStore.mp h
    obtain ⟨hgrows, hclosed⟩ := hk.of_returns hrun hc
    exact ⟨.of_grows hgrows (he.of_returns hrun), hclosed⟩
  · obtain ⟨t, hrun, rfl⟩ := returns_onStore.mp h
    have hu : t.Recalls { s with events } := ⟨hs.nodes, hs.resolved, hs.notes, hs.extent⟩
    exact returns_onStore.mpr ⟨_, hagain hc hrun hu, rfl⟩

/-- A change to a visit is done again. -/
theorem replays_onVisit (n : NodeId) (f : Visit → Visit) :
    Replays (onVisit n f) (onVisit n f) where
  recalls hc h := by
    obtain rfl := returns_modify.mp h
    exact ⟨.refl _, hc⟩
  again _ h s number events _ := by
    obtain rfl := returns_modify.mp h
    exact ⟨events, rfl⟩

/-- An event is recorded again, and may be another one. -/
theorem replays_log (e e' : Event) : Replays (Conversion.log e) (Conversion.log e') where
  recalls {c _ _} hc h := by
    obtain rfl := congrArg (·.2) h
    have hmakes := Store.log_makes e c.store hc
    exact ⟨.of_grows hmakes.grows (Store.log_extends e c.store), hmakes.closed⟩
  again _ h s number events _ := by
    obtain rfl := congrArg (·.2) h
    exact ⟨events ++ [e'], rfl⟩

/-- What fails is not done again. -/
theorem replays_fail (f : Failure) (b : Action Conversion α) :
    Replays (Conversion.fail f : Action Conversion α) b where
  recalls _ h := absurd h Conversion.not_returns_fail
  again _ h := absurd h Conversion.not_returns_fail

end Action

namespace Conversion

variable {guide : Guide} {visit visit' : NodeId → Path → Action Conversion Unit}

/-! ### Descents -/

/-- A step is done again if the visits to children are. -/
theorem replays_perform {side : Side} (hvisit : ∀ m path, Replays (visit m path) (visit' m path))
    (n : NodeId) (step : Step) :
    Replays (perform side visit n step) (perform side visit' n step) := by
  -- Only the questions to the store need an argument: the store recalls their answers.
  cases step with
  | write key value => exact replays_onVisit n _
  | merge entries => exact replays_onVisit n _
  | visit child path => exact hvisit child path
  | property name child => exact replays_onVisit n _
  | require shape =>
    have hask := replays_onStore (Store.requiredNames_keeps side shape)
      (Store.requiredNames_extends side shape) fun hs h _ => Store.requiredNames_again hs h
    exact hask.bind fun names => replays_onVisit n _
  | inherit child path => exact (hvisit child path).bind fun _ => replays_onVisit n _
  | inheritResolved path =>
    have hask := replays_onStore (Store.resolve_keeps n) (Store.resolve_extends n)
      fun hs h _ => Store.resolve_again hs h
    refine hask.bind fun answer => ?_
    cases answer with
    | node child => exact (hvisit child path).bind fun _ => replays_onVisit n _
    | value v => exact replays_fail _ _
  | inheritSource child path =>
    refine (replays_onVisit n _).bind fun _ => (hvisit child path).bind fun _ => ?_
    exact replays_onVisit child _
  | prefault v => exact replays_onVisit n _
  | fail f => exact replays_fail f _

/-- Steps are done again if the visits to children are. By induction on the steps. -/
theorem replays_performAll {side : Side}
    (hvisit : ∀ m path, Replays (visit m path) (visit' m path)) (n : NodeId) (steps : List Step) :
    Replays (performAll side visit n steps) (performAll side visit' n steps) := by
  induction steps with
  | nil => exact replays_pure _
  | cons step rest ih => exact (replays_perform hvisit n step).bind fun _ => ih

/-- A visit to a node that was visited before is done again. -/
theorem replays_revisit (ancestors : List NodeId) (n : NodeId) (path : Path) :
    Replays (revisit ancestors n path) (revisit ancestors n path) := by
  refine (replays_onVisit n _).bind fun _ => ?_
  split
  · exact (replays_onVisit n _).bind fun _ => replays_log _ _
  · exact replays_pure _

/-- What is done with a node behind its recipe, if its annotation is known. -/
def polish (guide : Guide) (n : NodeId) (kind : Kind) (notes : Option Entries) :
    Action Conversion Unit := do
  match notes with
  | some notes => onFragment n fun e => e.update notes
  | none => pure ()
  if guide.settings.side = .input then onVisit n (settleDefault kind)

/-- What is done with a node behind its recipe is done again. -/
theorem replays_polish (n : NodeId) (kind : Kind) (notes : Option Entries) :
    Replays (polish guide n kind notes) (polish guide n kind notes) := by
  have hdefault : Replays
      (if guide.settings.side = .input then onVisit n (settleDefault kind) else pure ())
      (if guide.settings.side = .input then onVisit n (settleDefault kind) else pure ()) := by
    split
    · exact replays_onVisit n _
    · exact replays_pure _
  cases notes with
  | some notes => exact (replays_onVisit n _).bind fun _ => hdefault
  | none => exact (replays_pure ()).bind fun _ => hdefault

/-- What a node is lowered by, once the node is known. -/
theorem run_lower {c : Conversion} {n : NodeId} {node : Node} (hn : c.store.node? n = some node)
    (path : Path) :
    lower guide visit n path c =
      (do
        performAll guide.settings.side visit n (node.recipe guide.settings
          ((c.store.node? node.catchall).map Node.kind) path)
        let d ← get
        polish guide n node.kind ((d.store.catalog guide.catalog).get? n)) c := by
  have hfetch : onStore (Store.fetch n) c = (.ok node, c) :=
    returns_onStore.mpr ⟨_, Store.returns_fetch.mpr ⟨hn, rfl⟩, rfl⟩
  unfold lower
  rw [run_bind, hfetch]
  dsimp only
  rw [run_bind, run_get]
  dsimp only
  rw [run_bind, run_bind]
  rcases performAll guide.settings.side visit n _ c with ⟨f | _, d⟩
  · rfl
  · dsimp only
    rw [run_bind, run_bind, run_get]
    dsimp only
    unfold annotate polish
    rw [run_bind, run_get]
    dsimp only
    cases (d.store.catalog guide.catalog).get? n <;> rfl

/-- A lowering that returns has found its node. -/
theorem exists_node_of_lower {c d : Conversion} {n : NodeId} {path : Path}
    (h : Returns (lower guide visit n path) c () d) : ∃ node, c.store.node? n = some node := by
  obtain ⟨node, c', hfetch, -⟩ := returns_bind.mp h
  obtain ⟨s, hfound, -⟩ := returns_onStore.mp hfetch
  exact ⟨node, (Store.returns_fetch.mp hfound).1⟩

/-- Describing a node is done again if the visits to children are. -/
theorem replays_lower (hvisit : ∀ m path, Replays (visit m path) (visit' m path)) (n : NodeId)
    (path : Path) : Replays (lower guide visit n path) (lower guide visit' n path) := by
  have hperform : ∀ steps, Replays (performAll guide.settings.side visit n steps)
      (performAll guide.settings.side visit' n steps) := replays_performAll hvisit n
  refine ⟨fun {c _ d} hc h => ?_, fun {c _ d} hc h s number events hs => ?_⟩
  · obtain ⟨node, hn⟩ := exists_node_of_lower h
    unfold Returns at h
    rw [run_lower hn] at h
    obtain ⟨_, c', hall, h₁⟩ := returns_bind.mp h
    obtain ⟨_, _, hget, hpolish⟩ := returns_bind.mp h₁
    obtain ⟨rfl, rfl⟩ := returns_get.mp hget
    obtain ⟨hrecalls, hc'⟩ := (hperform _).recalls hc hall
    obtain ⟨hrecalls', hd⟩ := (replays_polish n node.kind _).recalls hc' hpolish
    exact ⟨hrecalls.trans hrecalls', hd⟩
  · obtain ⟨node, hn⟩ := exists_node_of_lower h
    unfold Returns at h
    rw [run_lower hn] at h
    obtain ⟨_, _, hall, h₁⟩ := returns_bind.mp h
    obtain ⟨_, c', hget, hpolish⟩ := returns_bind.mp h₁
    obtain ⟨rfl, rfl⟩ := returns_get.mp hget
    obtain ⟨hrecalls, hc'⟩ := (hperform _).recalls hc hall
    obtain ⟨hrecalls', -⟩ := (replays_polish n node.kind _).recalls hc' hpolish
    have hs' := hrecalls'.trans hs
    have hs₀ := hrecalls.trans hs'
    -- the node, its catchall and its annotation are the same
    have hnode : (c.retold s number events).store.node? n = some node := by
      rw [← hs₀.node? hn]
      cases n <;> rfl
    have hcatchall : (c.retold s number events).store.node? node.catchall =
        c.store.node? node.catchall := by
      rw [← hs₀.node?_eq (hc.links hn _ (by simp [Node.links]))]
      cases node.catchall <;> rfl
    obtain ⟨events₁, hall'⟩ := (hperform _).again hc hall number events hs'
    have hnotes : ((c'.retold s number events₁).store.catalog guide.catalog).get? n =
        (c'.store.catalog guide.catalog).get? n :=
      hs'.notes guide.catalog (hrecalls.isSome (by rw [hn]; rfl))
    rw [run_lower hnode, hcatchall, run_bind, hall']
    dsimp only
    rw [run_bind, run_get]
    dsimp only
    rw [hnotes]
    exact (replays_polish n node.kind _).again hc' hpolish number events₁ hs

/-- **Arrivals again.** An arrival that has returned is done again, if it may go as deep. -/
theorem replays_arrive {depth more : Nat} (hle : depth ≤ more) (ancestors : List NodeId)
    (n : NodeId) (path : Path) :
    Replays (arrive guide depth ancestors n path) (arrive guide more ancestors n path) := by
  induction depth generalizing more ancestors n path with
  | zero =>
    -- Without depth only nodes that were visited before can be arrived at.
    have hcases : ∀ {c d : Conversion}, Returns (arrive guide 0 ancestors n path) c () d →
        c.survey.has n = true ∧ Returns (revisit ancestors n path) c () d := by
      intro c d h
      unfold Returns at h
      rw [arrive_eq] at h
      split at h
      · rename_i hn
        exact ⟨hn, h⟩
      · exact absurd h not_returns_fail
    refine ⟨fun hc h => (replays_revisit ancestors n path).recalls hc (hcases h).2,
      fun {c _ d} hc h s number events hs => ?_⟩
    obtain ⟨hn, hrevisit⟩ := hcases h
    rw [arrive_eq, if_pos (show (c.retold s number events).survey.has n = true from hn)]
    exact (replays_revisit ancestors n path).again hc hrevisit number events hs
  | succ depth ih =>
    obtain ⟨more, rfl⟩ : ∃ k, more = k + 1 := ⟨more - 1, by omega⟩
    -- The node itself is above those that it leads to, with one level less on both sides.
    have hlower : Replays (lower guide (arrive guide depth (n :: ancestors)) n path)
        (lower guide (arrive guide more (n :: ancestors)) n path) :=
      replays_lower (fun m path => ih (Nat.le_of_succ_le_succ hle) (n :: ancestors) m path) n path
    refine ⟨fun {c _ d} hc h => ?_, fun {c _ d} hc h s number events hs => ?_⟩
    · unfold Returns at h
      rw [arrive_eq] at h
      split at h
      · exact (replays_revisit ancestors n path).recalls hc h
      · exact hlower.recalls (c := c.entered n) hc h
    · unfold Returns at h
      rw [arrive_eq] at h ⊢
      have hhas : (c.retold s number events).survey.has n = c.survey.has n := rfl
      rw [hhas]
      split at h
      · rename_i hn
        rw [if_pos hn]
        exact (replays_revisit ancestors n path).again hc h number events hs
      · rename_i hn
        rw [if_neg hn]
        exact hlower.again (c := c.entered n) hc h number events hs

/-- A descent is done again. -/
theorem replays_visit (n : NodeId) (path : Path) :
    Replays (Conversion.visit guide n [] path) (Conversion.visit guide n [] path) := by
  have harrive : ∀ {depth more : Nat}, depth ≤ more →
      Replays (arrive guide depth [] n path) (arrive guide more [] n path) :=
    fun hle => replays_arrive hle [] n path
  refine ⟨fun {c _ _} hc h => ?_, fun {c _ d} hc h s number events hs => ?_⟩
  · unfold Returns at h
    rw [visit_eq] at h
    exact (harrive (Nat.le_refl _)).recalls hc h
  · unfold Returns at h
    rw [visit_eq] at h
    have hrecalls := ((harrive (Nat.le_refl _)).recalls hc h).1
    have hbound := (hrecalls.trans hs).extent
    rw [visit_eq]
    exact (harrive (Nat.add_le_add_right hbound 2)).again hc h number events hs

end Conversion

namespace Converter

/-- The visit of a root is done again. -/
theorem replays_process (conv : Converter) (root : NodeId) :
    Replays (conv.process root) (conv.process root) := by
  refine (Conversion.replays_visit root []).bind fun _ =>
    ⟨fun {c _ _} hc h => ?_, fun {c _ d} hc h s number events hs => ?_⟩
  · obtain ⟨_, _, hget, hlog⟩ := returns_bind.mp h
    obtain ⟨rfl, rfl⟩ := returns_get.mp hget
    exact (replays_log _ (conv.processedEvent "" 0)).recalls hc hlog
  · obtain ⟨_, _, hget, hlog⟩ := returns_bind.mp h
    obtain ⟨rfl, rfl⟩ := returns_get.mp hget
    exact (replays_log _ _).again hc hlog number events hs

/-- **Descents again.** The visits of several roots are done again. -/
theorem replays_processAll (conv : Converter) (roots : List NodeId) :
    Replays (conv.processAll roots) (conv.processAll roots) := by
  induction roots with
  | nil => exact replays_pure _
  | cons root rest ih => exact (replays_process conv root).bind fun _ => ih

end Converter

end SchemaGraph
