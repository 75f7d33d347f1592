import Mathlib.Logic.Relation
import SchemaGraph.Proofs.Store.Echoes
import SchemaGraph.Proofs.Survey.Relaxing
import SchemaGraph.Proofs.Survey.Retracing

namespace SchemaGraph

open SchemaGraph.Action Relation

/-!
# Questions that run in a circle

Whether a node is optional is asked along links, from a wrapper to the node inside, from a clone to
its source, from a lazy node to what it stands for.  Among finitely many nodes there are two ways to
go on for ever: the links lead back to a node that was asked before, or lazy nodes make new nodes
without end.

* `Store.Asked s t`     — what becomes of a store when lazy nodes are asked
* `Store.Definite`      — however many lazy nodes are asked, the bound for descents holds
* `Store.Circles`       — the question about a node comes back to a node that was asked before
* `Store.circles_of_endless`, `Store.Circles.endless` — a question is endless where it runs in a circle
* `Store.definite_of_settled` — a store whose lazy nodes make no new nodes is definite
-/

namespace Store

/-! ### Lazy nodes that are asked -/

/-- What becomes of a store when lazy nodes are asked, and events are recorded, in any order. -/
inductive Asked : Store → Store → Prop
  | refl (s : Store) : Asked s s
  | event {s t : Store} (h : Asked s t) (e : Event) : Asked s (t.record e)
  | answer {s t : Store} (h : Asked s t) (n : NodeId) : Asked s (resolve n t).2

/-- The lazy nodes of a finite graph: however many of them are asked, there are never more nodes
    than the bound for descents, and every getter comes to an end. -/
structure Definite (s : Store) : Prop where
  few : ∀ {t}, s.Asked t → t.nodes.length ≤ s.extent
  ends : ∀ {t}, s.Asked t → ∀ n, (resolve n t).1 ≠ .error .endless

/-- Asking on is asking. -/
theorem Asked.trans {s t u : Store} (h₁ : s.Asked t) (h₂ : t.Asked u) : s.Asked u := by
  induction h₂ with
  | refl => exact h₁
  | event _ e ih => exact .event ih e
  | answer _ n ih => exact .answer ih n

instance : Std.Refl Asked := ⟨Asked.refl⟩

instance : Trans Asked Asked Asked := ⟨Asked.trans⟩

/-- Asking lazy nodes extends the store. -/
theorem Asked.extends {s t : Store} (h : s.Asked t) : s.Extends t := by
  induction h with
  | refl => exact .refl _
  | event _ e ih => exact ih.trans (log_extends e _)
  | answer _ n ih => exact ih.trans (resolve_extends n _)

variable {α : Type} {s t : Store} {side : Side} {links : Nat} {n m : NodeId}

/-- A failure asks nothing. -/
theorem fail_asked (f : Failure) : Within Asked (fail f : Action Store α) := by
  unfold fail
  split
  · exact .bind (fun s => .event (.refl s) _) fun _ => within_throw f
  · exact within_throw f

/-- Looking a node up asks nothing. -/
theorem fetch_asked (n : NodeId) : Within Asked (fetch n) := by
  refine .bind within_get fun s => ?_
  split
  · exact within_pure _
  · exact fail_asked _

/-- Resolving a node asks it at most. -/
theorem resolve_asked (n : NodeId) : Within Asked (resolve n) := fun s => .answer (.refl s) n

/-- The question whether a node is optional asks nothing but lazy nodes: induction on the links. -/
theorem isOptionalWithin_asked (side : Side) (links : Nat) (n : NodeId) :
    Within Asked (isOptionalWithin side links n) := by
  induction links generalizing n with
  | zero => exact fail_asked _
  | succ links ih =>
    refine .bind (fetch_asked n) fun node => ?_
    split
    · exact within_pure _
    · split
      · exact within_pure _
      · exact ih _
    · refine .bind (resolve_asked n) fun answer => ?_
      split
      · exact ih _
      · exact fail_asked _

/-- So does the search for the properties that are required: induction on the shape. -/
theorem requiredNames_asked (side : Side) (shape : List (String × NodeId)) :
    Within Asked (requiredNames side shape) := by
  induction shape with
  | nil => exact within_pure _
  | cons p rest ih =>
    obtain ⟨name, child⟩ := p
    refine .bind (.bind within_get fun s => isOptionalWithin_asked side _ child) fun skip => ?_
    exact .bind ih fun names => within_pure _

/-! ### Circles -/

/-- The question whether a node is optional is passed on to another node. -/
def Defers (s : Store) (side : Side) (n m : NodeId) : Prop :=
  ∃ node, s.node? n = some node ∧
    ((node.optionality side = .sameAs m ∧ m ≠ .gap) ∨
      (node.optionality side = .asResolved ∧ s.resolved? n = some (.node m)))

/-- The question whether a node is optional comes back to a node that was asked before. -/
def Circles (s : Store) (side : Side) (n : NodeId) : Prop :=
  ∃ m, ReflTransGen (s.Defers side) n m ∧ TransGen (s.Defers side) m m

/-- A question that is passed on is still passed on to the same node when the store has grown. -/
theorem Defers.mono (h : Grows s t) (hd : s.Defers side n m) : t.Defers side n m := by
  obtain ⟨node, hn, hd⟩ := hd
  exact ⟨node, h.node? hn, hd.imp id fun ⟨ho, hm⟩ => ⟨ho, h.resolved hm⟩⟩

/-- A question that runs in a circle still does when the store has grown. -/
theorem Circles.mono (h : Grows s t) (hc : s.Circles side n) : t.Circles side n := by
  obtain ⟨m, hm, hloop⟩ := hc
  have hdefers : ∀ a b, s.Defers side a b → t.Defers side a b := fun _ _ hd => hd.mono h
  exact ⟨m, ReflTransGen.mono hdefers _ _ hm, TransGen.mono hdefers _ _ hloop⟩

/-- A question runs in a circle if it is passed on to one that does. -/
theorem Circles.cons (h : s.Defers side n m) (hc : s.Circles side m) : s.Circles side n := by
  obtain ⟨k, hk, hloop⟩ := hc
  exact ⟨k, .head h hk, hloop⟩

/-- A question that runs in a circle is passed on, and the next one runs in a circle too. -/
theorem Circles.next (hc : s.Circles side n) : ∃ m, s.Defers side n m ∧ s.Circles side m := by
  obtain ⟨k, hk, hloop⟩ := hc
  rcases hk.cases_head with rfl | ⟨m, hm, hmk⟩
  · obtain ⟨m, hm, hmn⟩ := TransGen.head'_iff.mp hloop
    exact ⟨m, hm, n, hmn, hloop⟩
  · exact ⟨m, hm, k, hmk, hloop⟩

/-- Where a question is passed on, it is answered over one link less. -/
theorem optional?_of_defers (hd : s.Defers side n m) :
    s.optional? side (links + 1) n = s.optional? side links m := by
  obtain ⟨node, hn, ⟨ho, hm⟩ | ⟨ho, hm⟩⟩ := hd
  · simp only [optional?, hn, ho, if_neg hm]
  · simp only [optional?, hn, ho, hm]

/-- A question that runs in a circle has no answer. -/
theorem Circles.optional?_eq (hc : s.Circles side n) : s.optional? side links n = none := by
  induction links generalizing n with
  | zero => rfl
  | succ links ih =>
    obtain ⟨m, hm, hnext⟩ := hc.next
    rw [optional?_of_defers hm, ih hnext]

/-- Where it is known which properties must be there, it is known of each of them. -/
theorem optional?_of_required {shape : List (String × NodeId)} {names : List String}
    (h : s.required? side links shape = some names) :
    ∀ p ∈ shape, ∃ b, s.optional? side links p.2 = some b := by
  induction shape generalizing names with
  | nil => nofun
  | cons p rest ih =>
    obtain ⟨name, child⟩ := p
    unfold required? at h
    split at h
    · rename_i skip others hskip hothers
      exact List.forall_mem_cons.mpr ⟨⟨skip, hskip⟩, ih hothers⟩
    · cases h

/-- Where a question is passed on, the next node is asked over one link less. -/
theorem isOptionalWithin_of_defers (hd : s.Defers side n m) :
    isOptionalWithin side (links + 1) n s = isOptionalWithin side links m s := by
  obtain ⟨node, hn, hd⟩ := hd
  have hfetch : fetch n s = (.ok node, s) := returns_fetch.mpr ⟨hn, rfl⟩
  unfold isOptionalWithin
  rw [run_bind, hfetch]
  dsimp only
  rcases hd with ⟨ho, hm⟩ | ⟨ho, hm⟩
  · simp only [ho, if_neg hm]
    cases links <;> rfl
  · simp only [ho]
    rw [run_bind, run_resolve hm]
    cases links <;> rfl

/-- **Circles are endless.** A question that runs in a circle fails as endless, however many links it
    may be passed on over. -/
theorem Circles.endless (hc : s.Circles side n) (links : Nat) :
    isOptionalWithin side links n s = (.error .endless, s) := by
  induction links generalizing n with
  | zero => rfl
  | succ links ih =>
    obtain ⟨m, hm, hnext⟩ := hc.next
    rw [isOptionalWithin_of_defers hm, ih hnext]

/-- Looking a node up comes to an end. -/
theorem fetch_ne_endless (n : NodeId) : (fetch n s).1 ≠ .error .endless := by
  intro h
  have hraises : Raises (· ≠ .endless) (fetch n) := by
    refine .bind raises_get fun s => ?_
    split
    · exact raises_pure _
    · exact raises_fail (by simp)
  exact hraises.of_error h rfl

/-- A node that was asked before is met again: the nodes that were asked since then lead back. -/
theorem defers_back {path : List NodeId}
    (hchain : List.IsChain (fun a b => s.Defers side b a) (n :: path)) (hmem : n ∈ path) :
    TransGen (s.Defers side) n n := by
  have hall : List.IsChain (fun a b => TransGen (s.Defers side) b a) (n :: path) :=
    hchain.imp fun _ _ hd => .single hd
  have htrans : Trans (fun a b => TransGen (s.Defers side) b a)
      (fun a b => TransGen (s.Defers side) b a) fun a b => TransGen (s.Defers side) b a :=
    ⟨fun h₁ h₂ => h₂.trans h₁⟩
  exact List.rel_of_pairwise_cons (List.isChain_iff_pairwise.mp hall) hmem

/-- What a question that fails as endless leaves: it was passed on, and failed there. -/
theorem passed_of_endless {base : Store} (hbase : base.Definite) (hs : s.Closed)
    (hasked : base.Asked s) (h : (isOptionalWithin side (links + 1) n s).1 = .error .endless) :
    ∃ m t, (s.node? n).isSome ∧ s.Asked t ∧ Keeps s t ∧ t.Defers side n m ∧
      isOptionalWithin side (links + 1) n s = isOptionalWithin side links m t := by
  rcases error_of_bind h with hfetch | ⟨node, t, hfetch, h⟩
  · exact absurd hfetch (fetch_ne_endless n)
  obtain ⟨hn, hts⟩ := returns_fetch.mp hfetch
  rw [hts] at hfetch h
  have hexists : (s.node? n).isSome := by rw [hn]; rfl
  -- A known answer is no endless question; otherwise it is asked of another node, with one link
  -- less.
  cases ho : node.optionality side with
  | known answer =>
    simp only [ho] at h
    cases h
  | sameAs m =>
    by_cases hm : m = .gap
    · simp only [ho, if_pos hm] at h
      cases h
    · have hdefers : s.Defers side n m := ⟨node, hn, .inl ⟨ho, hm⟩⟩
      exact ⟨m, s, hexists, .refl s, fun hs => ⟨.refl s, hs⟩, hdefers,
        isOptionalWithin_of_defers hdefers⟩
  | asResolved =>
    simp only [ho] at h
    rcases error_of_bind h with hresolve | ⟨answer, t, hresolve, h⟩
    · exact absurd hresolve (hbase.ends hasked n)
    -- The lazy node answers by itself, in a definite graph.
    have hst : s.Asked t := (resolve_asked n).of_returns hresolve
    have hkeeps : Keeps s t := (resolve_keeps n).of_returns hresolve
    cases answer with
    | value v => exact absurd ((raises_fail (P := (· ≠ .endless)) (by simp)).of_error h rfl) id
    | node m =>
      refine ⟨m, t, hexists, hst, hkeeps, ?_, ?_⟩
      · exact ⟨node, (hkeeps hs).1.node? hn, .inr ⟨ho, resolve_returns hresolve hs⟩⟩
      · unfold isOptionalWithin
        rw [run_bind, hfetch]
        simp only [ho]
        rw [run_bind, hresolve]
        cases links <;> rfl

/-- **Endless questions circle.** A question that fails as endless, though it may be passed on more
    often than there are nodes, has come back to a node that was asked before: `path` holds those
    that were, the last one first. -/
theorem circles_of_endless {base : Store} (hbase : base.Definite) (hs : s.Closed)
    (hasked : base.Asked s) {path : List NodeId} (hnodup : path.Nodup)
    (hpath : ∀ p ∈ path, (s.node? p).isSome)
    (hchain : List.IsChain (fun a b => s.Defers side b a) (n :: path))
    (hlinks : base.extent < links + path.length)
    (h : (isOptionalWithin side links n s).1 = .error .endless) :
    (isOptionalWithin side links n s).2.Circles side n := by
  induction links generalizing s n path with
  | zero =>
    by_cases hmem : n ∈ path
    · exact ⟨n, .refl, defers_back hchain hmem⟩
    · have hfew := hbase.few hasked
      have hlength := length_le_of_nodup hnodup hpath
      omega
  | succ links ih =>
    have hgrows : Grows s (isOptionalWithin side (links + 1) n s).2 :=
      ((isOptionalWithin_meets side hs (links + 1) n).state_of_and hs).1
    -- The nodes asked so far differ, so the links cannot run out before one of them comes back.
    by_cases hmem : n ∈ path
    · exact Circles.mono hgrows ⟨n, .refl, defers_back hchain hmem⟩
    · obtain ⟨m, t, hn, hst, hkeeps, hdefers, hrun⟩ := passed_of_endless hbase hs hasked h
      obtain ⟨hst', ht⟩ := hkeeps hs
      have hchain' : List.IsChain (fun a b => t.Defers side b a) (m :: n :: path) :=
        List.isChain_cons_cons.mpr ⟨hdefers, hchain.imp fun _ _ hd => hd.mono hst'⟩
      have hexists : ∀ p ∈ n :: path, (t.node? p).isSome :=
        List.forall_mem_cons.mpr ⟨hst'.isSome hn, fun p hp => hst'.isSome (hpath p hp)⟩
      have hgrows' : Grows t (isOptionalWithin side links m t).2 :=
        ((isOptionalWithin_meets side ht links m).state_of_and ht).1
      rw [hrun] at h ⊢
      have hcircles := ih ht (hasked.trans hst) (List.nodup_cons.mpr ⟨hmem, hnodup⟩) hexists hchain'
        (by rw [List.length_cons]; omega) h
      exact hcircles.cons (hdefers.mono hgrows')

/-- The question which properties must be there fails as endless where that about one of them runs
    in a circle. -/
theorem circles_of_required {base : Store} (hbase : base.Definite) (hs : s.Closed)
    (hasked : base.Asked s) (shape : List (String × NodeId)) :
    Explains (fun t f => f = .endless → ∃ p ∈ shape, t.Circles side p.2)
      (requiredNames side shape) s := by
  induction shape generalizing s with
  | nil => exact explains_pure _
  | cons p rest ih =>
    obtain ⟨name, child⟩ := p
    refine Explains.bind (fun f t hrun hf => ?_) fun skip t hskip => ?_
    · have hask : isOptionalWithin side (s.extent + 1) child s = (.error .endless, t) := hf ▸ hrun
      have hextent := extent_mono hasked.extends
      have hcircles := circles_of_endless hbase hs hasked List.nodup_nil nofun
        (List.isChain_singleton child) (Nat.lt_add_right _ (Nat.lt_succ_of_le hextent))
        (congrArg (·.1) hask)
      rw [hask] at hcircles
      exact ⟨_, List.mem_cons_self .., hcircles⟩
    · have hst : s.Asked t := (isOptionalWithin_asked side _ child).of_returns hskip
      have ht : t.Closed := ((isOptional_meets side hs child).of_returns hskip).1 hs |>.2
      refine Explains.bind (fun f u hrun hf => ?_) fun names _ _ => explains_pure _
      obtain ⟨q, hq, hcircles⟩ := ih ht (hasked.trans hst) f u hrun hf
      exact ⟨q, List.mem_cons_of_mem _ hq, hcircles⟩

/-! ### Lazy nodes that make nothing -/

/-- A lazy node that has yet to answer makes no node when it is asked: it stands for a node that
    there is, or for none. -/
def Settled (s : Store) : Prop :=
  ∀ {n node i g b}, s.node? n = some node → node.getter = some i → s.getters[i]? = some g →
    g.source = .fresh b → (s.resolved? n).isSome

/-- The store holds the same nodes and getters, and at least the same answers. -/
structure Calm (s t : Store) : Prop where
  nodes : t.nodes = s.nodes
  sources : t.getters.map (·.source) = s.getters.map (·.source)
  resolved : ∀ {n}, (s.resolved? n).isSome → (t.resolved? n).isSome

/-- A store is as calm as itself. -/
theorem Calm.refl (s : Store) : s.Calm s := ⟨rfl, rfl, id⟩

/-- What is asked in a settled store of a lazy node that has yet to answer makes no node. -/
theorem Settled.source (hs : s.Settled) (h : s.Calm t) {node : Node} {i : Nat} {source : Source}
    (hn : t.node? n = some node) (hnone : t.resolved? n = none)
    (hsource : (node.getter.bind fun i => t.getters[i]?.map fun g => (i, g.source)) =
      some (i, source)) (b : Blueprint) : source ≠ .fresh b := by
  rintro rfl
  obtain ⟨j, hj, hpair⟩ := Option.bind_eq_some_iff.mp hsource
  obtain ⟨g, hg, hpair⟩ := Option.map_eq_some_iff.mp hpair
  obtain ⟨rfl, hfresh⟩ := Prod.mk.inj hpair
  have hn : s.node? n = some node := by
    cases n with
    | gap => cases hn
    | node k =>
      rw [node?, h.nodes] at hn
      exact hn
  have hmap : (s.getters.map (·.source))[j]? = some (.fresh b) := by
    rw [← h.sources, List.getElem?_map, hg, Option.map_some, hfresh]
  obtain ⟨g', hg', hfresh'⟩ := Option.map_eq_some_iff.mp (List.getElem?_map .. ▸ hmap)
  have hanswered := h.resolved (hs hn hj hg' hfresh')
  rw [hnone] at hanswered
  cases hanswered

/-- An answer is kept. -/
theorem Calm.answered (h : s.Calm t) (i : Nat) (n : NodeId) (r : Resolved) :
    s.Calm { t.countCall i with resolved := t.resolved ++ [(n, r)] } where
  nodes := h.nodes
  sources := (map_source_countCall t i).trans h.sources
  resolved {m} hm := by
    have hm := h.resolved hm
    unfold resolved? at hm ⊢
    rw [List.find?_append]
    cases hfound : t.resolved.find? fun e => decide (e.1 = m) with
    | none =>
      rw [hfound] at hm
      cases hm
    | some e => rfl

/-- A failure keeps the store calm. -/
theorem Calm.fail {Q : α → Store → Prop} (h : s.Calm t) (f : Failure) :
    Meets (Store.fail f : Action Store α) t Q s.Calm := by
  unfold Store.fail
  split
  · exact ⟨h.nodes, h.sources, h.resolved⟩
  · exact h

/-- Looking a node up finds it and keeps the store calm. -/
theorem Calm.fetch (h : s.Calm t) (n : NodeId) :
    Meets (Store.fetch n) t (fun node u => t.node? n = some node ∧ u = t) s.Calm := by
  refine Meets.bind (P := fun r u => t = r ∧ t = u) ⟨rfl, rfl⟩ ?_
  rintro _ _ ⟨rfl, rfl⟩
  cases hn : t.node? n with
  | none => exact h.fail _
  | some node => exact ⟨rfl, rfl⟩

/-- What a getter answers without making a node. -/
theorem ask_calm (h : s.Calm t) {source : Source} (hsource : ∀ b, source ≠ .fresh b) :
    Meets (ask source) t (fun _ u => u = t) s.Calm := by
  cases source with
  | fresh b => exact absurd rfl (hsource b)
  | named name =>
    refine Meets.bind (P := fun _ u => u = t) rfl ?_
    rintro r _ rfl
    cases r.named? name <;> exact meets_pure rfl
  | value v => exact meets_pure rfl
  | raises cause => exact h.fail _

/-- Asking a lazy node leaves a settled store calm, whatever comes of it. -/
theorem Settled.resolve_calm (hs : s.Settled) (h : s.Calm t) (n : NodeId) :
    Meets (resolve n) t (fun _ => s.Calm) s.Calm := by
  refine Meets.bind (P := fun r u => t = r ∧ t = u) ⟨rfl, rfl⟩ ?_
  rintro _ _ ⟨rfl, rfl⟩
  cases hr : t.resolved? n with
  | some answer => exact meets_pure h
  | none =>
    refine (h.fetch n).bind fun node u hu => ?_
    obtain ⟨hn, hu⟩ := hu
    rw [hu]
    split
    · exact h.fail _
    · rename_i i source hsource
      -- Counting a call changes no node, no source and no answer.
      have hcount : s.Calm (t.countCall i) :=
        ⟨h.nodes, (map_source_countCall t i).trans h.sources, h.resolved⟩
      refine Meets.bind (P := fun _ v => v = t.countCall i) rfl ?_
      rintro _ _ rfl
      refine (ask_calm hcount (hs.source h hn hr hsource)).bind ?_
      rintro answer _ rfl
      exact h.answered i n answer

/-- What a function raises is never reported as an endless question. -/
theorem ofRaised_ne_endless (cause : Raised) : Failure.ofRaised cause ≠ .endless := by
  unfold Failure.ofRaised
  split
  · simp
  · split
    · simp
    · rename_i u _
      cases u <;> simp [Failure.ofUnfit]

/-- Asking a lazy node of a settled store comes to an end. -/
theorem Settled.resolve_ends (hs : s.Settled) (h : s.Calm t) (n : NodeId) :
    (resolve n t).1 ≠ .error .endless := by
  have hfail : ∀ {α : Type} {f : Failure} {u : Store}, f ≠ .endless →
      Explains (fun _ g => g ≠ .endless) (fail f : Action Store α) u :=
    fun hf g _ hrun => raises_fail (P := (· ≠ .endless)) hf _ g _ hrun
  have hexplains : Explains (fun _ f => f ≠ .endless) (resolve n) t := by
    refine explains_get.bind fun r u hget => ?_
    obtain ⟨rfl, rfl⟩ := returns_get.mp hget
    cases hr : u.resolved? n with
    | some answer => exact explains_pure _
    | none =>
      refine Explains.bind (fun f v hrun hf => ?_) fun node v hfetch => ?_
      · exact fetch_ne_endless n (congrArg (·.1) (hf ▸ hrun))
      obtain ⟨hn, rfl⟩ := returns_fetch.mp hfetch
      split
      · exact hfail (by simp)
      · rename_i w i source hsource
        refine (explains_modify _).bind fun _ x _ => Explains.bind ?_ fun _ _ _ =>
          (explains_modify _).bind fun _ _ _ => explains_pure _
        -- A settled store has no source that makes fresh nodes.
        cases source with
        | fresh b => exact absurd rfl (hs.source h hn hr hsource b)
        | named name =>
          refine explains_get.bind fun r _ _ => ?_
          cases r.named? name <;> exact explains_pure _
        | value v => exact explains_pure _
        | raises cause => exact hfail (ofRaised_ne_endless cause)
  exact fun h => hexplains _ _ (Prod.ext h rfl) rfl

/-- However many lazy nodes of a settled store are asked, it stays calm. -/
theorem Settled.calm (hs : s.Settled) (h : s.Asked t) : s.Calm t := by
  induction h with
  | refl => exact .refl s
  | event _ e ih => exact ⟨ih.nodes, ih.sources, ih.resolved⟩
  | answer _ n ih => exact (hs.resolve_calm ih n).state

/-- **Settled stores.** Where lazy nodes stand for nodes that there are, the graph is finite. -/
theorem definite_of_settled (hs : s.Settled) : s.Definite := by
  refine ⟨fun h => ?_, fun h n => hs.resolve_ends (hs.calm h) n⟩
  rw [(hs.calm h).nodes]
  exact Nat.le_add_right _ _

end Store

end SchemaGraph
