import SchemaGraph.Proofs.Store.Making
import SchemaGraph.Store.Optionality

namespace SchemaGraph.Store

open SchemaGraph.Action

/-!
# Answers of the store

What a visit asks of the store: what lazy nodes stand for, and which properties must be
there.  An answer is kept, so that later it can be read off the store without asking.

* `Store.optional?`  — whether a node is optional, read off the answers that are kept
* `Store.required?`  — which properties must be there, read off in the same way
* `Store.resolve_returns`, `Store.requiredNames_returns` — what was answered is what is read off
-/

/-! ### Lazy nodes -/

/-- The answer of a lazy node is kept. -/
theorem answer_keeps (s : Store) (n : NodeId) (r : Resolved) :
    Keeps s { s with resolved := s.resolved ++ [(n, r)] } := by
  refine fun hs => ⟨⟨List.prefix_refl _, fun {m a} h => ?_, fun _ _ _ => rfl,
    fun h => ⟨[], ?_⟩, rfl⟩, fun h m hm => hs.links h m hm, hs.names, hs.getters⟩
  · simp only [resolved?, List.find?_append, Option.map_eq_some_iff] at h ⊢
    obtain ⟨e, he, hea⟩ := h
    exact ⟨e, by rw [he]; rfl, hea⟩
  · rw [List.append_nil]; exact h

/-- What a getter does is what was said when it was made. -/
theorem Closed.rooted {s : Store} (hs : s.Closed) {node : Node} {i : Nat} {source : Source}
    (h : (node.getter.bind fun i => s.getters[i]?.map fun g => (i, g.source))
      = some (i, source)) : source.Rooted := by
  obtain ⟨j, -, hj⟩ := Option.bind_eq_some_iff.mp h
  obtain ⟨g, hg, he⟩ := Option.map_eq_some_iff.mp hj
  cases he
  exact hs.getters g (List.mem_of_getElem? hg)

/-- **Lazy nodes.** Asking a lazy node keeps the store closed, whatever comes of it, and an
    answer that comes is kept. -/
theorem resolve_meets {s : Store} (hs : s.Closed) (n : NodeId) :
    Meets (resolve n) s (fun r t => Keeps s t ∧ t.resolved? n = some r) (Keeps s) := by
  unfold resolve
  refine Meets.bind (P := fun r t => s = r ∧ s = t) ⟨rfl, rfl⟩ fun r t hrt => ?_
  obtain ⟨rfl, rfl⟩ := hrt
  cases hr : s.resolved? n with
  | some answer => exact meets_pure ⟨.refl s, hr⟩
  | none =>
    have hfetch : Meets (fetch n) s (fun _ t => t = s) (Keeps s) :=
      ((fetch_makes n).meets fun _ _ h => (returns_fetch.mp h).2).mono (fun _ _ h => h)
        fun _ h => h.keeps
    refine hfetch.bind fun node t ht => ?_
    subst ht
    split
    · exact (fail_makes _).meets (fun _ _ h => absurd h not_returns_fail) |>.mono
        (fun _ _ h => h) fun _ h => h.keeps
    · rename_i i source hsource
      have hcount := countCall_makes t i
      -- The source may build nodes; this keeps all answers that were given.
      have hask : Meets (ask source) (t.countCall i) (fun _ u => Kept t u) (Kept t) :=
        ((ask_makes (hs.rooted hsource)).meets fun _ _ h =>
          (ask_makes (hs.rooted hsource)).of_returns h).mono
            (fun _ _ h => (hcount hs).step h) fun _ h => (hcount hs).step h
      refine Meets.bind (P := fun _ u => u = t.countCall i) rfl fun _ u hu => ?_
      subst hu
      refine (hask.mono (fun _ _ h => h) fun _ h _ => ⟨h.grows, h.closed⟩).bind
        fun answer u hu => ?_
      refine ⟨fun _ => ?_, ?_⟩
      · have ha := answer_keeps u n answer hu.closed
        exact ⟨hu.grows.trans ha.1, ha.2⟩
      · -- nothing has answered for the node in between
        have hnone : (u.resolved.find? fun e => decide (e.1 = n)) = none := by
          rw [hu.resolved]
          simpa [resolved?] using hr
        simp [resolved?, List.find?_append, hnone]

/-- Resolving a node keeps all answers that were given. -/
theorem resolve_keeps (n : NodeId) : Within Keeps (resolve n) := fun _ hs =>
  (resolve_meets hs n).state_of_and hs

/-- What a lazy node answers is what it keeps. -/
theorem resolve_returns {s t : Store} {n : NodeId} {r : Resolved}
    (h : Returns (resolve n) s r t) (hs : s.Closed) :
    t.resolved? n = some r :=
  ((resolve_meets hs n).of_returns h).2

/-! ### Optional nodes -/

/-- Whether a node is optional, read off what is known without asking a lazy node.  There
    is no answer when the question has to be passed on more often than the given number. -/
def optional? (s : Store) (side : Side) : Nat → NodeId → Option Bool
  | 0, _ => none
  | links + 1, n =>
    match s.node? n with
    | none => none
    | some node =>
      match node.optionality side with
      | .known answer => some answer
      | .sameAs m => if m = .gap then some false else optional? s side links m
      | .asResolved =>
        match s.resolved? n with
        | some (.node m) => optional? s side links m
        | _ => none

/-- The names of the properties that are not optional, read off in the same way. -/
def required? (s : Store) (side : Side) (links : Nat) :
    List (String × NodeId) → Option (List String)
  | [] => some []
  | (name, child) :: rest =>
    match s.optional? side links child, required? s side links rest with
    | some skip, some names => some (if skip then names else name :: names)
    | _, _ => none

/-- An answer stands when the store grows and more links are allowed. -/
theorem optional?_mono {s t : Store} (h : Grows s t) {side : Side} :
    ∀ {links more : Nat} (_ : links ≤ more) {n : NodeId} {b : Bool},
      s.optional? side links n = some b → t.optional? side more n = some b
  | 0, _, _, n, b, hb => by simp [optional?] at hb
  | links + 1, 0, hle, n, b, hb => by omega
  | links + 1, more + 1, hle, n, b, hb => by
    have ih : ∀ {m}, s.optional? side links m = some b → t.optional? side more m = some b :=
      fun hm => optional?_mono h (Nat.le_of_succ_le_succ hle) hm
    unfold optional? at hb ⊢
    cases hn : s.node? n with
    | none => simp [hn] at hb
    | some node =>
      rw [h.node? hn]
      simp only [hn] at hb ⊢
      -- A known answer asks nobody; the other two ask one node, with a link less.
      cases ho : node.optionality side with
      | known answer => simpa [ho] using hb
      | sameAs m =>
        simp only [ho] at hb ⊢
        split at hb
        · rename_i hm; simpa [hm] using hb
        · rename_i hm; rw [if_neg hm]; exact ih hb
      | asResolved =>
        simp only [ho] at hb ⊢
        cases hr : s.resolved? n with
        | none => simp [hr] at hb
        | some r =>
          rw [h.resolved hr]
          cases r with
          | node m => simp only [hr] at hb ⊢; exact ih hb
          | value v => simp [hr] at hb

/-- Properties that are known to be required are so over more links, when the store has grown. -/
theorem required?_mono {s t : Store} (h : Grows s t) {side : Side} {links more : Nat}
    (hle : links ≤ more) {shape : List (String × NodeId)} {names : List String}
    (hn : s.required? side links shape = some names) :
    t.required? side more shape = some names := by
  induction shape generalizing names with
  | nil => simpa [required?] using hn
  | cons e rest ih =>
    obtain ⟨name, child⟩ := e
    unfold required? at hn ⊢
    split at hn
    · rename_i skip others hskip hothers
      rw [optional?_mono h hle hskip, ih hothers]
      exact hn
    · cases hn

/-- **Optional nodes.** The question keeps the store closed, whatever comes of it, and an
    answer that comes can be read off. -/
theorem isOptionalWithin_meets (side : Side) :
    ∀ {s : Store} (_ : s.Closed) (links : Nat) (n : NodeId), Meets (isOptionalWithin side links n) s
      (fun b t => Keeps s t ∧ t.optional? side links n = some b) (Keeps s)
  | s, hs, 0, n => (fail_makes _).meets (fun _ _ h => absurd h not_returns_fail) |>.mono
      (fun _ _ h => h) fun _ h => h.keeps
  | s, hs, links + 1, n => by
    unfold isOptionalWithin
    have hfetch : Meets (fetch n) s (fun node t => s.node? n = some node ∧ t = s) (Keeps s) :=
      ((fetch_makes n).meets fun _ _ h => returns_fetch.mp h).mono (fun _ _ h => h)
        fun _ h => h.keeps
    -- The node is there from the start; only resolving it makes the store grow.
    refine hfetch.bind fun node t ht => ?_
    obtain ⟨hnode, rfl⟩ := ht
    cases ho : node.optionality side with
    | known answer =>
      exact meets_pure ⟨.refl _, by simp [optional?, hnode, ho]⟩
    | sameAs m =>
      dsimp only
      split
      · rename_i hm
        exact meets_pure ⟨.refl _, by simp [optional?, hnode, ho, hm]⟩
      · rename_i hm
        refine (isOptionalWithin_meets side hs links m).mono (fun b u hu => ⟨hu.1, ?_⟩)
          fun _ h => h
        simp [optional?, (hu.1 hs).1.node? hnode, ho, hm, hu.2]
    | asResolved =>
      refine (resolve_meets hs n).bind fun r u hu => ?_
      obtain ⟨hgrow, hclosed⟩ := hu.1 hs
      cases r with
      | node m =>
        refine (isOptionalWithin_meets side hclosed links m).mono
          (fun b v hv => ⟨hu.1.trans hv.1, ?_⟩) fun _ h => hu.1.trans h
        obtain ⟨hgrow', -⟩ := hv.1 hclosed
        simp [optional?, (hgrow.trans hgrow').node? hnode, ho, hgrow'.resolved hu.2, hv.2]
      | value v =>
        exact (fail_makes _).meets (fun _ _ h => absurd h not_returns_fail) |>.mono
          (fun _ _ h => h) fun _ h => hu.1.trans h.keeps

/-- Whether a node is optional, if it is found out, can be told from the answers behind the
    question. -/
theorem isOptional_meets (side : Side) {s : Store} (hs : s.Closed) (n : NodeId) :
    Meets (isOptional side n) s
      (fun b t => Keeps s t ∧ ∃ links, t.optional? side links n = some b) (Keeps s) :=
  (isOptionalWithin_meets side hs _ n).mono (fun _ _ h => ⟨h.1, _, h.2⟩) fun _ h => h

/-- **Required properties.** The question keeps the store closed, whatever comes of it, and
    the names that come can be read off, whenever enough links are allowed. -/
theorem requiredNames_meets (side : Side) :
    ∀ (shape : List (String × NodeId)) {s : Store} (_ : s.Closed),
      Meets (requiredNames side shape) s
        (fun names t => Keeps s t ∧ ∃ links, t.required? side links shape = some names)
        (Keeps s)
  | [], s, hs => meets_pure ⟨.refl s, 0, rfl⟩
  | (name, child) :: rest, s, hs => by
    unfold requiredNames
    refine (isOptional_meets side hs child).bind fun skip t ht => ?_
    obtain ⟨hst, links, hskip⟩ := ht
    have hrest := requiredNames_meets side rest (hst hs).2
    refine (hrest.mono (fun _ _ h => h) fun _ h => hst.trans h).bind fun names u hu => ?_
    obtain ⟨htu, more, hnames⟩ := hu
    refine meets_pure ⟨hst.trans htu, max links more, ?_⟩
    unfold required?
    rw [optional?_mono (htu (hst hs).2).1 (Nat.le_max_left links more) hskip,
      required?_mono (.refl u) (Nat.le_max_right links more) hnames]

/-- Asking for required properties keeps all answers that were given. -/
theorem requiredNames_keeps (side : Side) (shape : List (String × NodeId)) :
    Within Keeps (requiredNames side shape) := fun _ hs =>
  (requiredNames_meets side shape hs).state_of_and hs

end SchemaGraph.Store
