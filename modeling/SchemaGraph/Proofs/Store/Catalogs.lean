import SchemaGraph.Catalog
import SchemaGraph.Proofs.Value.Entries

namespace SchemaGraph.Catalog

/-!
# Ids of catalogs

A catalog keeps its ids beside the annotations that carry them.  As long as ids are texts, the
two agree: an id is held by the one node whose annotation carries it.

* `Catalog.Sound` — the ids of a catalog are those of its annotations
* `Sound.add`, `Sound.remove` — annotating and forgetting nodes keep them so
-/

variable {ids : List (Value × NodeId)} {s : String} {n : NodeId} {p : Value × NodeId}

/-! ### Lists of ids -/

/-- No id stands twice. -/
def Unique (ids : List (Value × NodeId)) : Prop := ids.Pairwise fun a b => a.1 ≠ b.1

/-- An id is looked up like a text only if it is that text. -/
theorem canonical_eq_text {i : Value} : i.canonical = (Value.str s).canonical ↔ i = .str s := by
  constructor
  · exact Value.canonical_eq_str
  · rintro rfl
    rfl

/-- Where no id stands twice, the holder of an id is the node that stands with it. -/
theorem holder?_of_mem (hu : Unique ids) (h : (.str s, n) ∈ ids) :
    holder? (.str s) ids = some n := by
  induction ids with
  | nil => cases h
  | cons q rest ih =>
    obtain ⟨i, m⟩ := q
    obtain ⟨hfirst, hu⟩ := List.pairwise_cons.mp hu
    unfold holder?
    rcases List.mem_cons.mp h with h | h
    · cases h
      rw [if_pos rfl]
    · rw [if_neg (mt canonical_eq_text.mp (hfirst _ h))]
      exact ih hu h

/-- An id that is given to a node is added, and taken away from its former holder. -/
theorem mem_assign (hu : Unique ids) :
    p ∈ assign (.str s) n ids ↔ p = (.str s, n) ∨ p ∈ ids ∧ p.1 ≠ .str s := by
  -- Induction on the ids: the text replaces its entry where it stands, and comes last otherwise.
  induction ids with
  | nil => simp [assign]
  | cons q rest ih =>
    obtain ⟨i, m⟩ := q
    obtain ⟨hfirst, hu⟩ := List.pairwise_cons.mp hu
    unfold assign
    split
    · rename_i hi
      obtain rfl := canonical_eq_text.mp hi
      have hrest : p ∈ rest → p.1 ≠ .str s := fun hp => (hfirst p hp).symm
      rw [List.mem_cons, List.mem_cons]
      constructor
      · rintro (rfl | hp)
        · exact .inl rfl
        · exact .inr ⟨.inr hp, hrest hp⟩
      · rintro (rfl | ⟨rfl | hp, hne⟩)
        · exact .inl rfl
        · exact absurd rfl hne
        · exact .inr hp
    · rename_i hi
      have hne : i ≠ .str s := mt canonical_eq_text.mpr hi
      rw [List.mem_cons, List.mem_cons, ih hu]
      constructor
      · rintro (rfl | rfl | ⟨hp, hps⟩)
        · exact .inr ⟨.inl rfl, hne⟩
        · exact .inl rfl
        · exact .inr ⟨.inr hp, hps⟩
      · rintro (rfl | ⟨rfl | hp, hps⟩)
        · exact .inr (.inl rfl)
        · exact .inl rfl
        · exact .inr (.inr ⟨hp, hps⟩)

/-- Assigning a text keeps ids unique. -/
theorem Unique.assign (hu : Unique ids) : Unique (assign (.str s) n ids) := by
  induction ids with
  | nil => exact List.pairwise_singleton _ _
  | cons q rest ih =>
    obtain ⟨i, m⟩ := q
    obtain ⟨hfirst, hrest⟩ := List.pairwise_cons.mp hu
    unfold Catalog.assign
    split
    · exact List.pairwise_cons.mpr ⟨hfirst, hrest⟩
    · rename_i hi
      refine List.pairwise_cons.mpr ⟨fun p hp => ?_, ih hrest⟩
      rcases (mem_assign hrest).mp hp with rfl | ⟨hp, -⟩
      · exact mt canonical_eq_text.mpr hi
      · exact hfirst p hp

/-- An id that is withdrawn is gone, and all others stay. -/
theorem mem_withdraw (hu : Unique ids) :
    p ∈ withdraw (.str s) ids ↔ p ∈ ids ∧ p.1 ≠ .str s := by
  induction ids with
  | nil => simp [withdraw]
  | cons q rest ih =>
    obtain ⟨i, m⟩ := q
    obtain ⟨hfirst, hu⟩ := List.pairwise_cons.mp hu
    unfold withdraw
    split
    -- The first entry with the id goes, and no later one has it.
    · rename_i hi
      obtain rfl := canonical_eq_text.mp hi
      rw [List.mem_cons]
      constructor
      · exact fun hp => ⟨.inr hp, (hfirst p hp).symm⟩
      · rintro ⟨rfl | hp, hne⟩
        · exact absurd rfl hne
        · exact hp
    · rename_i hi
      have hne : i ≠ .str s := mt canonical_eq_text.mpr hi
      rw [List.mem_cons, List.mem_cons, ih hu]
      constructor
      · rintro (rfl | ⟨hp, hps⟩)
        · exact ⟨.inl rfl, hne⟩
        · exact ⟨.inr hp, hps⟩
      · rintro ⟨rfl | hp, hps⟩
        · exact .inl rfl
        · exact .inr ⟨hp, hps⟩

/-- Withdrawing a text keeps ids unique. -/
theorem Unique.withdraw (hu : Unique ids) : Unique (withdraw (.str s) ids) := by
  induction ids with
  | nil => exact .nil
  | cons q rest ih =>
    obtain ⟨i, m⟩ := q
    obtain ⟨hfirst, hrest⟩ := List.pairwise_cons.mp hu
    unfold Catalog.withdraw
    split
    · exact hrest
    · exact List.pairwise_cons.mpr ⟨fun p hp => hfirst p ((mem_withdraw hrest).mp hp).1, ih hrest⟩

/-! ### Catalogs -/

/-- The ids of a catalog are texts, each once, and they are those that its annotations carry. -/
structure Sound (c : Catalog) : Prop where
  texts : ∀ p ∈ c.ids, ∃ s, p.1 = .str s
  unique : Unique c.ids
  held : ∀ {i n}, (i, n) ∈ c.ids ↔ i ≠ .null ∧ ∃ notes, c.get? n = some notes ∧ idOf notes = i

variable {c c' : Catalog}

/-- A catalog in which nothing is annotated is sound. -/
theorem sound_empty : Sound {} where
  texts := nofun
  unique := .nil
  held {i n} := by simp [get?, find?]

/-- The id that a node holds is the one that its annotation carries. -/
theorem Sound.idOf_eq (h : c.Sound) {i : Value} (hi : (i, n) ∈ c.ids) {notes : Entries}
    (hn : c.get? n = some notes) : idOf notes = i := by
  obtain ⟨-, notes', hn', hi'⟩ := h.held.mp hi
  rw [Option.some.inj (hn.symm.trans hn')]
  exact hi'

/-- A former id that is given up is the only one that the node has held. -/
theorem Sound.release (h : c.Sound) {former : Entries} (hn : c.get? n = some former) :
    Unique (release (idOf former) n c.ids) ∧
      ∀ p, p ∈ release (idOf former) n c.ids ↔ p ∈ c.ids ∧ p.2 ≠ n := by
  -- A node without an id holds none, so nothing is withdrawn.
  have hnone : idOf former = .null → ∀ p ∈ c.ids, p.2 ≠ n := by
    rintro hnull ⟨i, m⟩ hp rfl
    exact (h.held.mp hp).1 ((h.idOf_eq hp hn).symm.trans hnull)
  by_cases hnull : idOf former = .null
  · have hsame : Catalog.release (idOf former) n c.ids = c.ids := by
      unfold Catalog.release
      exact if_neg fun hboth => hboth.1 hnull
    rw [hsame]
    exact ⟨h.unique, fun p => ⟨fun hp => ⟨hp, hnone hnull p hp⟩, fun hp => hp.1⟩⟩
  · have hheld : (idOf former, n) ∈ c.ids := h.held.mpr ⟨hnull, former, hn, rfl⟩
    obtain ⟨s, hs⟩ := h.texts _ hheld
    dsimp only at hs
    rw [hs] at hheld hnull ⊢
    have hwithdrawn : Catalog.release (.str s) n c.ids = withdraw (.str s) c.ids := by
      unfold Catalog.release
      exact if_pos ⟨hnull, holder?_of_mem h.unique hheld⟩
    rw [hwithdrawn]
    refine ⟨h.unique.withdraw, fun p => ?_⟩
    rw [mem_withdraw h.unique]
    obtain ⟨i, m⟩ := p
    -- An id has one holder and a node has one id, so that either names the entry.
    refine and_congr_right fun hp => not_congr ⟨fun hi => ?_, fun hm => ?_⟩
    · obtain rfl : i = .str s := hi
      have hholder := (holder?_of_mem h.unique hp).symm.trans (holder?_of_mem h.unique hheld)
      exact Option.some.inj hholder
    · obtain rfl : m = n := hm
      exact (h.idOf_eq hp hn).symm.trans hs

/-! ### Changes -/

/-- When the entry of a node is dropped, the other entries are found as before. -/
theorem find?_filter_ne (n m : NodeId) (entries : List (NodeId × Entries)) :
    find? m (entries.filter fun e => e.1 ≠ n) = if m = n then none else find? m entries := by
  induction entries with
  | nil => simp [find?]
  | cons e rest ih =>
    obtain ⟨k, notes⟩ := e
    by_cases hk : k = n
    · subst hk
      rw [List.filter_cons_of_neg (by simp), ih, find?]
      by_cases hm : m = k
      · rw [if_pos hm, if_pos hm]
      · rw [if_neg hm, if_neg hm, if_neg (Ne.symm hm)]
    · rw [List.filter_cons_of_pos (by simpa using hk), find?, find?, ih]
      by_cases hm : k = m
      · subst hm
        rw [if_pos rfl, if_pos rfl, if_neg hk]
      · rw [if_neg hm, if_neg hm]

/-- **Forgetting.** A catalog that forgets a node stays sound. -/
theorem Sound.remove (h : c.Sound) (n : NodeId) : (c.remove n).Sound := by
  unfold Catalog.remove
  cases hn : c.get? n with
  | none => exact h
  | some former =>
    obtain ⟨hunique, hmem⟩ := h.release hn
    refine ⟨fun p hp => h.texts p ((hmem p).mp hp).1, hunique, fun {i m} => ?_⟩
    dsimp only
    rw [Catalog.get?, find?_filter_ne, hmem, h.held]
    by_cases hm : m = n
    · simp [hm]
    · simp [hm, Catalog.get?]

/-- The ids that are kept when a node is annotated. -/
def kept (c : Catalog) (n : NodeId) (id : Value) : List (Value × NodeId) :=
  match c.get? n with
  | some former => if (idOf former).same id then c.ids else release (idOf former) n c.ids
  | none => c.ids

/-- What annotating a node makes of a catalog; no other node has held the id. -/
theorem add_eq_ok {notes : Entries} (h : c.add n notes = .ok c') :
    (∀ m, idOf notes ≠ .null → holder? (idOf notes) c.ids = some m → m = n) ∧
      c' = { entries := put n notes c.entries
             ids := if idOf notes = .null then c.kept n (idOf notes)
               else assign (idOf notes) n (c.kept n (idOf notes)) } := by
  unfold Catalog.add at h
  dsimp only at h
  by_cases hkey : idOf notes ≠ .null ∧ (idOf notes).isHashable = false
  · rw [if_pos hkey] at h
    cases h
  · rw [if_neg hkey] at h
    by_cases htaken : idOf notes ≠ .null ∧ (holder? (idOf notes) c.ids).any (· ≠ n) = true
    · rw [if_pos htaken] at h
      cases h
    · rw [if_neg htaken] at h
      refine ⟨fun m hid hm => ?_, (Except.ok.inj h).symm⟩
      exact Decidable.byContradiction fun hne => htaken ⟨hid, by simpa [hm] using hne⟩

/-- A text is the same as itself alone. -/
theorem same_text {v : Value} : (Value.str s).same v = true ↔ v = .str s := by
  have hnone : (Value.str s).numeric? = none := rfl
  constructor
  · intro h
    unfold Value.same at h
    rw [hnone] at h
    split at h
    · simp_all
    · exact (of_decide_eq_true h).symm
    · cases h
  · rintro rfl
    unfold Value.same
    rw [hnone]
    simp

/-- All ids of other nodes are kept, and the former id of the node if it is the new one. -/
theorem Sound.kept (h : c.Sound) (n : NodeId) (id : Value) :
    Unique (c.kept n id) ∧
      ∀ i m, (i, m) ∈ c.kept n id ↔ (i, m) ∈ c.ids ∧ (m = n → i = id) := by
  unfold Catalog.kept
  cases hn : c.get? n with
  | none =>
    refine ⟨h.unique, fun i m => ⟨fun hmem => ⟨hmem, ?_⟩, fun hmem => hmem.1⟩⟩
    rintro rfl
    obtain ⟨-, notes, hnotes, -⟩ := h.held.mp hmem
    rw [hn] at hnotes
    cases hnotes
  | some former =>
    dsimp only
    split
    · rename_i hsame
      refine ⟨h.unique, fun i m => ⟨fun hmem => ⟨hmem, ?_⟩, fun hmem => hmem.1⟩⟩
      rintro rfl
      -- what the node has held is its former id, which is the new one
      obtain ⟨s, hs⟩ := h.texts _ hmem
      obtain rfl : i = .str s := hs
      rw [h.idOf_eq hmem hn] at hsame
      exact (same_text.mp hsame).symm
    · rename_i hsame
      obtain ⟨hunique, hmem⟩ := h.release hn
      refine ⟨hunique, fun i m => ?_⟩
      rw [hmem]
      refine and_congr_right fun hi => ⟨fun hne heq => absurd heq hne, fun himp hm => ?_⟩
      obtain rfl : m = n := hm
      obtain ⟨s, hs⟩ := h.texts _ hi
      obtain rfl : i = .str s := hs
      rw [h.idOf_eq hi hn] at hsame
      exact hsame (same_text.mpr (himp rfl).symm)

/-- **Annotating.** A catalog that annotates a node stays sound, if the annotation carries a text
    as id, or none. -/
theorem Sound.add (h : c.Sound) {notes : Entries}
    (hid : idOf notes = .null ∨ ∃ s, idOf notes = .str s) (hadd : c.add n notes = .ok c') :
    c'.Sound := by
  obtain ⟨hfree, rfl⟩ := add_eq_ok hadd
  obtain ⟨hunique, hkept⟩ := h.kept n (idOf notes)
  have htexts : ∀ p ∈ c.kept n (idOf notes), ∃ s, p.1 = .str s :=
    fun p hp => h.texts p ((hkept p.1 p.2).mp hp).1
  have hget : ∀ m, find? m (put n notes c.entries) = if m = n then some notes else c.get? m := by
    intro m
    by_cases hm : m = n
    · rw [hm, find?_put_self, if_pos rfl]
    · rw [find?_put_of_ne hm, if_neg hm]
      rfl
  -- Without an id of its own the annotation only gives up the former one; a text is assigned behind
  -- the others.
  rcases hid with hnull | ⟨s, hs⟩
  · rw [if_pos hnull]
    refine ⟨htexts, hunique, fun {i m} => ?_⟩
    dsimp only
    rw [Catalog.get?, hget, hkept, h.held]
    by_cases hm : m = n
    · simp only [hm, hnull, if_true, Option.some.injEq, exists_eq_left']
      constructor
      · rintro ⟨⟨hi, -⟩, hsame⟩
        exact absurd (hsame trivial) hi
      · rintro ⟨hi, rfl⟩
        exact absurd rfl hi
    · simp [hm]
  · rw [hs] at hfree hkept hunique htexts ⊢
    rw [if_neg (by simp)]
    refine ⟨fun p hp => ?_, hunique.assign, fun {i m} => ?_⟩
    · rcases (mem_assign hunique).mp hp with rfl | ⟨hp, -⟩
      · exact ⟨s, rfl⟩
      · exact htexts p hp
    · dsimp only
      rw [Catalog.get?, hget, mem_assign hunique, hkept]
      by_cases hm : m = n
      · subst hm
        rw [if_pos rfl]
        simp only [Prod.mk.injEq, and_true, Option.some.injEq, exists_eq_left', hs]
        constructor
        · rintro (rfl | ⟨⟨-, hsame⟩, hne⟩)
          · exact ⟨by simp, rfl⟩
          · exact absurd (hsame trivial) hne
        · rintro ⟨-, rfl⟩
          exact .inl rfl
      · rw [if_neg hm, ← h.held]
        -- Had another node the id, the annotation would have been refused.
        have hother : (i, m) ∈ c.ids → i ≠ .str s := by
          rintro hmem rfl
          exact hm (hfree m (by simp) (holder?_of_mem h.unique hmem))
        simp only [Prod.mk.injEq, hm, and_false, false_or, false_implies, and_true]
        exact ⟨fun hmem => hmem.1, fun hmem => ⟨hmem, hother hmem⟩⟩

end SchemaGraph.Catalog
