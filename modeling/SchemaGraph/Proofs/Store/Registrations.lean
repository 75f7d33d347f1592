import SchemaGraph.Proofs.Store.Catalogs
import SchemaGraph.Proofs.Store.Growth
import Mathlib.Data.List.Induction
import Mathlib.Logic.ExistsUnique

namespace SchemaGraph.Catalog

open SchemaGraph.Action

/-!
# Registrations

Nodes are annotated and forgotten call by call, and some calls are refused.  Whatever the calls
were, the ids of the catalog are those that the annotations of the moment carry, in the order in
which they were taken.

* `Catalog.Call`       — a call on a catalog, `Catalog.runAll` — many of them
* `Catalog.Succeeds`   — what a call makes of the ids
* `Catalog.Acquired`   — the call with which a node has taken its id
* `Catalog.registrations_exact` — ids and annotations agree behind any calls
-/

/-- A call on a catalog. -/
inductive Call where
  | add (n : NodeId) (notes : Entries)
  | remove (n : NodeId)
  | clear

/-- A call on the catalog of that name. -/
def Call.run (name : String) : Call → Action Store Unit
  | .add n notes => Store.annotate name n notes
  | .remove n => modify fun s => s.setCatalog name ((s.catalog name).remove n)
  | .clear => modify fun s => s.setCatalog name (s.catalog name).clear

/-- The store behind calls that are made in order, each whatever came of the ones before it. -/
def runAll (name : String) (calls : List Call) (s : Store) : Store :=
  calls.foldl (fun s call => (call.run name s).2) s

/-- The annotation of a call carries a text as id, or none. -/
def Call.Textual : Call → Prop
  | .add _ notes => idOf notes = .null ∨ ∃ s, idOf notes = .str s
  | _ => True

/-- Another node holds the id of the annotation. -/
def Call.Clashes (c : Catalog) : Call → Prop
  | .add n notes => ∃ m, m ≠ n ∧ (idOf notes, m) ∈ c.ids
  | _ => False

/-- The annotation of a node behind a call that is not refused: the call is about one node, or
    about all of them. -/
def Call.leaves (name : String) (s : Store) : Call → NodeId → Option Entries
  | .add n notes, m =>
    if m = n then some (s.detachList notes).2 else (s.catalog name).get? m
  | .remove n, m => if m = n then none else (s.catalog name).get? m
  | .clear, _ => none

variable {c c' : Catalog} {ids : List (Value × NodeId)} {n : NodeId} {notes : Entries}
  {name : String} {s : Store} {calls : List Call} {call : Call}

/-! ### Refusals -/

/-- The holder of an id stands in the list with it. -/
theorem mem_of_holder? {text : String} (h : holder? (.str text) ids = some n) :
    (.str text, n) ∈ ids := by
  induction ids with
  | nil => cases h
  | cons q rest ih =>
    obtain ⟨i, m⟩ := q
    unfold holder? at h
    split at h
    · rename_i hi
      obtain rfl := canonical_eq_text.mp hi
      cases h
      exact List.mem_cons_self ..
    · exact List.mem_cons_of_mem _ (ih h)

/-- An annotation is refused for its id exactly if another node holds the id. -/
theorem Sound.add_result (h : c.Sound) (hid : (Call.add n notes).Textual) :
    ((Call.add n notes).Clashes c ∧ c.add n notes = .error (.idTaken (idOf notes))) ∨
      (¬ (Call.add n notes).Clashes c ∧ ∃ c', c.add n notes = .ok c') := by
  unfold Catalog.add
  dsimp only
  rcases hid with hnull | ⟨text, htext⟩
  · refine .inr ⟨fun ⟨m, _, hm⟩ => (h.held.mp hm).1 hnull, ?_⟩
    rw [if_neg fun hboth => hboth.1 hnull, if_neg fun hboth => hboth.1 hnull]
    exact ⟨_, rfl⟩
  · rw [if_neg fun hboth => by rw [htext] at hboth; cases hboth.2]
    -- A text is refused exactly if some other node holds it.
    by_cases hother : ∃ m, m ≠ n ∧ (idOf notes, m) ∈ c.ids
    · obtain ⟨m, hm, hheld⟩ := id hother
      refine .inl ⟨hother, if_pos ⟨(h.held.mp hheld).1, ?_⟩⟩
      rw [htext] at hheld ⊢
      rw [holder?_of_mem h.unique hheld]
      simpa using hm
    · refine .inr ⟨hother, ?_⟩
      rw [if_neg ?_]
      · exact ⟨_, rfl⟩
      · rintro ⟨-, hholder⟩
        obtain ⟨m, hm, hne⟩ := (Option.any_eq_true _ _).mp hholder
        rw [htext] at hm
        exact hother ⟨m, of_decide_eq_true hne, htext ▸ mem_of_holder? hm⟩

/-! ### What a call makes of the ids -/

/-- Some ids are given up, and at most one that nobody has held is taken, behind all others. -/
def Succeeds (former ids : List (Value × NodeId)) : Prop :=
  ∃ still taken, ids = still ++ taken ∧ still.Sublist former ∧ taken.length ≤ 1 ∧
    ∀ p ∈ taken, ∀ m, (p.1, m) ∉ former

/-- Giving up ids is a call's right. -/
theorem succeeds_of_sublist {former : List (Value × NodeId)} (h : ids.Sublist former) :
    Succeeds former ids :=
  ⟨ids, [], (List.append_nil _).symm, h, Nat.zero_le _, nofun⟩

/-- Withdrawing an id keeps the others in order. -/
theorem withdraw_sublist (id : Value) (ids : List (Value × NodeId)) :
    (withdraw id ids).Sublist ids := by
  induction ids with
  | nil => exact .slnil
  | cons q rest ih =>
    unfold withdraw
    split
    · exact List.sublist_cons_self ..
    · exact ih.cons_cons _

/-- Releasing an id for a node keeps the others in order. -/
theorem release_sublist (id : Value) (n : NodeId) (ids : List (Value × NodeId)) :
    (release id n ids).Sublist ids := by
  unfold release
  split
  · exact withdraw_sublist id ids
  · exact .refl _

/-- The ids that a new annotation leaves stand in their former order. -/
theorem kept_sublist (c : Catalog) (n : NodeId) (id : Value) : (c.kept n id).Sublist c.ids := by
  unfold kept
  split
  · split
    · exact .refl _
    · exact release_sublist ..
  · exact .refl _

/-- An id that nobody holds is taken behind all others. -/
theorem assign_of_free {text : String} (h : ∀ m, (.str text, m) ∉ ids) :
    assign (.str text) n ids = ids ++ [(.str text, n)] := by
  induction ids with
  | nil => rfl
  | cons q rest ih =>
    obtain ⟨i, m⟩ := q
    have hi : ¬ i.canonical = (Value.str text).canonical := fun hi =>
      h m (canonical_eq_text.mp hi ▸ List.mem_cons_self ..)
    rw [assign, if_neg hi, ih fun m hm => h m (List.mem_cons_of_mem _ hm)]
    rfl

/-- An id that its holder takes once more keeps its place. -/
theorem assign_of_held {text : String} (hu : Unique ids) (h : (.str text, n) ∈ ids) :
    assign (.str text) n ids = ids := by
  induction ids with
  | nil => cases h
  | cons q rest ih =>
    obtain ⟨i, m⟩ := q
    obtain ⟨hfirst, hu⟩ := List.pairwise_cons.mp hu
    unfold assign
    rcases List.mem_cons.mp h with h | h
    · cases h
      rw [if_pos rfl]
    · rw [if_neg (mt canonical_eq_text.mp (hfirst _ h)), ih hu h]

/-- An annotation that the catalog takes: the node keeps its id in its place, or it gives up the
    former one and takes one that is free. -/
theorem Sound.add_succeeds (h : c.Sound) (hid : (Call.add n notes).Textual)
    (hadd : c.add n notes = .ok c') : Succeeds c.ids c'.ids := by
  obtain ⟨hfree, rfl⟩ := add_eq_ok hadd
  obtain ⟨hunique, hkept⟩ := h.kept n (idOf notes)
  have hsub := kept_sublist c n (idOf notes)
  dsimp only
  rcases hid with hnull | ⟨text, htext⟩
  · rw [if_pos hnull]
    exact succeeds_of_sublist hsub
  · rw [htext] at hfree hkept hunique hsub ⊢
    rw [if_neg (by simp)]
    by_cases hheld : (.str text, n) ∈ c.ids
    · -- the node has the id already, and keeps its place
      rw [assign_of_held hunique ((hkept ..).mpr ⟨hheld, fun _ => rfl⟩)]
      exact succeeds_of_sublist hsub
    · have hnobody : ∀ m, (.str text, m) ∉ c.ids := by
        intro m hm
        obtain rfl := hfree m (by simp) (holder?_of_mem h.unique hm)
        exact hheld hm
      rw [assign_of_free fun m hm => hnobody m (hsub.subset hm)]
      refine ⟨_, _, rfl, hsub, Nat.le_refl 1, fun p hp => ?_⟩
      rw [List.mem_singleton.mp hp]
      exact hnobody

/-- Removing a node only gives up ids. -/
theorem remove_succeeds (c : Catalog) (n : NodeId) : Succeeds c.ids (c.remove n).ids := by
  unfold remove
  split
  · exact succeeds_of_sublist (.refl _)
  · exact succeeds_of_sublist (release_sublist ..)

/-! ### Calls -/

/-- Detaching the list of an annotation leaves its id. -/
theorem idOf_detachList (s : Store) (notes : Entries) :
    idOf (s.detachList notes).2 = idOf notes := by
  unfold Store.detachList
  have hset : ∀ v : Value, idOf (notes.set "allOf" v) = idOf notes := fun v => by
    unfold idOf
    rw [Entries.get?_set_str, if_neg (by decide)]
  split
  · exact hset _
  · exact hset _
  · rfl

/-- Detaching the list of an annotation leaves the catalogs. -/
theorem detached_catalog (s : Store) (notes : Entries) (name : String) :
    (s.detachList notes).1.catalog name = s.catalog name := by
  obtain ⟨more, hmore⟩ := s.detachList_eq notes
  rw [hmore]
  rfl

/-- A new annotation stands for its node, and the others are as they were. -/
theorem get?_add (h : c.add n notes = .ok c') (m : NodeId) :
    c'.get? m = if m = n then some notes else c.get? m := by
  rw [(add_eq_ok h).2]
  unfold get?
  dsimp only
  split
  · rename_i hm
    rw [hm, find?_put_self]
  · rename_i hm
    rw [find?_put_of_ne hm]

/-- A removed node has no annotation, and the others are as they were. -/
theorem get?_remove (c : Catalog) (n m : NodeId) :
    (c.remove n).get? m = if m = n then none else c.get? m := by
  unfold remove
  split
  · rename_i hnone
    split
    · rename_i hm
      rw [hm, hnone]
    · rfl
  · exact find?_filter_ne ..

/-- A refused call leaves everything as it was, and any other one the annotations of all nodes that
    it is not about. -/
theorem Call.run_result (h : (s.catalog name).Sound) (hid : call.Textual) :
    (call.Clashes (s.catalog name) ∧
        ∃ id, call.run name s = (.error (.idTaken id), s)) ∨
      (¬ call.Clashes (s.catalog name) ∧ ∃ t, Returns (call.run name) s () t ∧
        (t.catalog name).Sound ∧ Succeeds (s.catalog name).ids (t.catalog name).ids ∧
        (∀ m, (t.catalog name).get? m = call.leaves name s m) ∧
        ∀ other, other ≠ name → t.catalog other = s.catalog other) := by
  cases call with
  | add n notes =>
    have hid' : (Call.add n (s.detachList notes).2).Textual := by
      simp only [Call.Textual, idOf_detachList]
      exact hid
    -- Detaching a list changes no id, so that the clash is the same before and after it.
    have hclash : (Call.add n (s.detachList notes).2).Clashes (s.catalog name) ↔
        (Call.add n notes).Clashes (s.catalog name) := by
      simp only [Call.Clashes, idOf_detachList]
    rcases h.add_result hid' with ⟨hclashes, hadd⟩ | ⟨hfree, c, hadd⟩
    · exact .inl ⟨hclash.mp hclashes, _, Store.annotate_of_error hadd⟩
    · refine .inr ⟨mt hclash.mpr hfree, _, Store.annotate_of_ok hadd, ?_, ?_, fun m => ?_,
        fun other hother => ?_⟩
      · rw [Store.catalog_setCatalog_self]
        exact h.add hid' hadd
      · rw [Store.catalog_setCatalog_self]
        exact h.add_succeeds hid' hadd
      · rw [Store.catalog_setCatalog_self, Call.leaves]
        exact get?_add hadd m
      · rw [Store.catalog_setCatalog_of_ne hother, detached_catalog]
  | remove n =>
    refine .inr ⟨nofun, _, rfl, ?_, ?_, fun m => ?_, fun other hother => ?_⟩
    · rw [Store.catalog_setCatalog_self]
      exact h.remove n
    · rw [Store.catalog_setCatalog_self]
      exact remove_succeeds _ n
    · rw [Store.catalog_setCatalog_self, Call.leaves]
      exact get?_remove _ n m
    · exact Store.catalog_setCatalog_of_ne hother ..
  | clear =>
    refine .inr ⟨nofun, _, rfl, ?_, ?_, fun m => ?_, fun other hother => ?_⟩
    · rw [Store.catalog_setCatalog_self]
      exact sound_empty
    · rw [Store.catalog_setCatalog_self]
      exact succeeds_of_sublist (List.nil_sublist _)
    · rw [Store.catalog_setCatalog_self]
      rfl
    · exact Store.catalog_setCatalog_of_ne hother ..

/-- What every call keeps, refused or not. -/
theorem Call.run_keeps (h : (s.catalog name).Sound) (hid : call.Textual) :
    ((call.run name s).2.catalog name).Sound ∧
      Succeeds (s.catalog name).ids ((call.run name s).2.catalog name).ids := by
  rcases Call.run_result h hid with ⟨-, id, hrun⟩ | ⟨-, t, hrun, hsound, hsucceeds, -⟩
  · rw [hrun]
    exact ⟨h, succeeds_of_sublist (.refl _)⟩
  · rw [show call.run name s = (.ok (), t) from hrun]
    exact ⟨hsound, hsucceeds⟩

/-! ### Runs -/

/-- Calls may be run in two portions. -/
theorem runAll_append (calls more : List Call) (s : Store) :
    runAll name (calls ++ more) s = runAll name more (runAll name calls s) :=
  List.foldl_append

/-- A catalog stays sound behind any calls with texts as ids: induction on the calls. -/
theorem sound_runAll (h : (s.catalog name).Sound) (hids : ∀ call ∈ calls, call.Textual) :
    ((runAll name calls s).catalog name).Sound := by
  induction calls generalizing s with
  | nil => exact h
  | cons call rest ih =>
    exact ih (Call.run_keeps h (hids _ (List.mem_cons_self ..))).1 fun call hcall =>
      hids _ (List.mem_cons_of_mem _ hcall)

/-- The catalog behind the first calls. -/
def behind (name : String) (s : Store) (calls : List Call) (k : Nat) : Catalog :=
  (runAll name (calls.take k) s).catalog name

/-- With that call a node has newly taken its id for the last time: nobody holds the id before it,
    and the node ever since. -/
structure Acquired (name : String) (s : Store) (calls : List Call) (k : Nat)
    (p : Value × NodeId) : Prop where
  within : k < calls.length
  free : ∀ m, (p.1, m) ∉ (behind name s calls k).ids
  since : ∀ j, k < j → j ≤ calls.length → p ∈ (behind name s calls j).ids

variable {p : Value × NodeId} {j k : Nat}

/-- An id is taken for the last time with one call only. -/
theorem Acquired.unique (h : Acquired name s calls k p) (h' : Acquired name s calls j p) :
    j = k := by
  rcases Nat.lt_trichotomy j k with hlt | heq | hlt
  · exact absurd (h'.since k hlt (Nat.le_of_lt h.within)) (h.free p.2)
  · exact heq
  · exact absurd (h.since j hlt (Nat.le_of_lt h'.within)) (h'.free p.2)

/-- The catalog behind the first calls does not depend on later ones. -/
theorem behind_append (hk : k ≤ calls.length) (more : List Call) :
    behind name s (calls ++ more) k = behind name s calls k := by
  unfold behind
  rw [List.take_append_of_le_length hk]

/-- Behind all calls the catalog is that of the run. -/
theorem behind_length (name : String) (s : Store) (calls : List Call) :
    behind name s calls calls.length = (runAll name calls s).catalog name := by
  unfold behind
  rw [List.take_length]

/-- One more call that leaves an id to its node. -/
theorem Acquired.append (h : Acquired name s calls k p)
    (hp : p ∈ ((runAll name (calls ++ [call]) s).catalog name).ids) :
    Acquired name s (calls ++ [call]) k p where
  within := by
    rw [List.length_append]
    exact Nat.lt_add_right _ h.within
  free m := by
    rw [behind_append (Nat.le_of_lt h.within)]
    exact h.free m
  since j hkj hj := by
    rcases Nat.lt_or_ge calls.length j with hlast | hearlier
    · obtain rfl : j = (calls ++ [call]).length := by
        rw [List.length_append, List.length_singleton] at hj ⊢
        omega
      rwa [behind_length]
    · rw [behind_append hearlier]
      exact h.since j hkj hearlier

/-- An id that was held before the last call was not taken with it. -/
theorem Acquired.of_append (h : Acquired name s (calls ++ [call]) k p)
    (hp : p ∈ ((runAll name calls s).catalog name).ids) : Acquired name s calls k p := by
  have hk : k < calls.length := by
    refine Nat.lt_of_le_of_ne ?_ ?_
    · have := h.within
      rw [List.length_append, List.length_singleton] at this
      omega
    · rintro rfl
      refine h.free p.2 ?_
      rwa [behind_append (Nat.le_refl _), behind_length]
  refine ⟨hk, fun m => ?_, fun j hkj hj => ?_⟩
  · rw [← behind_append (Nat.le_of_lt hk) [call]]
    exact h.free m
  · rw [← behind_append hj [call]]
    exact h.since j hkj (by rw [List.length_append]; omega)

/-- An id that is new behind the last call was taken with it. -/
theorem acquired_last (hfree : ∀ m, (p.1, m) ∉ ((runAll name calls s).catalog name).ids)
    (hp : p ∈ ((runAll name (calls ++ [call]) s).catalog name).ids) :
    Acquired name s (calls ++ [call]) calls.length p where
  within := by simp
  free m := by
    rw [behind_append (Nat.le_refl _), behind_length]
    exact hfree m
  since j hkj hj := by
    obtain rfl : j = (calls ++ [call]).length := by
      rw [List.length_append, List.length_singleton] at hj ⊢
      omega
    rwa [behind_length]

/-- **Order.** Every id was taken with some call, and the ids stand in the order of these calls. -/
theorem ids_chronological (hs : s.catalog name = {}) (hids : ∀ call ∈ calls, call.Textual) :
    (∀ p ∈ ((runAll name calls s).catalog name).ids, ∃ k, Acquired name s calls k p) ∧
      ((runAll name calls s).catalog name).ids.Pairwise fun p q =>
        ∀ j k, Acquired name s calls j p → Acquired name s calls k q → j < k := by
  induction calls using List.reverseRecOn with
  | nil =>
    have hnone : ((runAll name [] s).catalog name).ids = [] := by
      rw [show runAll name [] s = s from rfl, hs]
    rw [hnone]
    exact ⟨nofun, .nil⟩
  | append_singleton calls call ih =>
    have hearlier : ∀ call ∈ calls, call.Textual :=
      fun call hcall => hids _ (List.mem_append_left _ hcall)
    obtain ⟨hmoments, horder⟩ := ih hearlier
    have hsound : ((runAll name calls s).catalog name).Sound :=
      sound_runAll (hs ▸ sound_empty) hearlier
    -- the last call leaves some of the ids, and puts at most one new one behind them
    obtain ⟨still, taken, hnow, hsub, hone, hfresh⟩ :=
      (Call.run_keeps hsound (hids call (List.mem_append_right _ (List.mem_cons_self ..)))).2
    replace hnow : ((runAll name (calls ++ [call]) s).catalog name).ids = still ++ taken := by
      rw [runAll_append]
      exact hnow
    have hstill : ∀ p ∈ still, p ∈ ((runAll name (calls ++ [call]) s).catalog name).ids :=
      fun p hp => hnow ▸ List.mem_append_left _ hp
    have htaken : ∀ p ∈ taken, Acquired name s (calls ++ [call]) calls.length p :=
      fun p hp => acquired_last (hfresh p hp) (hnow ▸ List.mem_append_right _ hp)
    rw [hnow]
    refine ⟨fun p hp => ?_, List.pairwise_append.mpr ⟨?_, ?_, fun p hp q hq j k hj hk => ?_⟩⟩
    · rcases List.mem_append.mp hp with hp | hp
      · obtain ⟨k, hk⟩ := hmoments p (hsub.subset hp)
        exact ⟨k, hk.append (hstill p hp)⟩
      · exact ⟨_, htaken p hp⟩
    · refine (horder.sublist hsub).imp_of_mem fun {p q} hp hq hlt j k hj hk => ?_
      exact hlt j k (hj.of_append (hsub.subset hp)) (hk.of_append (hsub.subset hq))
    · match taken, hone with
      | [], _ => exact .nil
      | [p], _ => exact List.pairwise_singleton ..
    · rw [(htaken q hq).unique hk]
      exact (hj.of_append (hsub.subset hp)).within

/-- **Registrations.** Behind any calls whose annotations carry texts as ids, or none, the ids are
    exactly those that annotations carry, each held by one node; they stand in the order in which
    they were last newly taken.  A further call is refused exactly if another node holds the id, and
    then nothing changes; otherwise it changes the annotation of the node that it is about. -/
theorem registrations_exact (name : String) {s : Store} (hs : s.catalog name = {})
    (calls : List Call) (hids : ∀ call ∈ calls, call.Textual) :
    let t := runAll name calls s
    let c := t.catalog name
    (∀ i n, (i, n) ∈ c.ids ↔ i ≠ .null ∧ ∃ notes, c.get? n = some notes ∧ idOf notes = i) ∧
    c.ids.Pairwise (fun p q => p.1 ≠ q.1 ∧ p.2 ≠ q.2) ∧
    (∀ p ∈ c.ids, ∃! k, Acquired name s calls k p) ∧
    c.ids.Pairwise (fun p q =>
      ∀ j k, Acquired name s calls j p → Acquired name s calls k q → j < k) ∧
    ∀ call : Call, call.Textual →
      (call.Clashes c → ∃ id, call.run name t = (.error (.idTaken id), t)) ∧
      (¬ call.Clashes c → ∃ u, Returns (call.run name) t () u ∧
        (∀ n, (u.catalog name).get? n = call.leaves name t n) ∧
        ∀ other, other ≠ name → u.catalog other = t.catalog other) := by
  intro t c
  have hsound : c.Sound := sound_runAll (hs ▸ sound_empty) hids
  obtain ⟨hmoments, horder⟩ := ids_chronological hs hids
  -- two ids of one node would both be the id of its annotation
  refine ⟨fun i n => hsound.held, hsound.unique.imp_of_mem fun {p q} hp hq hne => ⟨hne, ?_⟩,
    fun p hp => ?_, horder, fun call hcall => ⟨fun hclash => ?_, fun hfree => ?_⟩⟩
  · intro hsame
    obtain ⟨-, notes, hnotes, hi⟩ := hsound.held.mp hp
    exact hne (hi.symm.trans (hsound.idOf_eq hq (hsame ▸ hnotes)))
  · obtain ⟨k, hk⟩ := hmoments p hp
    exact ⟨k, hk, fun j hj => hk.unique hj⟩
  · rcases Call.run_result hsound hcall with ⟨-, hrefused⟩ | ⟨hfree, -⟩
    · exact hrefused
    · exact absurd hclash hfree
  · rcases Call.run_result hsound hcall with ⟨hclash, -⟩ | ⟨-, u, hrun, -, -, hleaves, hother⟩
    · exact absurd hclash hfree
    · exact ⟨u, hrun, hleaves, hother⟩

/-- A node asks in vain for the id of another one, and gets it once that node has taken another
    name. -/
theorem registrations_exact_passedText :
    let calls : List Call :=
      [.add (.node 0) [(.str "id", .str "a")], .add (.node 1) [(.str "id", .str "b")],
        .add (.node 1) [(.str "id", .str "a")], .add (.node 0) [(.str "id", .str "c")],
        .add (.node 1) [(.str "id", .str "a")], .add (.node 2) [], .remove (.node 2)]
    let t := runAll "r" calls {}
    (t.catalog "r").ids = [(.str "c", .node 0), (.str "a", .node 1)] ∧
      (∃! k, Acquired "r" {} calls k (.str "a", .node 1)) ∧
      (∃ id, (Call.add (.node 2) [(.str "id", .str "c")]).run "r" t = (.error (.idTaken id), t)) ∧
      ∃ u, Returns ((Call.add (.node 2) [(.str "id", .str "b")]).run "r") t () u := by
  intro calls t
  have hids : ∀ call ∈ calls, call.Textual := by simp [calls, Call.Textual, idOf, Entries.get?]
  have htable : (t.catalog "r").ids = [(.str "c", .node 0), (.str "a", .node 1)] := by
    decide +kernel
  obtain ⟨-, -, hmoments, -, hcalls⟩ := registrations_exact "r" (s := {}) rfl calls hids
  refine ⟨htable, hmoments _ (htable ▸ by simp), ?_, ?_⟩
  · refine (hcalls (.add (.node 2) [(.str "id", .str "c")]) (.inr ⟨"c", rfl⟩)).1 ?_
    exact ⟨.node 0, by decide, htable ▸ by simp [idOf, Entries.get?]⟩
  · obtain ⟨u, hu, -⟩ :=
      (hcalls (.add (.node 2) [(.str "id", .str "b")]) (.inr ⟨"b", rfl⟩)).2 (by
        rintro ⟨m, -, hm⟩
        rw [htable] at hm
        simp [idOf, Entries.get?] at hm)
    exact ⟨u, hu⟩

end SchemaGraph.Catalog
