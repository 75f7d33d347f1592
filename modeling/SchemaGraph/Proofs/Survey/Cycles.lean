import Mathlib.Order.WellFounded
import SchemaGraph.Converter
import SchemaGraph.Proofs.Survey.Exploration

namespace SchemaGraph.Converter

open SchemaGraph.Action Conversion

/-!
# Cycle marks

Whatever roots are visited into a survey, one after the other, the marks in the survey are
exact: a node is marked if and only if some cycle of the graph leads through it on which it
was the first node to be visited.

* `Converter.processAll_explores` — what visits to several roots have done
* `Converter.cycle_marks_exact`   — the marks of a survey are exact
-/

variable {conv : Converter}

/-- Visiting a root explores what it leads to, and visits the root. -/
theorem process_explores {c c' : Conversion} {root : NodeId} (hs : c.store.Closed)
    (h : Returns (conv.process root) c () c') :
    Explores conv.guide [] [] c c' ∧ c'.survey.has root = true := by
  obtain ⟨_, d, hd, h₁⟩ := returns_bind.mp h
  obtain ⟨hexp, hhas⟩ := visit_explores hs hd
  obtain ⟨_, e, hget, hlog⟩ := returns_bind.mp h₁
  obtain ⟨-, rfl⟩ := returns_get.mp hget
  have hlogged : Explores conv.guide [] [] e c' :=
    explores_onStore (fun s => (Store.log_makes _ s).keeps) hlog
  exact ⟨hexp.trans hs nofun hlogged, hlogged.descends.has hhas⟩

/-- **Visits to several roots.** All roots are visited, and everything below them is
    explored. -/
theorem processAll_explores {c c' : Conversion} {roots : List NodeId} (hs : c.store.Closed)
    (h : Returns (conv.processAll roots) c () c') :
    Explores conv.guide [] [] c c' ∧ ∀ root ∈ roots, c'.survey.has root = true := by
  induction roots generalizing c with
  | nil =>
    obtain ⟨-, rfl⟩ := returns_pure.mp h
    exact ⟨.refl _, nofun⟩
  | cons root rest ih =>
    obtain ⟨_, d, hd, h₁⟩ := returns_bind.mp h
    obtain ⟨hexp, hroot⟩ := process_explores hs hd
    obtain ⟨hrest, hall⟩ := ih (hexp.descends.store hs).2 h₁
    exact ⟨hexp.trans hs nofun hrest,
      List.forall_mem_cons.mpr ⟨hrest.descends.has hroot, hall⟩⟩

/-- A session starts on a closed store, if the store is closed. -/
theorem start_closed {store : Store} (hs : store.Closed) : (start store).store.Closed where
  links {n _} hn m hm := by
    have h := hs.links (n := n) (by cases n <;> exact hn) m hm
    cases m <;> exact h
  names {_ n} hn := by
    have h := hs.names hn
    cases n <;> exact h
  getters := hs.getters

/-- At the start nothing was visited. -/
theorem not_has_start (store : Store) (n : NodeId) : (start store).survey.has n = false := rfl

/-- A closed walk may be read from any of the nodes on it. -/
theorem isChain_rotated {r : NodeId → NodeId → Prop} {n m : NodeId} {xs : List NodeId}
    (hm : m ∈ n :: xs) (h : List.IsChain r (n :: (xs ++ [n]))) :
    ∃ ys, List.IsChain r (m :: (ys ++ [m])) ∧ ∀ y ∈ ys, y ∈ n :: xs := by
  rcases List.mem_cons.mp hm with rfl | hm
  · exact ⟨xs, h, fun y hy => List.mem_cons_of_mem _ hy⟩
  · obtain ⟨before, behind, rfl⟩ := List.append_of_mem hm
    -- down from `m` to `n`, and on from `n` to `m`
    have hdown : List.IsChain r ((m :: behind) ++ [n]) := by
      have h : List.IsChain r ((n :: before) ++ ((m :: behind) ++ [n])) := by simpa using h
      exact h.right_of_append
    have hon : List.IsChain r ([n] ++ (before ++ [m])) := by
      refine h.prefix ⟨behind ++ [n], ?_⟩
      simp
    refine ⟨behind ++ n :: before, ?_, fun y hy => ?_⟩
    · simpa using hdown.append_overlap hon (by simp)
    · rcases List.mem_append.mp hy with hy | hy
      · simp [hy]
      · rcases List.mem_cons.mp hy with rfl | hy
        · simp
        · simp [hy]

/-- All nodes on a walk from a visited node were visited, when everything is explored. -/
theorem has_of_isChain {c c' : Conversion} (hexp : Explores conv.guide [] [] c c')
    (hc : ∀ n, c.survey.has n = false) {n : NodeId} {xs : List NodeId}
    (hn : c'.survey.has n = true)
    (h : List.IsChain (c'.store.Edge conv.guide.settings.side) (n :: xs)) :
    ∀ x ∈ xs, c'.survey.has x = true := by
  induction xs generalizing n with
  | nil => nofun
  | cons x rest ih =>
    obtain ⟨⟨lead, hlead, hx⟩, hrest⟩ := List.isChain_cons_cons.mp h
    obtain ⟨-, hhas⟩ := (hexp.leads (hc n) hn lead hlead).has (.refl _) hx
    exact List.forall_mem_cons.mpr ⟨hhas, ih hhas hrest⟩

/-- **Cycle marks are exact.** After any visits to roots that return, a node is marked if and
    only if it was visited and some closed walk leads from it back to it on which it was the
    first node to be visited; and every closed walk from a visited node holds a marked one. -/
theorem cycle_marks_exact (conv : Converter) {store : Store} (hs : store.Closed)
    {roots : List NodeId} {c : Conversion}
    (h : Returns (conv.processAll roots) (start store) () c) :
    (∀ n, c.Marked n ↔
      c.survey.has n = true ∧ Looped conv.guide.settings.side c n) ∧
    ∀ n xs, c.survey.has n = true →
      List.IsChain (c.store.Edge conv.guide.settings.side) (n :: (xs ++ [n])) →
      ∃ m ∈ n :: xs, c.Marked m := by
  obtain ⟨hexp, -⟩ := processAll_explores (start_closed hs) h
  have hnew := not_has_start store
  refine ⟨fun n => ⟨fun hmark => ⟨hmark.has, ?_⟩, fun ⟨hn, hloop⟩ => ?_⟩, fun n xs hn hchain => ?_⟩
  · refine (hexp.loops hmark).resolve_left fun hold => ?_
    exact absurd hold.has (by simp [hnew n])
  · exact hexp.marks (hnew n) hn hloop
  · -- the node of the walk that was entered first
    obtain ⟨m, hm, hmin⟩ := (measure c.place).wf.has_min { x | x ∈ n :: xs }
      ⟨n, List.mem_cons_self ..⟩
    have hvisited : ∀ x ∈ n :: xs, c.survey.has x = true := by
      refine List.forall_mem_cons.mpr ⟨hn, fun x hx => ?_⟩
      exact has_of_isChain hexp hnew hn hchain x (List.mem_append_left _ hx)
    obtain ⟨ys, hys, hsub⟩ := isChain_rotated hm hchain
    refine ⟨m, hm, hexp.marks (hnew m) (hvisited m hm) ⟨ys, hys, fun y hy => ?_⟩⟩
    exact ⟨hvisited y (hsub y hy), Nat.le_of_not_lt (hmin y (hsub y hy))⟩

/-- Lists of lists: a list whose items may be absent, and are lists of the same kind. -/
def nestedLists : Store where
  nodes := [{ kind := .array, element := .node 1 }, { kind := .optional, inner := .node 0 }]

/-- No child of the nested lists is missing. -/
theorem nestedLists_closed : nestedLists.Closed :=
  .of_forall (by decide) nofun nofun

/-- The marks of nested lists are exact. -/
theorem cycle_marks_exact_nestedLists :
    ∃ c, Returns (({} : Converter).processAll [.node 1]) (start nestedLists) () c ∧
      (∀ n, c.Marked n ↔ c.survey.has n = true ∧ Looped .output c n) ∧
      ∀ n xs, c.survey.has n = true →
        List.IsChain (c.store.Edge .output) (n :: (xs ++ [n])) → ∃ m ∈ n :: xs, c.Marked m := by
  have h : Returns (({} : Converter).processAll [.node 1]) (start nestedLists) ()
      (({} : Converter).processAll [.node 1] (start nestedLists)).2 := rfl
  exact ⟨_, h, cycle_marks_exact {} nestedLists_closed h⟩

end SchemaGraph.Converter
