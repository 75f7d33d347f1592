import SchemaGraph.Proofs.Survey.Cycles
import SchemaGraph.Proofs.Survey.Replaying
import SchemaGraph.Proofs.Value.Renaming

namespace SchemaGraph

open SchemaGraph.Action Conversion

/-!
# Nodes that only write

The recipe of a node without children is a list of keywords.  Such a node is visited without a visit
to any other one and without a failure, and its fragment is what the recipe writes, under the
annotation of the node.

* `Entries.keyed`             — entries under texts
* `Node.Writes`               — a node whose recipe is a list of keywords
* `Converter.process_writes`  — the run of a descent from such a node
* `Converter.fragment_writes` — the fragment of such a node, wherever it is visited
-/

/-! ### Entries under texts -/

namespace Entries

/-- Entries under texts. -/
def keyed (ws : List (String × Value)) : Entries := ws.map fun w => (.str w.1, w.2)

variable {ws us : List (String × Value)} {name : String}

/-- The keys are texts. -/
theorem texts_keyed (ws : List (String × Value)) : (keyed ws).Texts := by
  intro p hp
  obtain ⟨w, -, rfl⟩ := List.mem_map.mp hp
  exact ⟨w.1, rfl⟩

/-- Nothing stands under a name that is not among the keys. -/
theorem get?_keyed_none (h : name ∉ ws.map (·.1)) : (keyed ws).get? (.str name) = none := by
  refine get?_eq_none fun p hp heq => h ?_
  obtain ⟨w, hw, rfl⟩ := List.mem_map.mp hp
  rw [Value.canonical_str, Value.canonical_str] at heq
  rw [← Value.str.inj heq]
  exact List.mem_map_of_mem hw

/-- A name stands for the first value that it has. -/
theorem get?_keyed_append (ws us : List (String × Value)) (name : String) :
    (keyed (ws ++ us)).get? (.str name)
      = ((keyed ws).get? (.str name)).or ((keyed us).get? (.str name)) := by
  induction ws with
  | nil => rfl
  | cons w rest ih =>
    have hcons : ∀ vs, keyed (w :: vs) = (.str w.1, w.2) :: keyed vs := fun _ => rfl
    rw [List.cons_append, hcons, hcons, get?, get?]
    split
    · rfl
    · exact ih

/-- Entries under different texts are merged in one behind the other. -/
theorem update_keyed (h : (ws.map (·.1)).Nodup) {e : Entries}
    (hnew : ∀ w ∈ ws, e.get? (.str w.1) = none) : e.update (keyed ws) = e ++ keyed ws := by
  induction ws generalizing e with
  | nil => exact (List.append_nil e).symm
  | cons w rest ih =>
    obtain ⟨hw, hrest⟩ := List.forall_mem_cons.mp hnew
    rw [List.map_cons, List.nodup_cons] at h
    show (e.set (.str w.1) w.2).update (keyed rest) = e ++ (.str w.1, w.2) :: keyed rest
    rw [ih h.2, set_of_get?_none hw, List.append_assoc]
    · rfl
    · intro u hu
      rw [get?_set_str, if_neg fun heq : u.1 = w.1 => h.1 (heq ▸ List.mem_map_of_mem hu)]
      exact hrest u hu

/-- Entries under different texts are a mapping. -/
theorem update_nil_keyed (h : (ws.map (·.1)).Nodup) : update [] (keyed ws) = keyed ws :=
  update_keyed h fun _ _ => rfl

end Entries

/-! ### Recipes -/

/-- Steps that write keywords. -/
def writeSteps (ws : List (String × Value)) : List Step := ws.map fun w => .write w.1 w.2

/-- Nothing happens to a node but that keywords are written, each once. -/
structure Node.Writes (node : Node) (settings : LoweringSettings) (ws : List (String × Value)) :
    Prop where
  kind : node.kind ≠ .pipe
  recipe : ∀ catchall path, node.recipe settings catchall path = writeSteps ws
  nodup : (ws.map (·.1)).Nodup

variable {node : Node} {ws : List (String × Value)} {n : NodeId} {guide : Guide} {conv : Converter}
  {c d : Conversion}

/-- Steps that write keywords write them over the fragment, in order. -/
theorem Step.replayAll_writeSteps {required : List (String × NodeId) → Option (List String)}
    {answer : Option Resolved} (ws : List (String × Value)) (v : Visit) :
    replayAll required answer (writeSteps ws) v
      = some { v with fragment := v.fragment.update (.keyed ws) } := by
  induction ws generalizing v with
  | nil => rfl
  | cons w rest ih => exact ih { v with fragment := v.fragment.set (.str w.1) w.2 }

/-- Where no default was found on the way, there is none to settle. -/
theorem Conversion.settleDefault_eq {kind : Kind} (hkind : kind ≠ .pipe) {v : Visit}
    (hv : v.prefault = .undefined) : settleDefault kind v = v := by
  unfold settleDefault
  rw [if_neg hkind]
  dsimp only
  rw [if_neg fun h => h.1 hv]

/-- What a node contributes that only writes: its keywords, under its annotation. -/
theorem Store.contents?_writes {s : Store} {links : Nat} {v : Visit} (hn : s.node? n = some node)
    (h : node.Writes guide.settings ws) (hv : s.contents? guide links n = some v) :
    v.fragment = (Entries.keyed ws).update (((s.catalog guide.catalog).get? n).getD []) := by
  obtain ⟨node', w, hn', hw, rfl⟩ := contents?_eq_some.mp hv
  obtain rfl := Option.some.inj (hn.symm.trans hn')
  rw [h.recipe, Step.replayAll_writeSteps] at hw
  obtain rfl := Option.some.inj hw
  -- Without a prefault there is nothing to settle.
  have hsettled : ∀ w : Visit, w.prefault = .undefined →
      w.settled guide.settings.side node.kind = w := by
    intro w hw
    unfold Visit.settled
    rw [settleDefault_eq h.kind hw, ite_self]
  have hwritten : Entries.update [] (.keyed ws) = .keyed ws := Entries.update_nil_keyed h.nodup
  cases (s.catalog guide.catalog).get? n with
  | none =>
    rw [hsettled _ rfl]
    exact hwritten
  | some notes =>
    rw [hsettled _ rfl]
    exact congrArg (Entries.update · notes) hwritten

/-! ### Descents -/

namespace Conversion

/-- A conversion with a visit more. -/
def holding (c : Conversion) (n : NodeId) (v : Visit) : Conversion :=
  { c with survey := { c.survey with visits := c.survey.visits ++ [(n, v)] } }

variable {v : Visit}

/-- A conversion that holds a visit more finds it at its node. -/
theorem visit?_holding (hn : c.survey.has n = false) (v : Visit) :
    (c.holding n v).survey.visit? n = some v := by
  have hnone : Survey.find? n c.survey.visits = none := by
    simpa [Survey.has, Survey.visit?] using hn
  simp [holding, Survey.visit?, Survey.find?_append, Survey.find?, hnone]

/-- A change of the new visit changes nothing else. -/
theorem change_holding {f : Visit → Visit} (hn : c.survey.has n = false) :
    { c.holding n v with survey := (c.holding n v).survey.modify n f } = c.holding n (f v) := by
  have hchange : ∀ {vs : List (NodeId × Visit)}, n ∉ vs.map (·.1) →
      Survey.change n f (vs ++ [(n, v)]) = vs ++ [(n, f v)] := by
    intro vs
    induction vs with
    | nil => simp [Survey.change]
    | cons p rest ih =>
      intro hp
      rw [List.map_cons, List.mem_cons, not_or] at hp
      rw [List.cons_append, Survey.change, if_neg (Ne.symm hp.1), ih hp.2]
      rfl
  have hnot : n ∉ c.survey.visits.map (·.1) := by
    rw [← Survey.order, ← Survey.has_iff, hn]
    exact Bool.false_ne_true
  show ({ c with survey := { c.survey with visits := _ } } : Conversion) = _
  rw [holding, hchange hnot]
  rfl

/-- A change of the new visit is made to it as an action. -/
theorem run_onVisit_holding (hn : c.survey.has n = false) (f : Visit → Visit) :
    onVisit n f (c.holding n v) = (.ok (), c.holding n (f v)) := by
  rw [← change_holding hn]
  rfl

/-- Keywords are written one after the other. -/
theorem run_performAll_writes {side : Side} {visit : NodeId → Path → Action Conversion Unit}
    (hn : c.survey.has n = false) (ws : List (String × Value)) (v : Visit) :
    performAll side visit n (writeSteps ws) (c.holding n v)
      = (.ok (), c.holding n { v with fragment := v.fragment.update (.keyed ws) }) := by
  induction ws generalizing v with
  | nil => rfl
  | cons w rest ih =>
    show performAll side visit n (.write w.1 w.2 :: writeSteps rest) (c.holding n v) = _
    unfold performAll perform onFragment
    dsimp only
    rw [run_bind, run_onVisit_holding hn]
    exact ih _

/-- Behind its recipe the annotation of a node is written, and there is no default to settle. -/
theorem run_polish_writes {kind : Kind} (hkind : kind ≠ .pipe) (hn : c.survey.has n = false)
    (notes : Option Entries) (hv : v.prefault = .undefined) :
    polish guide n kind notes (c.holding n v)
      = (.ok (), c.holding n { v with fragment := v.fragment.update (notes.getD []) }) := by
  have hdefault : ∀ w : Visit, w.prefault = .undefined →
      (if guide.settings.side = .input then onVisit n (settleDefault kind) else pure ())
        (c.holding n w) = (.ok (), c.holding n w) := by
    intro w hw
    split
    · rw [run_onVisit_holding hn, settleDefault_eq hkind hw]
    · rfl
  unfold polish
  cases notes with
  | none => exact hdefault v hv
  | some notes =>
    unfold onFragment
    dsimp only
    rw [run_bind, run_onVisit_holding hn]
    exact hdefault _ hv

end Conversion

namespace Converter

/-- **Descents.** A descent from a node that only writes returns, and what it leaves is one visit
    more: that of the node, with its keywords under its annotation. -/
theorem process_writes (hn : c.store.node? n = some node) (h : node.Writes conv.guide.settings ws)
    (hnew : c.survey.has n = false) :
    ∃ event, conv.process n c = (.ok (), { c.holding n
        { fragment := (Entries.keyed ws).update
            (((c.store.catalog conv.guide.catalog).get? n).getD []) } with
      store := c.store.record event }) := by
  -- The visit of a leaf is its recipe, which only writes, and its annotation.
  have hvisit : Conversion.visit conv.guide n [] [] c = (.ok (), c.holding n
      { fragment := (Entries.keyed ws).update
          (((c.store.catalog conv.guide.catalog).get? n).getD []) }) := by
    unfold Conversion.visit
    rw [run_bind, run_get]
    dsimp only
    rw [arrive_eq, if_neg (by rw [hnew]; exact Bool.false_ne_true)]
    dsimp only
    have hfound : (c.holding n {}).store.node? n = some node := hn
    rw [show c.entered n = c.holding n {} from rfl, run_lower hfound, h.recipe, run_bind,
      run_performAll_writes hnew]
    dsimp only
    rw [run_bind, run_get]
    dsimp only
    rw [run_polish_writes h.kind hnew _ rfl]
    exact congrArg (fun es : Entries => (Except.ok (), c.holding n
      { fragment := es.update (((c.store.catalog conv.guide.catalog).get? n).getD []) }))
      (Entries.update_nil_keyed h.nodup)
  unfold process
  rw [run_bind, hvisit]
  exact ⟨_, rfl⟩

/-- **Fragments.** Wherever a node that only writes is visited first, by a descent that returns, its
    fragment holds its keywords, under its annotation. -/
theorem fragment_writes {root : NodeId} (hs : c.store.Closed) (hn : c.store.node? n = some node)
    (h : node.Writes conv.guide.settings ws) (hnew : c.survey.has n = false)
    (hvisit : Returns (conv.process root) c () d) (hhas : d.survey.has n = true) :
    d.survey.fragment n = (Entries.keyed ws).update
      (((d.store.catalog conv.guide.catalog).get? n).getD []) := by
  obtain ⟨hexplores, -⟩ := process_explores hs hvisit
  obtain ⟨v, hv⟩ := Survey.visit?_of_has hhas
  obtain ⟨links, w, hw, hcontent⟩ := hexplores.contents hnew hv
  have hnode : d.store.node? n = some node := (hexplores.descends.store hs).1.node? hn
  have hfragment : w.fragment = v.fragment := congrArg (·.1) hcontent
  unfold Survey.fragment
  rw [hv, Option.map_some, Option.getD_some, ← hfragment]
  exact Store.contents?_writes hnode h hw

/-- A descent from a node that only writes leaves its keywords in its fragment. -/
theorem exists_process_writes (hn : c.store.node? n = some node)
    (h : node.Writes conv.guide.settings ws) (hnew : c.survey.has n = false) :
    ∃ d, Returns (conv.process n) c () d ∧ d.survey.fragment n = (Entries.keyed ws).update
      (((d.store.catalog conv.guide.catalog).get? n).getD []) := by
  obtain ⟨event, hrun⟩ := process_writes hn h hnew
  refine ⟨_, hrun, ?_⟩
  unfold Survey.fragment
  dsimp only
  rw [visit?_holding hnew]
  rfl

end Converter

end SchemaGraph
