import Mathlib.Data.Fintype.Card
import Mathlib.Data.Set.Finite.Basic
import Mathlib.Logic.Relation
import SchemaGraph.Proofs.Document.Tree
import SchemaGraph.Proofs.Survey.Exploration
import SchemaGraph.Value.Data

namespace SchemaGraph

/-!
# Lowering without a survey

What a node stands for can be told by walking down from it, without remembering which nodes
were met before: its own keywords, below them those of the node whose content it passes on,
and the same again for the nodes that stand under keywords.

* `Store.Passes`    — a node passes on the content of another one
* `Store.keywords?` — the keywords of a node
* `Store.lower`     — the tree of a node, down to a depth
* `Explored.exists_keywords?` — in a survey that is complete, every node has keywords
-/

/-! ### Content passed on -/

/-- Where the content comes from that a node passes on. -/
def Node.passes? (side : Side) (node : Node) : Option Lead :=
  if node.lowering ≠ .null then none
  else if node.parent ≠ .gap then some (.child node.parent)
  else
    match node.kind with
    | .optional | .nonoptional | .promise | .default | .prefault | .fallback | .readonly =>
      some (.child node.inner)
    | .pipe => some (.child (if side = .input then node.input else node.output))
    | .lazy => some .answer
    | _ => none

/-- A node passes on the content of another one. -/
def Store.Passes (s : Store) (side : Side) (n m : NodeId) : Prop :=
  ∃ node lead, s.node? n = some node ∧ node.passes? side = some lead ∧
    s.follow? n lead = some m

/-- A node passes on the content of one other node at most. -/
theorem Store.Passes.unique {s : Store} {side : Side} {n m k : NodeId} (hm : s.Passes side n m)
    (hk : s.Passes side n k) : m = k := by
  obtain ⟨node, lead, hn, hlead, hm⟩ := hm
  obtain ⟨node', lead', hn', hlead', hk⟩ := hk
  obtain rfl := Option.some.inj (hn.symm.trans hn')
  obtain rfl := Option.some.inj (hlead.symm.trans hlead')
  exact Option.some.inj (hm.symm.trans hk)

/-- The lead of a step after which the content of another node is passed on. -/
def Step.passes? : Step → Option Lead
  | .inherit child _ => some (.child child)
  | .inheritResolved _ => some .answer
  | .inheritSource child _ => some (.child child)
  | _ => none

/-- A node passes on the content of one that it leads to. -/
theorem Store.Passes.edge {s : Store} {side : Side} {n m : NodeId} (h : s.Passes side n m) :
    s.Edge side n m := by
  obtain ⟨node, lead, hn, hlead, hm⟩ := h
  refine ⟨lead, ?_, hm⟩
  simp only [leads, hn]
  unfold Node.passes? at hlead
  unfold Node.leads
  split at hlead
  · cases hlead
  · rename_i hl
    rw [if_neg hl]
    split at hlead
    · rename_i hp
      rw [if_pos hp]
      cases hlead
      exact List.mem_singleton_self _
    · rename_i hp
      rw [if_neg hp]
      -- A kind that passes content on leads to what it passes on.
      unfold Node.kindLeads
      split at hlead <;> rename_i hk <;> simp_all

/-- What is passed on behind steps was passed on before, or comes from one of them. -/
theorem Step.passes_of_replayAll {required : List (String × NodeId) → Option (List String)}
    {answer : Option Resolved} {steps : List Step} {v v' : Visit} {m : NodeId}
    (h : replayAll required answer steps v = some v') (hm : v'.target = some m) :
    v.target = some m ∨ ∃ step ∈ steps, ∃ lead, step.passes? = some lead ∧
      (lead = .child m ∨ lead = .answer ∧ answer = some (.node m)) := by
  -- Induction on the steps: the target in the end is that of the last step that has set one.
  induction steps generalizing v with
  | nil =>
    cases h
    exact .inl hm
  | cons step rest ih =>
    obtain ⟨w, hw, h⟩ := replayAll_cons.mp h
    rcases ih h with hw' | ⟨step', hmem, hstep'⟩
    · have hfirst : v.target = some m ∨ ∃ lead, step.passes? = some lead ∧
          (lead = .child m ∨ lead = .answer ∧ answer = some (.node m)) := by
        cases step with
        | inherit child path =>
          cases hw
          cases hw'
          exact .inr ⟨_, rfl, .inl rfl⟩
        | inheritSource child path =>
          cases hw
          cases hw'
          exact .inr ⟨_, rfl, .inl rfl⟩
        | inheritResolved path =>
          obtain ⟨child, hchild, rfl⟩ := replay_inheritResolved.mp hw
          cases hw'
          exact .inr ⟨_, rfl, .inr ⟨rfl, hchild⟩⟩
        | require shape =>
          obtain ⟨names, -, rfl⟩ := replay_require.mp hw
          exact .inl hw'
        | fail f => cases hw
        | _ =>
          cases hw
          exact .inl hw'
      exact hfirst.imp id fun hlead => ⟨step, List.mem_cons_self .., hlead⟩
    · exact .inr ⟨step', List.mem_cons_of_mem _ hmem, hstep'⟩

/-- A step that writes keywords passes nothing on. -/
theorem passes?_of_lead?_none {step : Step} (h : step.lead? = none) : step.passes? = none := by
  cases step <;> first | rfl | cases h

/-- A step of a recipe with no leads leads nowhere. -/
theorem lead?_of_mem {steps : List Step} (h : Step.leadsOf steps = []) {step : Step}
    (hstep : step ∈ steps) : step.lead? = none := List.filterMap_eq_nil_iff.mp h step hstep

/-- Only the steps of wrappers, pipes and lazy nodes pass content on. -/
theorem passes?_kindSteps {settings : LoweringSettings} {catchall : Option Kind} {node : Node}
    {path : Path} {step : Step} (h : step ∈ kindSteps settings catchall node path) {lead : Lead}
    (hlead : step.passes? = some lead) :
    (match node.kind with
      | .optional | .nonoptional | .promise | .default | .prefault | .fallback | .readonly =>
        some (.child node.inner)
      | .pipe => some (.child (if settings.side = .input then node.input else node.output))
      | .lazy => some .answer
      | _ => none) = some lead := by
  cases byRule_kindSteps h with
  | inherit hwrapped =>
    cases hlead
    unfold Node.wrapped? at hwrapped
    cases hkind : node.kind <;> simp only [hkind, Option.some.injEq, reduceCtorEq] at hwrapped ⊢
    all_goals rw [hwrapped]
  | inheritResolved hkind =>
    rw [hkind]
    exact hlead
  | _ => cases hlead

/-- Of a recipe only the steps of nodes that pass content on do so, and all along one lead. -/
theorem passes?_recipe {settings : LoweringSettings} {catchall : Option Kind} {node : Node}
    {path : Path} {step : Step} (h : step ∈ node.recipe settings catchall path) {lead : Lead}
    (hlead : step.passes? = some lead) : node.passes? settings.side = some lead := by
  unfold Node.recipe at h
  unfold Node.passes?
  by_cases hl : node.lowering ≠ .null
  · rw [if_pos hl] at h
    rw [passes?_of_lead?_none (lead?_of_mem (leadsOf_loweringSteps _) h)] at hlead
    cases hlead
  · rw [if_neg hl] at h ⊢
    by_cases hp : node.parent ≠ .gap
    · rw [if_pos hp] at h ⊢
      obtain rfl := List.mem_singleton.mp h
      exact hlead
    · rw [if_neg hp] at h ⊢
      exact passes?_kindSteps h hlead

/-- An annotation leaves the target. -/
theorem Visit.target_annotated (notes : Option Entries) (v : Visit) :
    (v.annotated notes).target = v.target := by
  cases notes <;> rfl

/-- Settling a default leaves the target. -/
theorem Visit.target_settled (side : Side) (kind : Kind) (v : Visit) :
    (v.settled side kind).target = v.target := by
  unfold settled
  split <;> rfl

namespace Store

variable {s : Store} {guide : Guide} {links : Nat}

/-- **Content passed on.** A node contributes the content of another one only if it passes it
    on. -/
theorem passes_of_contents? {n m : NodeId} {v : Visit} (hv : s.contents? guide links n = some v)
    (hm : v.target = some m) : s.Passes guide.settings.side n m := by
  obtain ⟨node, w, hn, hw, rfl⟩ := contents?_eq_some.mp hv
  rw [Visit.target_settled, Visit.target_annotated] at hm
  rcases Step.passes_of_replayAll hw hm with hnew | ⟨step, hstep, lead, hlead, hfollow⟩
  · cases hnew
  · refine ⟨node, lead, hn, passes?_recipe hstep hlead, ?_⟩
    rcases hfollow with rfl | ⟨rfl, hanswer⟩
    · rfl
    · simp only [follow?, hanswer]

/-! ### Keywords -/

/-- The keywords of a node: its own, and below them those of the node whose content it passes
    on, over at most the given number of steps. -/
def keywords? (s : Store) (guide : Guide) (links : Nat) : Nat → NodeId → Option Entries
  | steps, n =>
    match s.contents? guide links n with
    | none => none
    | some v =>
      match v.target with
      | none => some v.fragment
      | some m =>
        match steps with
        | 0 => none
        | steps + 1 =>
          match keywords? s guide links steps m with
          | none => none
          | some below => some (below.update v.fragment)

/-- A node that passes nothing on has its own keywords. -/
theorem keywords?_of_none {steps : Nat} {n : NodeId} {v : Visit}
    (hv : s.contents? guide links n = some v) (ht : v.target = none) :
    s.keywords? guide links steps n = some v.fragment := by
  unfold keywords?
  simp only [hv, ht]

/-- A node that passes content on has the keywords of its target below its own. -/
theorem keywords?_succ {steps : Nat} {n m : NodeId} {v : Visit} {below : Entries}
    (hv : s.contents? guide links n = some v) (ht : v.target = some m)
    (hm : s.keywords? guide links steps m = some below) :
    s.keywords? guide links (steps + 1) n = some (below.update v.fragment) := by
  unfold keywords?
  simp only [hv, ht, hm]

/-- The keywords of a node are its own, or its own over those of the node that it passes on. -/
theorem keywords?_cases {steps : Nat} {n : NodeId} {es : Entries}
    (h : s.keywords? guide links steps n = some es) :
    ∃ v, s.contents? guide links n = some v ∧
      ((v.target = none ∧ es = v.fragment) ∨
        ∃ m steps' below, v.target = some m ∧ steps = steps' + 1 ∧
          s.keywords? guide links steps' m = some below ∧ es = below.update v.fragment) := by
  unfold keywords? at h
  split at h
  · cases h
  · rename_i v hv
    refine ⟨v, hv, ?_⟩
    split at h
    · rename_i ht
      cases h
      exact .inl ⟨ht, rfl⟩
    · rename_i m ht
      split at h
      · cases h
      · rename_i steps'
        split at h
        · cases h
        · rename_i below hbelow
          cases h
          exact .inr ⟨m, steps', below, ht, rfl, hbelow, rfl⟩

/-- Keywords that were found stay the same over more steps. -/
theorem keywords?_mono {steps more : Nat} (hle : steps ≤ more) {n : NodeId} {es : Entries}
    (h : s.keywords? guide links steps n = some es) :
    s.keywords? guide links more n = some es := by
  induction steps generalizing more n es with
  | zero =>
    obtain ⟨v, hv, ⟨ht, rfl⟩ | ⟨m, steps', below, ht, hsteps, -⟩⟩ := keywords?_cases h
    · exact keywords?_of_none hv ht
    · omega
  | succ steps ih =>
    obtain ⟨v, hv, ⟨ht, rfl⟩ | ⟨m, steps', below, ht, hsteps, hbelow, rfl⟩⟩ := keywords?_cases h
    · exact keywords?_of_none hv ht
    · obtain ⟨more, rfl⟩ : ∃ k, more = k + 1 := ⟨more - 1, by omega⟩
      obtain rfl : steps = steps' := by omega
      exact keywords?_succ hv ht (ih (by omega) hbelow)

end Store

/-! ### Trees -/

namespace Value

/-- A schema where one may stand: that of a node, or data. -/
def place (node : NodeId → Tree) (plain : List (String × Json) → Tree) : Value → Tree
  | .fragment n => node n
  | v =>
    match v.toJson with
    | .ok j => j.place plain
    | .error _ => .broken

/-- What stands under a keyword, when it is known what nodes and data stand for. -/
def read (node : NodeId → Tree) (plain : List (String × Json) → Tree) (role : Role)
    (v : Value) : Tree :=
  match v.toJson with
  | .ok j => j.read plain role
  | .error _ =>
    match role, v with
    | .schemas, .items .list xs => .list (xs.map (place node plain))
    | .schemas, v => place node plain v
    | .members, .dict es =>
      .members fun name => (Entries.get? (.str name) es).map (place node plain)
    | _, _ => .broken

end Value

/-- The tree of a node, down to a depth. -/
def Store.lower (s : Store) (guide : Guide) (links : Nat) : Nat → NodeId → Tree
  | 0, _ => .cut
  | depth + 1, n =>
    match s.keywords? guide links links n with
    | none => .broken
    | some es =>
      .members fun name => (es.get? (.str name)).map
        (Value.read (s.lower guide links depth) (Json.tree depth) (Role.of name))

/-! ### Complete surveys -/

/-- Along a relation that leads nowhere back, what passes from the nodes behind to a node holds
    of all nodes of a list. -/
theorem forall_mem_of_acyclic {order : List NodeId} {r : NodeId → NodeId → Prop}
    (hacyclic : ∀ n, ¬ Relation.TransGen r n n) {P : NodeId → Prop}
    (hstep : ∀ n ∈ order, (∀ m ∈ order, r n m → P m) → P n) : ∀ n ∈ order, P n := by
  let before : { n // n ∈ order } → { n // n ∈ order } → Prop :=
    fun a b => Relation.TransGen r b.1 a.1
  have htrans : IsTrans _ before := ⟨fun _ _ _ hab hbc => hbc.trans hab⟩
  have hirrefl : Std.Irrefl before := ⟨fun a => hacyclic a.1⟩
  have hfinite : Finite { n // n ∈ order } := (List.finite_toSet order).to_subtype
  have hwf : WellFounded before := Finite.wellFounded_of_trans_of_irrefl before
  have hall : ∀ a : { n // n ∈ order }, P a.1 := by
    intro a
    induction a using hwf.induction with
    | h a ih => exact hstep a.1 a.2 fun m hm hr => ih ⟨m, hm⟩ (.single hr)
  exact fun n hn => hall ⟨n, hn⟩

/-- A relation along which a number decreases leads nowhere back. -/
theorem Store.acyclic_of_rank {r : NodeId → NodeId → Prop} (rank : NodeId → Nat)
    (h : ∀ n m, r n m → rank m < rank n) (n : NodeId) : ¬ Relation.TransGen r n n := by
  have hdown : ∀ m, Relation.TransGen r n m → rank m < rank n := by
    intro m hm
    induction hm with
    | single hr => exact h _ _ hr
    | tail _ hr ih => exact (h _ _ hr).trans ih
  exact fun hn => lt_irrefl _ (hdown n hn)

/-- Bounds for finitely many nodes have a common one. -/
theorem exists_bound {order : List NodeId} {P : Nat → NodeId → Prop}
    (h : ∀ n ∈ order, ∃ bound, ∀ links, bound ≤ links → P links n) :
    ∃ bound, ∀ links, bound ≤ links → ∀ n ∈ order, P links n := by
  induction order with
  | nil => exact ⟨0, fun _ _ => nofun⟩
  | cons n rest ih =>
    obtain ⟨b, hb⟩ := h n (List.mem_cons_self ..)
    obtain ⟨b', hb'⟩ := ih fun m hm => h m (List.mem_cons_of_mem _ hm)
    refine ⟨max b b', fun links hle => List.forall_mem_cons.mpr ⟨hb links ?_, hb' links ?_⟩⟩
    · exact le_trans (le_max_left b b') hle
    · exact le_trans (le_max_right b b') hle

/-- A survey is complete: of every node that was visited it holds what the node contributes,
    and the nodes that it leads to were visited too. -/
structure Explored (guide : Guide) (s : Store) (survey : Survey) : Prop where
  contents : ∀ {n v}, survey.visit? n = some v →
    ∃ links w, s.contents? guide links n = some w ∧ w.content = v.content
  leads : ∀ {n}, survey.has n = true → ∀ lead ∈ s.leads guide.settings.side n,
    ∃ m, s.follow? n lead = some m ∧ survey.has m = true

namespace Explored

variable {guide : Guide} {s : Store} {survey : Survey}

/-- A descent into an empty survey that returns has completed it. -/
theorem of_explores {c c' : Conversion} (h : c.Explores guide [] [] c')
    (hc : ∀ n, c.survey.has n = false) : Explored guide c'.store c'.survey where
  contents hv := h.contents (hc _) hv
  leads hn lead hlead := by
    obtain ⟨m, hm, hhas, -⟩ := h.leads (hc _) hn lead hlead
    exact ⟨m, hm, hhas⟩

/-- A complete survey of a closed store is complete for a store that has grown. -/
theorem mono {t : Store} (h : Explored guide s survey) (hg : Store.Grows s t) (hs : s.Closed) :
    Explored guide t survey where
  contents hv := by
    obtain ⟨links, w, hw, hsame⟩ := h.contents hv
    exact ⟨links, w, Store.contents?_mono hg hs (le_refl _) hw, hsame⟩
  leads {n} hn lead hlead := by
    obtain ⟨v, hv⟩ := Survey.visit?_of_has hn
    obtain ⟨links, w, hw, -⟩ := h.contents hv
    rw [Store.leads_eq hg hs _ (Conversion.isSome_of_contents? hw)] at hlead
    obtain ⟨m, hm, hhas⟩ := h.leads hn lead hlead
    exact ⟨m, Store.follow?_mono hg hm, hhas⟩

/-- The nodes that visited nodes lead to were visited. -/
theorem edge (h : Explored guide s survey) {n m : NodeId} (hn : survey.has n = true)
    (he : s.Edge guide.settings.side n m) : survey.has m = true := by
  obtain ⟨lead, hlead, hm⟩ := he
  obtain ⟨k, hk, hhas⟩ := h.leads hn lead hlead
  obtain rfl : k = m := Option.some.inj (hk.symm.trans hm)
  exact hhas

/-- Over sufficiently many links every visited node contributes what the survey holds of it. -/
theorem exists_contents (h : Explored guide s survey) (hs : s.Closed) :
    ∃ bound, ∀ links, bound ≤ links → ∀ n ∈ survey.order, ∀ v, survey.visit? n = some v →
      ∃ w, s.contents? guide links n = some w ∧ w.content = v.content := by
  refine exists_bound fun n hn => ?_
  obtain ⟨v, hv⟩ := Survey.visit?_of_has ((Survey.has_iff _ _).mpr hn)
  obtain ⟨links, w, hw, hsame⟩ := h.contents hv
  refine ⟨links, fun more hle v' hv' => ?_⟩
  obtain rfl : v' = v := Option.some.inj (hv'.symm.trans hv)
  exact ⟨w, Store.contents?_mono (.refl s) hs hle hw, hsame⟩

/-- **Complete surveys.** Over sufficiently many links every visited node contributes what the
    survey holds of it, and has keywords; unless content is passed on in a circle. -/
theorem exists_keywords? (h : Explored guide s survey) (hs : s.Closed)
    (hacyclic : ∀ n, ¬ Relation.TransGen (s.Passes guide.settings.side) n n) :
    ∃ bound, ∀ links, bound ≤ links →
      (∀ n v, survey.visit? n = some v →
        ∃ w, s.contents? guide links n = some w ∧ w.content = v.content) ∧
      ∀ n, survey.has n = true → ∃ es, s.keywords? guide links bound n = some es := by
  obtain ⟨b, hb⟩ := h.exists_contents hs
  -- along the content passed on, every node needs one step more than the one behind it
  have hsteps : ∀ n ∈ survey.order, ∃ bound, ∀ steps, bound ≤ steps → ∀ links, b ≤ links →
      ∃ es, s.keywords? guide links steps n = some es := by
    refine forall_mem_of_acyclic hacyclic fun n hn ih => ?_
    obtain ⟨v, hv⟩ := Survey.visit?_of_has ((Survey.has_iff _ _).mpr hn)
    have hbehind : ∀ {w : Visit}, w.content = v.content → w.target = v.target :=
      fun hsame => congrArg (·.2.1) hsame
    cases ht : v.target with
    | none =>
      refine ⟨0, fun steps _ links hle => ?_⟩
      obtain ⟨w, hw, hsame⟩ := hb links hle n hn v hv
      exact ⟨_, Store.keywords?_of_none hw ((hbehind hsame).trans ht)⟩
    | some m =>
      obtain ⟨w, hw, hsame⟩ := hb b (le_refl b) n hn v hv
      have hpass := Store.passes_of_contents? hw ((hbehind hsame).trans ht)
      have hm := h.edge ((Survey.has_iff _ _).mpr hn) hpass.edge
      obtain ⟨bound, hbound⟩ := ih m ((Survey.has_iff _ _).mp hm) hpass
      refine ⟨bound + 1, fun steps hsteps links hle => ?_⟩
      obtain ⟨w, hw, hsame⟩ := hb links hle n hn v hv
      obtain ⟨below, hbelow⟩ := hbound (steps - 1) (by omega) links hle
      obtain ⟨more, rfl⟩ : ∃ more, steps = more + 1 := ⟨steps - 1, by omega⟩
      exact ⟨_, Store.keywords?_succ hw ((hbehind hsame).trans ht) hbelow⟩
  obtain ⟨b', hb'⟩ := exists_bound hsteps
  refine ⟨max b b', fun links hle => ⟨fun n v hv => ?_, fun n hn => ?_⟩⟩
  · have hn := (Survey.has_iff _ _).mp (Survey.has_of_visit? hv)
    exact hb links (le_trans (le_max_left b b') hle) n hn v hv
  · exact hb' (max b b') (le_max_right b b') n ((Survey.has_iff _ _).mp hn) links
      (le_trans (le_max_left b b') hle)

end Explored

end SchemaGraph
