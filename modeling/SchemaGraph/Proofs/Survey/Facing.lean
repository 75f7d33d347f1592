import SchemaGraph.Proofs.Survey.Ending
import SchemaGraph.Proofs.Survey.Routine
import SchemaGraph.Proofs.Survey.Upholding

namespace SchemaGraph

open SchemaGraph.Action Relation

/-!
# Graphs that look the same from either side

Four kinds of nodes describe other values on the input side than on the output side.  Where a root
has none of them below it, whatever its lazy nodes answer, the side makes no difference to a
descent: the recipes are the same, the same properties are optional, and no default is settled.

* `Store.Holds`, `Store.Below` — the graph below a root
* `Store.AskedBelow`           — what becomes of a store when lazy nodes below a root are asked
* `Store.OneSided`             — no node below a root looks different from the other side
* `Action.Matches`             — two actions that do the same from a state
* `Converter.process_facing`   — visits for either side are the same
-/

/-- The kinds of nodes that describe other values on the input side than on the output side. -/
def Kind.twoSided : Kind → Bool
  | .pipe | .default | .prefault | .fallback => true
  | _ => false

/-! ### The graph below a root -/

namespace Store

/-- A node holds another one: in one of its fields, or as what it answered as a lazy node. -/
inductive Holds (s : Store) (n m : NodeId) : Prop
  | field {node : Node} (hn : s.node? n = some node) (hm : m ∈ node.links)
  | answer (hm : s.resolved? n = some (.node m))

/-- The node belongs to the graph of a root. -/
abbrev Below (s : Store) (root n : NodeId) : Prop := ReflTransGen s.Holds root n

/-- What becomes of a store when lazy nodes in the graph of a root are asked, and events are
    recorded, in any order. -/
inductive AskedBelow (root : NodeId) : Store → Store → Prop
  | refl (s : Store) : AskedBelow root s s
  | event {s t : Store} (h : AskedBelow root s t) (e : Event) : AskedBelow root s (t.record e)
  | answer {s t : Store} (h : AskedBelow root s t) {n : NodeId} (hn : t.Below root n) :
    AskedBelow root s (resolve n t).2

/-- No node in the graph of a root describes other values on either side, and none will, whatever
    lazy nodes of the graph are asked. -/
def OneSided (s : Store) (root : NodeId) : Prop :=
  ∀ {t n node}, AskedBelow root s t → t.Below root n → t.node? n = some node →
    node.kind.twoSided = false

variable {s t u : Store} {root n m : NodeId} {node : Node}

/-- Lazy nodes may be asked in two rounds. -/
theorem AskedBelow.trans (h₁ : AskedBelow root s t) (h₂ : AskedBelow root t u) :
    AskedBelow root s u := by
  induction h₂ with
  | refl => exact h₁
  | event _ e ih => exact .event ih e
  | answer _ hn ih => exact .answer ih hn

instance : Std.Refl (AskedBelow root) := ⟨AskedBelow.refl⟩

instance : Trans (AskedBelow root) (AskedBelow root) (AskedBelow root) := ⟨AskedBelow.trans⟩

/-- Lazy nodes below a root are lazy nodes. -/
theorem AskedBelow.asked (h : AskedBelow root s t) : s.Asked t := by
  induction h with
  | refl => exact .refl _
  | event _ e ih => exact .event ih e
  | answer _ _ ih => exact .answer ih _

/-- A closed store stays closed when lazy nodes are asked. -/
theorem Asked.keeps (h : s.Asked t) : Keeps s t := by
  induction h with
  | refl => exact .refl _
  | event _ e ih => exact ih.trans (log_makes e _).keeps
  | answer _ n ih => exact ih.trans (resolve_keeps n _)

/-- What is below a root stays there while the store grows. -/
theorem Below.mono (h : s.Below root n) (hg : Grows s t) : t.Below root n := by
  refine ReflTransGen.mono (fun a b hab => ?_) _ _ h
  cases hab with
  | field hn hm => exact .field (hg.node? hn) hm
  | answer hm => exact .answer (hg.resolved hm)

/-- A closed store in which the graph of a root looks the same from either side. -/
structure Even (s : Store) (root : NodeId) : Prop where
  closed : s.Closed
  oneSided : s.OneSided root

/-- A graph that looks the same from either side does so when lazy nodes in it have been asked. -/
theorem Even.mono (h : s.Even root) (ha : AskedBelow root s t) : t.Even root :=
  ⟨(ha.asked.keeps h.closed).2, fun hlater => h.oneSided (ha.trans hlater)⟩

/-- What is below a root stays there when lazy nodes are asked. -/
theorem Even.below (h : s.Even root) (ha : AskedBelow root s t) (hn : s.Below root n) :
    t.Below root n := hn.mono (ha.asked.keeps h.closed).1

/-- In a graph that looks the same from either side no kind has two sides. -/
theorem Even.kind (h : s.Even root) (hn : s.Below root n) (hnode : s.node? n = some node) :
    node.kind.twoSided = false := h.oneSided (.refl s) hn hnode

/-- Where lazy nodes stand for nodes that there are, it is enough that these look the same from
    either side. -/
theorem oneSided_of_settled (hs : s.Settled) (hnodes : ∀ node ∈ s.nodes, node.kind.twoSided = false)
    (root : NodeId) : s.OneSided root := by
  intro t n node h _ hn
  have hsame : t.nodes = s.nodes := (hs.calm h.asked).nodes
  cases n with
  | gap => cases hn
  | node i =>
    refine hnodes node (List.mem_of_getElem? (i := i) ?_)
    rw [← hsame]
    exact hn

end Store

/-! ### Actions that match -/

namespace Action

variable {σ α β : Type} {R : σ → σ → Prop}

/-- From a state both actions do the same, and what they leave is related to it. -/
def Matches (R : σ → σ → Prop) (a b : Action σ α) (s : σ) : Prop := a s = b s ∧ R s (a s).2

/-- An action that stays within a relation matches itself. -/
theorem Within.matches {a : Action σ α} (h : Within R a) (s : σ) : Matches R a a s := ⟨rfl, h s⟩

/-- Actions match one after the other if they do from wherever the first ones return. -/
theorem Matches.bind [Trans R R R] {a b : Action σ α} {f g : α → Action σ β} {s : σ}
    (h : Matches R a b s)
    (hf : ∀ x t, Returns a s x t → R s t → Matches R (f x) (g x) t) :
    Matches R (a >>= f) (b >>= g) s := by
  obtain ⟨hsame, hleft⟩ := h
  unfold Matches
  rw [run_bind, run_bind, ← hsame]
  rcases ha : a s with ⟨e | x, t⟩ <;> rw [ha] at hleft
  · exact ⟨rfl, hleft⟩
  · obtain ⟨hnext, hthen⟩ := hf x t ha hleft
    exact ⟨hnext, Trans.trans hleft hthen⟩

end Action

/-! ### Questions about optional nodes -/

/-- A node that looks the same from either side is optional on both, or leaves the question to the
    same node. -/
theorem Node.optionality_input {node : Node} (h : node.kind.twoSided = false) :
    node.optionality .input = node.optionality .output := by
  unfold optionality
  split
  · rfl
  · cases hk : node.kind <;> rw [hk] at h <;> first | rfl | cases h

/-- Whose optionality counts for a node is one of its children. -/
theorem Node.mem_links_of_optionality {node : Node} {side : Side} {m : NodeId}
    (h : node.optionality side = .sameAs m) : m ∈ node.links := by
  unfold optionality at h
  split at h
  · cases h
    simp [links]
  · split at h <;> cases h <;> simp [links]

namespace Store

variable {s : Store} {root n : NodeId}

/-- A failure asks no lazy node. -/
theorem fail_askedBelow {α : Type} (f : Failure) :
    Within (AskedBelow root) (fail f : Action Store α) := by
  unfold fail
  split
  · exact .bind (fun s => .event (.refl s) _) fun _ => within_throw f
  · exact within_throw f

/-- Looking up a node asks no lazy node. -/
theorem fetch_askedBelow (n : NodeId) : Within (AskedBelow root) (fetch n) := by
  refine .bind within_get fun s => ?_
  split
  · exact within_pure _
  · exact fail_askedBelow _

/-- Asking a lazy node below the root matches itself. -/
theorem resolve_matches (hn : s.Below root n) :
    Matches (AskedBelow root) (resolve n) (resolve n) s := ⟨rfl, .answer (.refl s) hn⟩

/-- What a lazy node of the graph answers belongs to the graph. -/
theorem Even.answered {t : Store} (hs : s.Even root) (hn : s.Below root n) {m : NodeId}
    (hr : Returns (resolve n) s (.node m) t) (ha : AskedBelow root s t) : t.Below root m :=
  (hs.below ha hn).tail (.answer (resolve_returns hr hs.closed))

/-- Whether a node of the graph is optional is the same question on either side. -/
theorem isOptionalWithin_matches (links : Nat) (hs : s.Even root) (hn : s.Below root n) :
    Matches (AskedBelow root) (isOptionalWithin .input links n) (isOptionalWithin .output links n)
      s := by
  induction links generalizing s n with
  | zero => exact (fail_askedBelow _).matches s
  | succ links ih =>
    refine ((fetch_askedBelow n).matches s).bind fun node t hfetch _ => ?_
    obtain ⟨hnode, rfl⟩ := returns_fetch.mp hfetch
    -- One-sided nodes put the question to the same node on both sides.
    rw [Node.optionality_input (hs.kind hn hnode)]
    cases ho : node.optionality .output with
    | known answer => exact (within_pure _).matches t
    | sameAs m =>
      dsimp only
      split
      · exact (within_pure _).matches t
      · exact ih hs (hn.tail (.field hnode (Node.mem_links_of_optionality ho)))
    | asResolved =>
      refine (resolve_matches hn).bind fun answer u hr ha => ?_
      cases answer with
      | node m => exact ih (hs.mono ha) (hs.answered hn hr ha)
      | value v => exact (fail_askedBelow _).matches u

/-- Which properties must be there is the same question on either side. -/
theorem requiredNames_matches {shape : List (String × NodeId)} (hs : s.Even root)
    (hshape : ∀ p ∈ shape, s.Below root p.2) :
    Matches (AskedBelow root) (requiredNames .input shape) (requiredNames .output shape) s := by
  induction shape generalizing s with
  | nil => exact (within_pure _).matches s
  | cons p rest ih =>
    obtain ⟨name, child⟩ := p
    obtain ⟨hchild, hrest⟩ := List.forall_mem_cons.mp hshape
    refine Matches.bind (isOptionalWithin_matches _ hs hchild) fun skip t _ ha => ?_
    refine (ih (hs.mono ha) fun p hp => hs.below ha (hrest p hp)).bind fun names u _ _ => ?_
    exact (within_pure _).matches u

end Store

/-! ### Recipes -/

/-- A step that leads to children of the node alone, asks about them alone, and keeps no default. -/
def Step.Inward (node : Node) : Step → Prop
  | .visit child _ | .inherit child _ | .inheritSource child _ => child ∈ node.links
  | .require shape => ∀ p ∈ shape, p.2 ∈ node.links
  | .prefault _ => False
  | _ => True

section Recipes

variable {node : Node} {path : Path}

/-- Routine steps lead to children of the node alone. -/
theorem Step.Routine.inward {step : Step} (h : step.Routine node) : step.Inward node := by
  cases step with
  | visit _ _ | inherit _ _ | require _ => exact h
  | inheritSource _ _ | prefault _ => exact h.elim
  | _ => trivial

/-- The steps of a custom lowering lead nowhere. -/
theorem inward_loweringSteps (lowering : Value) :
    ∀ step ∈ loweringSteps lowering, step.Inward node := by
  unfold loweringSteps
  split
  · simp [Step.Inward]
  · dsimp only
    split <;> simp [Step.Inward]

/-- The rules for a kind that looks the same from either side keep no default. -/
theorem inward_kindSteps (settings : LoweringSettings) (catchall : Option Kind)
    (h : node.kind.twoSided = false) :
    ∀ step ∈ kindSteps settings catchall node path, step.Inward node := by
  have hkind : ∀ kind : Kind, kind.twoSided = true → node.kind ≠ kind := by
    rintro kind htwo rfl
    rw [h] at htwo
    cases htwo
  exact fun step hstep => (routine_kindSteps settings catchall (hkind .default rfl)
    (hkind .prefault rfl) (hkind .fallback rfl) step hstep).inward

/-- **Recipes.** The recipe of a node that looks the same from either side leads to its children
    alone, and keeps no default. -/
theorem Node.inward_recipe (settings : LoweringSettings) (catchall : Option Kind) (path : Path)
    (h : node.kind.twoSided = false) :
    ∀ step ∈ node.recipe settings catchall path, step.Inward node := by
  unfold Node.recipe
  split
  · exact inward_loweringSteps _
  · split
    · simp [Step.Inward, links]
    · exact inward_kindSteps settings catchall h

/-- The settings of the lowering, but for the other side. -/
def LoweringSettings.facing (settings : LoweringSettings) (side : Side) : LoweringSettings :=
  { settings with side }

/-- The recipe of a node that looks the same from either side is the same for both. -/
theorem Node.recipe_facing (settings : LoweringSettings) (side : Side) (catchall : Option Kind)
    (path : Path) (h : node.kind.twoSided = false) :
    node.recipe (settings.facing side) catchall path = node.recipe settings catchall path := by
  unfold Node.recipe
  split
  · rfl
  · split
    · rfl
    · unfold kindSteps
      cases hk : node.kind <;> rw [hk] at h <;> first | rfl | cases h

end Recipes

/-! ### Descents -/

/-- What a descent goes by, but for the other side. -/
def Guide.facing (guide : Guide) (side : Side) : Guide :=
  { guide with settings := guide.settings.facing side }

/-- No default for the input side was found on the way. -/
def Visit.Unfilled (v : Visit) : Prop := v.prefault = .undefined

/-- Where no default was found on the way, there is none to be settled. -/
theorem Visit.Unfilled.settleDefault {v : Visit} (h : v.Unfilled) {kind : Kind}
    (hkind : kind.twoSided = false) : Conversion.settleDefault kind v = v := by
  have hpipe : kind ≠ .pipe := by
    rintro rfl
    cases hkind
  unfold Conversion.settleDefault
  rw [if_neg hpipe]
  dsimp only
  rw [if_neg fun hfilled => hfilled.1 h]

/-- A change that leaves the visit of a node changes nothing. -/
theorem Survey.change_of_fixed {n : NodeId} {f : Visit → Visit} {vs : List (NodeId × Visit)}
    (h : ∀ v, find? n vs = some v → f v = v) : change n f vs = vs := by
  induction vs with
  | nil => rfl
  | cons p rest ih =>
    obtain ⟨m, v⟩ := p
    unfold find? at h
    unfold change
    split
    · rename_i hm
      rw [if_pos hm] at h
      rw [h v rfl]
    · rename_i hm
      rw [if_neg hm] at h
      rw [ih h]

namespace Conversion

variable {α : Type} {guide : Guide} {visit visit' : NodeId → Path → Action Conversion Unit}
  {c d : Conversion} {root n : NodeId} {node : Node}

/-- Lazy nodes in the graph of a root were asked, and no default was found on the way. -/
structure Strolls (root : NodeId) (c d : Conversion) : Prop where
  store : c.store.AskedBelow root d.store
  unfilled : Upholds Visit.Unfilled c d

instance : Std.Refl (Strolls root) := ⟨fun _ => ⟨.refl _, fun h => h⟩⟩

instance : Trans (Strolls root) (Strolls root) (Strolls root) :=
  ⟨fun h₁ h₂ => ⟨h₁.store.trans h₂.store, fun h => h₂.unfilled (h₁.unfilled h)⟩⟩

/-- A conversion of a graph that looks the same from either side, in which no default was found on
    the way. -/
structure Even (c : Conversion) (root : NodeId) : Prop where
  store : c.store.Even root
  unfilled : c.Every Visit.Unfilled

/-- A conversion of a graph that looks the same from either side goes on as one. -/
theorem Even.mono (h : c.Even root) (hd : Strolls root c d) : d.Even root :=
  ⟨h.store.mono hd.store, hd.unfilled h.unfilled⟩

/-- Asking lazy nodes below the root finds no default. -/
theorem onStore_strolls {a : Action Store α} (h : Within (Store.AskedBelow root) a) :
    Within (Strolls root) (onStore a) := fun c => ⟨h c.store, fun h => h⟩

/-- A change to a visit that leaves its default for the input side finds none. -/
theorem onVisit_strolls {f : Visit → Visit} (hf : ∀ v, (f v).prefault = v.prefault) :
    Within (Strolls root) (onVisit n f) := fun c =>
  ⟨.refl _, onVisit_upholds (fun v hv => (hf v).trans hv) c⟩

/-- A change to a fragment finds no default. -/
theorem onFragment_strolls (n : NodeId) (f : Entries → Entries) :
    Within (Strolls root) (onFragment n f) := onVisit_strolls fun _ => rfl

/-- Passing on content finds no default. -/
theorem passOn_strolls (n child : NodeId) : Within (Strolls root) (passOn n child) :=
  onVisit_strolls fun _ => rfl

/-- Marking the source of a clone finds no default. -/
theorem isSource_strolls (child : NodeId) :
    Within (Strolls root) (onVisit child fun v => { v with isSource := true }) :=
  onVisit_strolls fun _ => rfl

/-- A failure finds no default. -/
theorem fail_strolls (f : Failure) : Within (Strolls root) (fail f : Action Conversion α) :=
  onStore_strolls (Store.fail_askedBelow f)

/-- Actions that match on the store match in the conversion. -/
theorem onStore_matches {a b : Action Store α} (h : Matches (Store.AskedBelow root) a b c.store) :
    Matches (Strolls root) (onStore a) (onStore b) c := by
  refine ⟨?_, h.2, fun hc => hc⟩
  unfold onStore
  rw [h.1]

/-- Visits to the nodes in the graph of a root match. -/
def VisitsMatch (root : NodeId) (visit visit' : NodeId → Path → Action Conversion Unit) : Prop :=
  ∀ {c m} path, c.Even root → c.store.Below root m →
    Matches (Strolls root) (visit m path) (visit' m path) c

/-- A step at a node matches the same step for the other side. -/
theorem perform_matches (hvisit : VisitsMatch root visit visit') (hc : c.Even root)
    (hn : c.store.Below root n) (hnode : c.store.node? n = some node) {step : Step}
    (hstep : step.Inward node) :
    Matches (Strolls root) (perform .input visit n step) (perform .output visit' n step) c := by
  have hchild : ∀ {m}, m ∈ node.links → c.store.Below root m := fun hm =>
    hn.tail (.field hnode hm)
  cases step with
  | write key value => exact (onFragment_strolls n _).matches c
  | merge entries => exact (onFragment_strolls n fun es => es.update entries).matches c
  | visit child path => exact hvisit path hc (hchild hstep)
  | property name child => exact (onFragment_strolls n _).matches c
  | require shape =>
    have hnames := Store.requiredNames_matches hc.store fun p hp => hchild (hstep p hp)
    exact (onStore_matches hnames).bind fun names d _ _ => (onFragment_strolls n _).matches d
  | inherit child path =>
    exact (hvisit path hc (hchild hstep)).bind fun _ d _ _ => (passOn_strolls n child).matches d
  | inheritResolved path =>
    refine (onStore_matches (Store.resolve_matches hn)).bind fun answer d hr ha => ?_
    cases answer with
    | node child =>
      -- what a lazy node answers belongs to the graph from then on
      obtain ⟨t, ht, rfl⟩ := returns_onStore.mp hr
      have hbelow := hc.store.answered hn ht ha.store
      exact (hvisit path (hc.mono ha) hbelow).bind fun _ d _ _ => (passOn_strolls n child).matches d
    | value v => exact (fail_strolls _).matches d
  | inheritSource child path =>
    refine ((passOn_strolls n child).matches c).bind fun _ d _ hd => ?_
    have hbelow := hc.store.below hd.store (hchild hstep)
    refine (hvisit path (hc.mono hd) hbelow).bind fun _ e _ _ => ?_
    exact (isSource_strolls child).matches e
  | prefault v => exact hstep.elim
  | fail f => exact (fail_strolls f).matches c

/-- Steps inside of the graph match for both sides if the visits to children do. -/
theorem performAll_matches (hvisit : VisitsMatch root visit visit') (hc : c.Even root)
    (hn : c.store.Below root n) (hnode : c.store.node? n = some node) {steps : List Step}
    (hsteps : ∀ step ∈ steps, step.Inward node) :
    Matches (Strolls root) (performAll .input visit n steps) (performAll .output visit' n steps)
      c := by
  induction steps generalizing c with
  | nil => exact (within_pure _).matches c
  | cons step rest ih =>
    obtain ⟨hstep, hrest⟩ := List.forall_mem_cons.mp hsteps
    refine (perform_matches hvisit hc hn hnode hstep).bind fun _ d _ hd => ?_
    have hgrows := (hd.store.asked.keeps hc.store.closed).1
    exact ih (hc.mono hd) (hn.mono hgrows) (hgrows.node? hnode) hrest

/-- Annotating a node finds no default. -/
theorem annotate_strolls (catalog : String) (n : NodeId) :
    Within (Strolls root) (annotate catalog n) := by
  refine .bind within_get fun c => ?_
  split
  · exact onFragment_strolls n _
  · exact within_pure _

/-- Where no default was found on the way, settling it changes nothing. -/
theorem settle_matches (hc : c.Even root) {kind : Kind} (hkind : kind.twoSided = false) :
    Matches (Strolls root) (onVisit n (settleDefault kind)) (pure ()) c := by
  have hsame : Survey.change n (settleDefault kind) c.survey.visits = c.survey.visits :=
    Survey.change_of_fixed fun v hv => (hc.unfilled n v hv).settleDefault hkind
  have hrun : onVisit n (settleDefault kind) c = (.ok (), c) := by
    show (Except.ok (), { c with survey := c.survey.modify n (settleDefault kind) }) = _
    unfold Survey.modify
    rw [hsame]
  refine ⟨hrun, ?_⟩
  rw [hrun]
  exact Std.Refl.refl c

/-- A node in the graph of a root is lowered in the same way for either side. -/
theorem lower_matches (hvisit : VisitsMatch root visit visit') (hc : c.Even root)
    (hn : c.store.Below root n) (path : Path) :
    Matches (Strolls root) (lower (guide.facing .input) visit n path)
      (lower (guide.facing .output) visit' n path) c := by
  refine ((onStore_strolls (Store.fetch_askedBelow n)).matches c).bind fun node d hfetch _ => ?_
  obtain ⟨t, ht, rfl⟩ := returns_onStore.mp hfetch
  obtain ⟨hnode, rfl⟩ := Store.returns_fetch.mp ht
  have hkind := hc.store.kind hn hnode
  refine (within_get.matches c).bind fun e d hget _ => ?_
  obtain ⟨rfl, rfl⟩ := returns_get.mp hget
  have hrecipe : ∀ side catchall,
      node.recipe (guide.facing side).settings catchall path =
        node.recipe guide.settings catchall path :=
    fun side catchall => node.recipe_facing guide.settings side catchall path hkind
  dsimp only
  rw [hrecipe, hrecipe]
  refine (performAll_matches hvisit hc hn hnode
    (Node.inward_recipe guide.settings _ path hkind)).bind fun _ d _ hd => ?_
  refine ((annotate_strolls guide.catalog n).matches d).bind fun _ e _ he => ?_
  exact settle_matches ((hc.mono hd).mono he) hkind

/-- A visit to a node that was visited before finds no default. -/
theorem revisit_strolls (ancestors : List NodeId) (n : NodeId) (path : Path) :
    Within (Strolls root) (revisit ancestors n path) := by
  refine .bind (onVisit_strolls fun _ => rfl) fun _ => ?_
  split
  · exact .bind (onVisit_strolls fun _ => rfl) fun _ => onStore_strolls fun s => .event (.refl s) _
  · exact within_pure _

/-- Entering a node finds no default. -/
theorem strolls_entered (hn : c.survey.has n = false) : Strolls root c (c.entered n) := by
  refine ⟨.refl _, fun h m v hv => ?_⟩
  obtain ⟨-, rfl⟩ | ⟨-, hv⟩ := Survey.visit?_enter_cases hn hv
  · rfl
  · exact h m v hv

/-- **Arrivals.** An arrival in a graph that looks the same from either side is the same for
    both. -/
theorem arrive_matches (depth : Nat) (ancestors : List NodeId) :
    VisitsMatch root (arrive (guide.facing .input) depth ancestors)
      (arrive (guide.facing .output) depth ancestors) := by
  induction depth generalizing ancestors with
  | zero =>
    intro c n path hc hn
    unfold Matches
    rw [arrive_eq, arrive_eq]
    split
    · exact (revisit_strolls ancestors n path).matches c
    · rename_i hnew
      have hentered : Strolls root c (c.entered n) := strolls_entered (by simpa using hnew)
      have hfail : Within (Strolls root) (fail .endless : Action Conversion Unit) :=
        fail_strolls .endless
      exact ⟨rfl, Trans.trans hentered (hfail _)⟩
  | succ depth ih =>
    intro c n path hc hn
    unfold Matches
    rw [arrive_eq, arrive_eq]
    split
    · exact (revisit_strolls ancestors n path).matches c
    · rename_i hnew
      have hentered : Strolls root c (c.entered n) := strolls_entered (by simpa using hnew)
      have hlower : Matches (Strolls root)
          (lower (guide.facing .input) (arrive (guide.facing .input) depth (n :: ancestors)) n path)
          (lower (guide.facing .output)
            (arrive (guide.facing .output) depth (n :: ancestors)) n path)
          (c.entered n) := lower_matches (ih (n :: ancestors)) (hc.mono hentered) hn path
      obtain ⟨hsame, hleft⟩ := hlower
      exact ⟨hsame, Trans.trans hentered hleft⟩

end Conversion

/-- The converter, but for the other side. -/
def Converter.facing (conv : Converter) (side : Side) : Converter :=
  { conv with guide := conv.guide.facing side }

/-- **Visits.** A graph that looks the same from either side is visited in the same way for both. -/
theorem Converter.process_facing (conv : Converter) {c : Conversion} {root : NodeId}
    (hc : c.Even root) :
    (conv.facing .input).process root c = (conv.facing .output).process root c := by
  have hvisit : Conversion.visit (conv.facing .input).guide root [] [] c =
      Conversion.visit (conv.facing .output).guide root [] [] c := by
    rw [Conversion.visit_eq, Conversion.visit_eq]
    exact (Conversion.arrive_matches _ [] [] hc .refl).1
  unfold process
  rw [run_bind, run_bind, hvisit]
  -- what is recorded behind the visit does not tell the side
  generalize Conversion.visit (conv.facing .output).guide root [] [] c = run
  obtain ⟨_ | _, d⟩ := run <;> rfl

end SchemaGraph
