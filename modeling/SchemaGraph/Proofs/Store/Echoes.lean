import SchemaGraph.Proofs.Store.Growth

namespace SchemaGraph

/-!
# Runs side by side

Events are written and never read: from two stores that differ in their events alone, an action
returns the same, or fails in the same way, and leaves two stores that differ in their events
alone.

* `Action.Paired R p q`  — two runs have come to the same, and have left related states
* `Action.Respects R a`  — from related states the runs of an action are paired
* `Store.Echoes s t`     — the stores differ in their events alone
-/

namespace Action

variable {σ τ α β : Type}

/-- Two runs have come to the same result or failure, and have left related states. -/
def Paired (R : σ → τ → Prop) (p : Except Failure α × σ) (q : Except Failure α × τ) : Prop :=
  p.1 = q.1 ∧ R p.2 q.2

/-- Runs that are paired stay so when they go on as related states do. -/
theorem Paired.bind {R : σ → τ → Prop} {a : Action σ α} {b : Action τ α} {f : α → Action σ β}
    {g : α → Action τ β} {s : σ} {t : τ} (h : Paired R (a s) (b t))
    (hf : ∀ x s' t', R s' t' → Paired R (f x s') (g x t')) :
    Paired R ((a >>= f) s) ((b >>= g) t) := by
  rw [run_bind, run_bind]
  obtain ⟨hresult, hstate⟩ := h
  rcases ha : a s with ⟨e | x, s'⟩ <;> rw [ha] at hresult hstate <;> dsimp only at hresult hstate
    <;> rcases hb : b t with ⟨e' | y, t'⟩ <;> rw [hb] at hresult hstate <;> cases hresult
  · exact ⟨rfl, hstate⟩
  · exact hf x s' t' hstate

/-- What two runs leave may be related more loosely. -/
theorem Paired.mono {R S : σ → τ → Prop} {p : Except Failure α × σ} {q : Except Failure α × τ}
    (h : Paired R p q) (hRS : ∀ s t, R s t → S s t) : Paired S p q := ⟨h.1, hRS _ _ h.2⟩

/-- From related states an action comes to the same, and leaves related states. -/
def Respects (R : σ → σ → Prop) (a : Action σ α) : Prop :=
  ∀ s t, R s t → Paired R (a s) (a t)

variable {R : σ → σ → Prop}

/-- A result alone comes to the same from related states. -/
theorem respects_pure (x : α) : Respects R (pure x : Action σ α) := fun _ _ h => ⟨rfl, h⟩

/-- A failure is the same from related states. -/
theorem respects_throw (f : Failure) : Respects R (throw f : Action σ α) :=
  fun _ _ h => ⟨rfl, h⟩

/-- A change that relates what it makes of related states respects the relation. -/
theorem respects_modify {g : σ → σ} (h : ∀ {s t}, R s t → R (g s) (g t)) :
    Respects R (modify g : Action σ PUnit) := fun _ _ hst => ⟨rfl, h hst⟩

/-- Actions that respect a relation do so one after the other. -/
theorem Respects.bind {a : Action σ α} {f : α → Action σ β} (ha : Respects R a)
    (hf : ∀ x, Respects R (f x)) : Respects R (a >>= f) :=
  fun s t h => (ha s t h).bind fun x s' t' h' => hf x s' t' h'

/-- An action that looks at the state in a way that tells related states not apart. -/
theorem respects_read {f : σ → Action σ β} (hread : ∀ {s t}, R s t → f s = f t)
    (hf : ∀ s, Respects R (f s)) : Respects R (get >>= f) := by
  intro s t h
  show Paired R (f s s) (f t t)
  rw [← hread h]
  exact hf s s t h

end Action

open SchemaGraph.Action

namespace Store

/-- The stores differ in their events alone. -/
def Echoes (s t : Store) : Prop := t = { s with events := t.events }

namespace Echoes

variable {s t : Store}

/-- A store differs from itself in nothing. -/
theorem refl (s : Store) : Echoes s s := rfl

/-- Stores that differ in events alone do so with further events, whichever these are. -/
theorem record (h : Echoes s t) (e e' : Event) : Echoes (s.record e) (t.record e') := by
  rw [h]
  rfl

/-- What a store with other events holds. -/
theorem exists_eq (h : Echoes s t) : ∃ events, t = { s with events } := ⟨t.events, h⟩

end Echoes

/-! ### Actions -/

variable {α : Type}

/-- Recording an event respects that events are never read. -/
theorem respects_log (e : Event) : Respects Echoes (log e) :=
  respects_modify fun h => h.record e e

/-- A failure, which is recorded or not, respects that events are never read. -/
theorem respects_fail (f : Failure) : Respects Echoes (fail f : Action Store α) := by
  unfold fail
  split
  · exact (respects_log _).bind fun _ => respects_throw f
  · exact respects_throw f

/-- A change that is the same whatever the events are. -/
theorem respects_change {g : Store → Store}
    (h : ∀ (s : Store) events, ∃ events', g { s with events } = { g s with events := events' }) :
    Respects Echoes (modify g) := by
  refine respects_modify fun {s t} hst => ?_
  obtain ⟨events, rfl⟩ := hst.exists_eq
  obtain ⟨events', hg⟩ := h s events
  rw [hg]
  rfl

/-- An action that does not look at events. -/
theorem respects_look {f : Store → Action Store α}
    (hlook : ∀ (s : Store) events, f { s with events } = f s) (hf : ∀ s, Respects Echoes (f s)) :
    Respects Echoes (get >>= f) := by
  refine respects_read (fun {s t} hst => ?_) hf
  obtain ⟨events, rfl⟩ := hst.exists_eq
  exact (hlook s events).symm

/-- Looking up a node reads no events. -/
theorem respects_fetch (n : NodeId) : Respects Echoes (fetch n) := by
  refine respects_look (fun s events => by cases n <;> rfl) fun s => ?_
  split
  · exact respects_pure _
  · exact respects_fail _

/-- Making a node reads no events. -/
theorem respects_addNode (node : Node) : Respects Echoes (addNode node) := by
  refine respects_look (fun s events => rfl) fun s => ?_
  exact (respects_change fun s events => ⟨events, rfl⟩).bind fun _ => respects_pure _

/-- Making a lazy node reads no events. -/
theorem respects_addLazy (source : Source) : Respects Echoes (addLazy source) := by
  refine respects_look (fun s events => rfl) fun s => ?_
  exact (respects_change fun s events => ⟨events, rfl⟩).bind fun _ => respects_pure _

/-- Naming a node reads no events. -/
theorem respects_bind (name : String) (n : NodeId) :
    Respects Echoes (modify fun s => s.bind name n) := by
  refine respects_change fun s events => ⟨events, ?_⟩
  unfold Store.bind
  split <;> rfl

/-- Keeping a list of annotations apart reads and writes no events. -/
theorem detachList_events (s : Store) (events : List Event) (notes : Entries) :
    detachList { s with events } notes =
      ({ (s.detachList notes).1 with events }, (s.detachList notes).2) := by
  unfold detachList
  split <;> rfl

/-- Replacing a catalog reads and writes no events. -/
theorem setCatalog_events (s : Store) (events : List Event) (name : String) (c : Catalog) :
    setCatalog { s with events } name c = { s.setCatalog name c with events } := by
  unfold setCatalog
  split <;> rfl

/-- Annotating a node reads no events. -/
theorem respects_annotate (catalog : String) (n : NodeId) (notes : Entries) :
    Respects Echoes (annotate catalog n notes) := by
  intro s t hst
  obtain ⟨events, rfl⟩ := hst.exists_eq
  have hdetach := detachList_events s events notes
  cases hadd : (s.catalog catalog).add n (s.detachList notes).2 with
  | error f =>
    rw [annotate_of_error hadd, annotate_of_error (by rw [hdetach]; exact hadd)]
    exact respects_fail f _ _ hst
  | ok c =>
    rw [annotate_of_ok hadd, annotate_of_ok (by rw [hdetach]; exact hadd), hdetach]
    refine ⟨rfl, ?_⟩
    dsimp only
    rw [setCatalog_events (s.detachList notes).1 events]
    rfl

mutual

/-- Building a blueprint reads no events. By induction on the blueprint. -/
theorem respects_build (b : Blueprint) : Respects Echoes (build b) := by
  -- By the shape of the blueprint: parts are built first, and their nodes are looked up among those
  -- that are there.
  cases b with
  | named name =>
    simp only [build]
    refine respects_look (fun s events => rfl) fun s => ?_
    split
    · exact respects_pure _
    · exact respects_fail _
  | node base children =>
    simp only [build]
    exact (respects_buildChildren children base).bind fun node => respects_addNode node
  | concatenation parts =>
    simp only [build]
    exact (respects_buildParts parts).bind fun parts => respects_addNode _
  | lazyNamed name => simpa only [build] using respects_addLazy _
  | lazyFresh result => simpa only [build] using respects_addLazy _
  | lazyValue v => simpa only [build] using respects_addLazy _
  | lazyRaise cause => simpa only [build] using respects_addLazy _
  | clone source =>
    simp only [build]
    exact (respects_build source).bind fun n => (respects_fetch n).bind fun _ => respects_addNode _
  | constrained source changes =>
    simp only [build]
    exact (respects_build source).bind fun n => (respects_fetch n).bind fun _ => respects_addNode _
  | annotated source notes catalog =>
    simp only [build]
    refine (respects_build source).bind fun n => (respects_fetch n).bind fun _ => ?_
    refine (respects_addNode _).bind fun m => ?_
    exact (respects_annotate catalog m notes).bind fun _ => respects_pure _
  | lowered source lowering =>
    simp only [build]
    exact (respects_build source).bind fun n => (respects_fetch n).bind fun _ => respects_addNode _
  | aliased source name =>
    simp only [build]
    refine (respects_build source).bind fun n => ?_
    exact (respects_bind name n).bind fun _ => respects_pure _
  | broken children cause =>
    simp only [build]
    exact (respects_buildChildren children _).bind fun _ => respects_fail _

/-- Building children reads no events. -/
theorem respects_buildChildren (children : List (Slot × Blueprint)) (node : Node) :
    Respects Echoes (buildChildren node children) := by
  cases children with
  | nil => simpa only [buildChildren] using respects_pure _
  | cons p rest =>
    obtain ⟨slot, child⟩ := p
    simp only [buildChildren]
    exact (respects_build child).bind fun n => respects_buildChildren rest _

/-- Building the parts of a concatenation reads no events. -/
theorem respects_buildParts (parts : List (Sum String Blueprint)) :
    Respects Echoes (buildParts parts) := by
  match parts with
  | [] => simpa only [buildParts] using respects_pure _
  | .inl text :: rest =>
    simp only [buildParts]
    exact (respects_buildParts rest).bind fun _ => respects_pure _
  | .inr part :: rest =>
    simp only [buildParts]
    refine (respects_build part).bind fun n => (respects_fetch n).bind fun _ => ?_
    exact (respects_buildParts rest).bind fun _ => respects_pure _

end

/-- Asking a getter reads no events. -/
theorem respects_ask (source : Source) : Respects Echoes (ask source) := by
  cases source with
  | named name =>
    refine respects_look (fun s events => rfl) fun s => ?_
    split <;> exact respects_pure _
  | fresh blueprint => exact (respects_build blueprint).bind fun _ => respects_pure _
  | value v => exact respects_pure _
  | raises cause => exact respects_fail _

/-- Asking a lazy node reads no events. -/
theorem respects_resolve (n : NodeId) : Respects Echoes (resolve n) := by
  have hkeep : ∀ answer : Resolved, Respects Echoes (do
      modify fun s : Store => { s with resolved := s.resolved ++ [(n, answer)] }
      pure answer) := fun answer =>
    (respects_change fun s events => ⟨events, rfl⟩).bind fun _ => respects_pure _
  refine respects_look (fun s events => rfl) fun s => ?_
  split
  · exact respects_pure _
  · refine (respects_fetch n).bind fun node => ?_
    split
    · exact respects_fail _
    · refine (respects_change fun s events => ⟨events, rfl⟩).bind fun _ => ?_
      exact (respects_ask _).bind fun answer => hkeep answer

/-- Finding out whether a property is optional reads no events. By induction on the links that are
    followed. -/
theorem respects_isOptionalWithin (side : Side) (links : Nat) (n : NodeId) :
    Respects Echoes (isOptionalWithin side links n) := by
  induction links generalizing n with
  | zero => exact respects_fail _
  | succ links ih =>
    refine (respects_fetch n).bind fun node => ?_
    split
    · exact respects_pure _
    · split
      · exact respects_pure _
      · exact ih _
    · refine (respects_resolve n).bind fun answer => ?_
      split
      · exact ih _
      · exact respects_fail _

/-- Finding the names that are required reads no events. -/
theorem respects_requiredNames (side : Side) (shape : List (String × NodeId)) :
    Respects Echoes (requiredNames side shape) := by
  induction shape with
  | nil => exact respects_pure _
  | cons p rest ih =>
    obtain ⟨name, child⟩ := p
    refine Respects.bind ?_ fun skip => ih.bind fun names => respects_pure _
    exact respects_look (fun s events => rfl) fun s => respects_isOptionalWithin side _ child

end Store

end SchemaGraph
