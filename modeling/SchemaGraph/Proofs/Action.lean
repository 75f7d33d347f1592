import SchemaGraph.Store

namespace SchemaGraph.Action

/-!
# Runs of actions

An action takes a state to a result and a state.  What it does is stated in five ways:

* `Action.Returns a s x s'` — in state `s` the action returns `x` and leaves `s'`;
* `Action.Meets a s Q E` — what it returns and leaves meets `Q`, or it fails and what it
  leaves meets `E`;
* `Action.Within R a` — whatever comes of it, the states before and after are related;
* `Action.Raises P a` — if it fails, the failure is of a kind;
* `Action.Secures P a` — from a state with a property it returns, and leaves one with it.

Each comes with the rule for sequencing, so that an action is taken apart step by step
without unfolding the monad.
-/

variable {σ α β : Type}

/-! ### Single steps -/

/-- An action followed by another one. -/
theorem run_bind (a : Action σ α) (f : α → Action σ β) (s : σ) :
    (a >>= f) s = match a s with
      | (.ok x, s') => f x s'
      | (.error e, s') => (.error e, s') := by
  show StateT.bind a (ExceptT.bindCont f) s = _
  simp only [StateT.bind]
  show (match a s with | (x, s') => ExceptT.bindCont f x s') = _
  rcases a s with ⟨_ | x, s'⟩ <;> rfl

/-- A result alone leaves the state. -/
@[simp] theorem run_pure (x : α) (s : σ) : (pure x : Action σ α) s = (.ok x, s) := rfl

/-- Looking at the state returns it. -/
@[simp] theorem run_get (s : σ) : (get : Action σ σ) s = (.ok s, s) := rfl

/-- A change is made, and nothing is returned. -/
@[simp] theorem run_modify (f : σ → σ) (s : σ) :
    (modify f : Action σ PUnit) s = (.ok ⟨⟩, f s) := rfl

/-- A state that is set is the state from then on. -/
@[simp] theorem run_set (t s : σ) : (set t : Action σ PUnit) s = (.ok ⟨⟩, t) := rfl

/-- A failure leaves the state as it is. -/
@[simp] theorem run_throw (f : Failure) (s : σ) :
    (throw f : Action σ α) s = (.error f, s) := rfl

/-- An action with an answer to its failures. -/
theorem run_tryCatch (a : Action σ α) (k : Failure → Action σ α) (s : σ) :
    (tryCatch a k : Action σ α) s = match a s with
      | (.ok x, s') => (.ok x, s')
      | (.error e, s') => k e s' := by
  show ExceptT.tryCatch a k s = _
  unfold ExceptT.tryCatch ExceptT.mk
  simp only [bind]
  show StateT.bind (m := Id) a _ s = _
  unfold StateT.bind
  simp only [bind]
  rcases a s with ⟨_ | x, s'⟩ <;> rfl

/-! ### Runs that return -/

/-- The action returns a value and leaves a state. -/
def Returns (a : Action σ α) (s : σ) (x : α) (s' : σ) : Prop := a s = (.ok x, s')

/-- A result alone returns just itself, from a state to the same one. -/
@[simp] theorem returns_pure {x y : α} {s s' : σ} :
    Returns (pure x) s y s' ↔ y = x ∧ s' = s := by
  unfold Returns
  rw [run_pure]
  constructor
  · intro h; cases h; exact ⟨rfl, rfl⟩
  · rintro ⟨rfl, rfl⟩; rfl

/-- Looking at the state returns it and leaves it. -/
@[simp] theorem returns_get {s t s' : σ} : Returns get s t s' ↔ t = s ∧ s' = s := by
  unfold Returns
  rw [run_get]
  constructor
  · intro h; cases h; exact ⟨rfl, rfl⟩
  · rintro ⟨rfl, rfl⟩; rfl

/-- A change returns, in the state that is changed by it. -/
@[simp] theorem returns_modify {f : σ → σ} {s s' : σ} {u : PUnit} :
    Returns (modify f) s u s' ↔ s' = f s := by
  unfold Returns
  rw [run_modify]
  constructor
  · intro h; cases h; rfl
  · rintro rfl; rfl

/-- Setting a state returns in that state. -/
@[simp] theorem returns_set {t s s' : σ} {u : PUnit} : Returns (set t) s u s' ↔ s' = t := by
  unfold Returns
  rw [run_set]
  constructor
  · intro h; cases h; rfl
  · rintro rfl; rfl

/-- What fails does not return. -/
@[simp] theorem not_returns_throw {f : Failure} {s s' : σ} {x : α} :
    ¬ Returns (throw f : Action σ α) s x s' := by
  unfold Returns
  rw [run_throw]
  intro h; cases h

/-- A sequence returns exactly if the first part does and the second one from there. -/
theorem returns_bind {a : Action σ α} {f : α → Action σ β} {s s'' : σ} {y : β} :
    Returns (a >>= f) s y s'' ↔ ∃ x s', Returns a s x s' ∧ Returns (f x) s' y s'' := by
  unfold Returns
  rw [run_bind]
  constructor
  · intro h
    rcases ha : a s with ⟨e | x, s'⟩
    · rw [ha] at h; cases h
    · rw [ha] at h; exact ⟨x, s', rfl, h⟩
  · rintro ⟨x, s', ha, hf⟩
    rw [ha]; exact hf

/-- An action returns at most one value and leaves one state. -/
theorem Returns.unique {a : Action σ α} {s s₁ s₂ : σ} {x y : α} (h₁ : Returns a s x s₁)
    (h₂ : Returns a s y s₂) : x = y ∧ s₁ = s₂ := by
  have h : ((.ok x, s₁) : Except Failure α × σ) = (.ok y, s₂) := h₁.symm.trans h₂
  cases h; exact ⟨rfl, rfl⟩

/-- An action that does not fail returns. -/
theorem exists_returns {a : Action σ α} {s : σ} (h : (a s).1.isOk = true) :
    ∃ x, Returns a s x (a s).2 := by
  rcases hs : a s with ⟨_ | x, s'⟩
  · rw [hs] at h
    cases h
  · exact ⟨x, hs⟩

/-- An action with a result returns it, in the state that is left. -/
theorem returns_of_toOption {a : Action σ α} {s : σ} {x : α} (h : (a s).1.toOption = some x) :
    Returns a s x (a s).2 := by
  rcases hs : a s with ⟨_ | y, s'⟩
  · rw [hs] at h
    cases h
  · rw [hs] at h
    obtain rfl : y = x := Option.some.inj h
    exact hs

/-- An action that does not return fails. -/
theorem exists_error {a : Action σ α} {s : σ} (h : (a s).1.isOk = false) :
    ∃ f, a s = (.error f, (a s).2) := by
  rcases hs : a s with ⟨f | _, s'⟩
  · exact ⟨f, rfl⟩
  · rw [hs] at h
    cases h

/-! ### All runs -/

/-- What the action returns and leaves meets the first condition; if it fails, what it
    leaves meets the second one. -/
def Meets (a : Action σ α) (s : σ) (Q : α → σ → Prop) (E : σ → Prop) : Prop :=
  match a s with
  | (.ok x, s') => Q x s'
  | (.error _, s') => E s'

/-- What the first action guarantees is what the second one may start from. -/
theorem Meets.bind {a : Action σ α} {f : α → Action σ β} {s : σ} {P : α → σ → Prop}
    {Q : β → σ → Prop} {E : σ → Prop} (ha : Meets a s P E)
    (hf : ∀ x s', P x s' → Meets (f x) s' Q E) : Meets (a >>= f) s Q E := by
  unfold Meets at ha ⊢
  rw [run_bind]
  rcases h : a s with ⟨e | x, s'⟩
  · rw [h] at ha; exact ha
  · rw [h] at ha; exact hf x s' ha

/-- Guarantees may be weakened, for results as for failures. -/
theorem Meets.mono {a : Action σ α} {s : σ} {P Q : α → σ → Prop} {D E : σ → Prop}
    (h : Meets a s P D) (hQ : ∀ x s', P x s' → Q x s') (hE : ∀ s', D s' → E s') :
    Meets a s Q E := by
  unfold Meets at h ⊢
  rcases ha : a s with ⟨e | x, s'⟩
  · rw [ha] at h; exact hE s' h
  · rw [ha] at h; exact hQ x s' h

/-- A result guarantees what holds of it already. -/
theorem meets_pure {x : α} {s : σ} {Q : α → σ → Prop} {E : σ → Prop} (h : Q x s) :
    Meets (pure x) s Q E := h

/-- Setting a state guarantees what holds of that state. -/
theorem meets_set {s t : σ} {Q : PUnit → σ → Prop} {E : σ → Prop} (h : Q ⟨⟩ t) :
    Meets (set t) s Q E := h

/-- What holds of every run that returns. -/
theorem meets_of_returns {a : Action σ α} {s : σ} {Q : α → σ → Prop}
    (h : ∀ x s', Returns a s x s' → Q x s') : Meets a s Q fun _ => True := by
  unfold Meets
  rcases ha : a s with ⟨e | x, s'⟩
  · trivial
  · exact h x s' ha

/-- A run that returns meets the first condition. -/
theorem Meets.of_returns {a : Action σ α} {s s' : σ} {x : α} {Q : α → σ → Prop}
    {E : σ → Prop} (h : Meets a s Q E) (hr : Returns a s x s') : Q x s' := by
  unfold Meets at h
  rw [show a s = (.ok x, s') from hr] at h
  exact h

/-- What is known of the state that is left is known whatever comes of the action. -/
theorem meets_of_state {a : Action σ α} {s : σ} {P : σ → Prop} (h : P (a s).2) :
    Meets a s (fun _ => P) P := by
  unfold Meets
  rcases ha : a s with ⟨e | x, s'⟩ <;> rw [ha] at h <;> exact h

/-- A guarantee about states alone holds of the state that is left, whatever the outcome. -/
theorem Meets.state {a : Action σ α} {s : σ} {P : σ → Prop} (h : Meets a s (fun _ => P) P) :
    P (a s).2 := by
  unfold Meets at h
  rcases ha : a s with ⟨e | x, s'⟩ <;> rw [ha] at h <;> exact h

/-- Of the runs that return, more may be known. -/
theorem Meets.state_of_and {a : Action σ α} {s : σ} {P : σ → Prop} {Q : α → σ → Prop}
    (h : Meets a s (fun x t => P t ∧ Q x t) P) : P (a s).2 :=
  (h.mono (fun _ _ hp => hp.1) fun _ hp => hp).state

/-- Whatever comes of the action, the state before is related to the one after. -/
def Within (R : σ → σ → Prop) (a : Action σ α) : Prop := ∀ s, R s (a s).2

section Within

variable {R : σ → σ → Prop}

/-- A result alone stays within every reflexive relation. -/
theorem within_pure [Std.Refl R] (x : α) : Within R (pure x : Action σ α) :=
  fun s => Std.Refl.refl s

/-- Looking at the state stays within every reflexive relation. -/
theorem within_get [Std.Refl R] : Within R (get : Action σ σ) := fun s => Std.Refl.refl s

/-- A failure stays within every reflexive relation. -/
theorem within_throw [Std.Refl R] (f : Failure) : Within R (throw f : Action σ α) :=
  fun s => Std.Refl.refl s

/-- Two actions that stay within a transitive relation do so one after the other. -/
theorem Within.bind [Trans R R R] {a : Action σ α} {f : α → Action σ β} (ha : Within R a)
    (hf : ∀ x, Within R (f x)) : Within R (a >>= f) := by
  intro s
  rw [run_bind]
  have h := ha s
  rcases hs : a s with ⟨e | x, s'⟩
  · rw [hs] at h; exact h
  · rw [hs] at h; exact Trans.trans h (hf x s')

/-- Where an action within a relation returns, the states before and behind are related. -/
theorem Within.of_returns {a : Action σ α} {s s' : σ} {x : α} (h : Within R a)
    (hr : Returns a s x s') : R s s' := by
  have := h s
  rw [show a s = (.ok x, s') from hr] at this
  exact this

/-- Whatever comes of an action, with what is known of the runs that return. -/
theorem Within.meets {a : Action σ α} (h : Within R a) {s : σ} {Q : α → σ → Prop}
    (hr : ∀ x s', Returns a s x s' → Q x s') : Meets a s Q (R s) := by
  have hs := h s
  unfold Meets
  rcases ha : a s with ⟨e | x, s'⟩
  · rw [ha] at hs; exact hs
  · exact hr x s' ha

end Within

/-! ### Failures -/

/-- Whenever the action fails, the failure is of a kind. -/
def Raises (P : Failure → Prop) (a : Action σ α) : Prop :=
  ∀ s f s', a s = (.error f, s') → P f

variable {P : Failure → Prop}

/-- A result alone raises nothing. -/
theorem raises_pure (x : α) : Raises P (pure x : Action σ α) := nofun

/-- Looking at the state raises nothing. -/
theorem raises_get : Raises P (get : Action σ σ) := nofun

/-- A change raises nothing. -/
theorem raises_modify (f : σ → σ) : Raises P (modify f : Action σ PUnit) := nofun

/-- Two actions one after the other raise what either of them raises. -/
theorem Raises.bind {a : Action σ α} {f : α → Action σ β} (ha : Raises P a)
    (hf : ∀ x, Raises P (f x)) : Raises P (a >>= f) := by
  intro s g s' h
  rw [run_bind] at h
  rcases hs : a s with ⟨e | x, t⟩
  · rw [hs] at h
    cases h
    exact ha s g _ hs
  · rw [hs] at h
    exact hf x t g s' h

/-- An action raises failures of any larger kind too. -/
theorem Raises.mono {Q : Failure → Prop} {a : Action σ α} (h : Raises P a)
    (hPQ : ∀ f, P f → Q f) : Raises Q a := fun s f s' hf => hPQ f (h s f s' hf)

/-- A failure of an action is one of those that it raises. -/
theorem Raises.of_error {a : Action σ α} (h : Raises P a) {s : σ} {f : Failure}
    (hf : (a s).1 = .error f) : P f := h s f (a s).2 (Prod.ext hf rfl)

/-- A sequence fails where its first part fails, or where the second one does from there. -/
theorem error_of_bind {a : Action σ α} {f : α → Action σ β} {s : σ} {g : Failure}
    (h : ((a >>= f) s).1 = .error g) :
    (a s).1 = .error g ∨ ∃ x s', Returns a s x s' ∧ (f x s').1 = .error g := by
  rw [run_bind] at h
  rcases hs : a s with ⟨e | x, s'⟩
  · rw [hs] at h
    exact .inl (congrArg Except.error (Except.error.inj h))
  · rw [hs] at h
    exact .inr ⟨x, s', hs, h⟩

/-! ### Actions that do not fail -/

/-- From every state with the property the action returns, and leaves one with the property. -/
def Secures (P : σ → Prop) (a : Action σ α) : Prop :=
  ∀ s, P s → Meets a s (fun _ => P) fun _ => False

section Secures

variable {P : σ → Prop}

/-- A result alone preserves every property of the state. -/
theorem secures_pure (x : α) : Secures P (pure x : Action σ α) := fun _ h => h

/-- A change preserves what holds of the changed state. -/
theorem secures_modify {f : σ → σ} (h : ∀ s, P s → P (f s)) :
    Secures P (modify f : Action σ PUnit) := h

/-- Two actions that preserve a property do so one after the other. -/
theorem Secures.bind {a : Action σ α} {f : α → Action σ β} (ha : Secures P a)
    (hf : ∀ x, Secures P (f x)) : Secures P (a >>= f) :=
  fun s hs => (ha s hs).bind fun x s' hs' => hf x s' hs'

/-- An action that looks at the state first. -/
theorem secures_read {f : σ → Action σ α} (h : ∀ s, Secures P (f s)) :
    Secures P (get >>= f) := fun s hs => h s s hs

/-- What never fails returns. -/
theorem Meets.returns {a : Action σ α} {s : σ} {Q : α → σ → Prop}
    (h : Meets a s Q fun _ => False) : ∃ x s', Returns a s x s' ∧ Q x s' := by
  unfold Meets at h
  rcases ha : a s with ⟨e | x, s'⟩
  · rw [ha] at h
    exact h.elim
  · rw [ha] at h
    exact ⟨x, s', ha, h⟩

end Secures

end SchemaGraph.Action
