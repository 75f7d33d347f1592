import Mathlib.Data.List.Perm.Subperm
import Mathlib.Logic.Relation
import SchemaGraph.Proofs.Value.Places

namespace SchemaGraph

/-!
# Places that do not contain themselves

A pointer gives way to what it points at, and that may hold pointers again.  It comes to an end
if no place that is reached contains itself; only then nothing that contains itself is left, and a
value can be written out.

* `Value.isFinite`  — no container in a value is its own element
* `Value.isTree`    — the same, and the value holds no pointers
* `View.Founded`    — a place from which no place that contains itself is reached
* `View.Unwinds`    — nothing in a value contains itself, and it settles to a tree
* `View.Founded.unwinds` — a value unwinds if all the places that it points at are founded
-/

namespace Value

mutual

/-- Whether no container in a value is its own element.  What a function returns holds no pointers
    either. -/
def isFinite : Value → Bool
  | .loop _ => false
  | .constant _ result => isPlain result && isFinite result
  | .items _ xs => allFinite xs
  | .dict es => entriesFinite es
  | _ => true

/-- Whether no container in the values of a list is its own element. -/
def allFinite : List Value → Bool
  | [] => true
  | v :: rest => isFinite v && allFinite rest

/-- Whether no container in the values of a mapping is its own element. -/
def entriesFinite : List (Value × Value) → Bool
  | [] => true
  | (_, v) :: rest => isFinite v && entriesFinite rest

end

/-- Whether a value holds no pointers, and no container in it is its own element. -/
def isTree (v : Value) : Bool := v.isPlain && v.isFinite

/-- A list is finite if its elements are. -/
theorem allFinite_iff {xs : List Value} : allFinite xs = true ↔ ∀ v ∈ xs, v.isFinite = true := by
  induction xs with
  | nil => simp [allFinite]
  | cons v rest ih => simp [allFinite, ih]

/-- A mapping is finite if its values are. -/
theorem entriesFinite_iff {es : List (Value × Value)} :
    entriesFinite es = true ↔ ∀ p ∈ es, p.2.isFinite = true := by
  induction es with
  | nil => simp [entriesFinite]
  | cons p rest ih => simp [entriesFinite, ih]

variable {v : Value}

/-- A tree is plain and finite. -/
theorem isTree_iff : v.isTree = true ↔ v.isPlain = true ∧ v.isFinite = true :=
  Bool.and_eq_true_iff

/-- Numbers are trees. -/
theorem isTree_of_number? (h : v.number?.isSome) : v.isTree = true := by
  cases v <;> first | rfl | cases h

section Trees

variable {enter : Place → Value} {survey : Nat}

mutual

/-- With trees in place of its pointers, a finite value is a tree. -/
theorem isTree_expand : ∀ v : Value, v.isFinite = true →
    (∀ p ∈ v.places survey, (enter p).isTree = true) → (v.expand enter survey).isTree = true
  | .fragment n, _, h => h _ (List.mem_singleton_self _)
  | .borrowed other n, _, h => h _ (List.mem_singleton_self _)
  | .shared k, _, h => h _ (List.mem_singleton_self _)
  | .items form xs, hf, h => by
    obtain ⟨hplain, hfinite⟩ := isTree_expandList xs hf h
    exact isTree_iff.mpr ⟨hplain, hfinite⟩
  | .dict es, hf, h => by
    obtain ⟨hplain, hfinite⟩ := isTree_expandEntries es hf h
    exact isTree_iff.mpr ⟨hplain, hfinite⟩
  | .constant _ result, hf, _ =>
    isTree_iff.mpr ⟨(Bool.and_eq_true_iff.mp hf).1, hf⟩
  | .null, _, _ | .undefined, _, _ | .bool _, _, _ | .int _, _, _ | .bigint _, _, _
  | .float _, _, _ | .str _, _, _ | .foreign _, _, _ => rfl

/-- A list expands to a tree if it is finite and what its pointers point at are trees: induction on
    the list, beside the statements for values and mappings. -/
theorem isTree_expandList : ∀ xs : List Value, allFinite xs = true →
    (∀ p ∈ listPlaces survey xs, (enter p).isTree = true) →
    allPlain (expandList enter survey xs) = true ∧ allFinite (expandList enter survey xs) = true
  | [], _, _ => ⟨rfl, rfl⟩
  | v :: rest, hf, h => by
    obtain ⟨hv, hrest⟩ := Bool.and_eq_true_iff.mp hf
    obtain ⟨hplain, hfinite⟩ := isTree_iff.mp
      (isTree_expand v hv fun p hp => h p (List.mem_append_left _ hp))
    obtain ⟨hplain', hfinite'⟩ := isTree_expandList rest hrest
      fun p hp => h p (List.mem_append_right _ hp)
    exact ⟨Bool.and_eq_true_iff.mpr ⟨hplain, hplain'⟩, Bool.and_eq_true_iff.mpr ⟨hfinite, hfinite'⟩⟩

/-- So does a mapping. -/
theorem isTree_expandEntries : ∀ es : List (Value × Value), entriesFinite es = true →
    (∀ p ∈ entryPlaces survey es, (enter p).isTree = true) →
    entriesPlain (expandEntries enter survey es) = true ∧
      entriesFinite (expandEntries enter survey es) = true
  | [], _, _ => ⟨rfl, rfl⟩
  | (k, v) :: rest, hf, h => by
    obtain ⟨hv, hrest⟩ := Bool.and_eq_true_iff.mp hf
    obtain ⟨hplain, hfinite⟩ := isTree_iff.mp
      (isTree_expand v hv fun p hp => h p (List.mem_append_left _ hp))
    obtain ⟨hplain', hfinite'⟩ := isTree_expandEntries rest hrest
      fun p hp => h p (List.mem_append_right _ hp)
    exact ⟨Bool.and_eq_true_iff.mpr ⟨hplain, hplain'⟩, Bool.and_eq_true_iff.mpr ⟨hfinite, hfinite'⟩⟩

end

/-- What is done in sequence does not fail in a way in which neither part fails. -/
theorem bind_ne_error {ε α β : Type} {x : Except ε α} {f : α → Except ε β} {e : ε}
    (hx : x ≠ .error e) (hf : ∀ y, f y ≠ .error e) : (x >>= f) ≠ .error e := by
  cases x with
  | error d => exact fun h => hx (congrArg Except.error (Except.error.inj h))
  | ok y => exact hf y

/-- No key contains itself. -/
theorem keyName_ne_circular (k : Value) : keyName k ≠ .error .circular := by
  cases k with
  | float x => cases x <;> nofun
  | _ => nofun

mutual

/-- A tree may be no data, but it contains itself nowhere. -/
theorem toJson_ne_circular : ∀ v : Value, v.isTree = true → v.toJson ≠ .error .circular
  | .items form xs, h => by
    obtain ⟨hplain, hfinite⟩ := isTree_iff.mp h
    cases form with
    | set => nofun
    | _ => exact bind_ne_error (toJsonList_ne_circular xs hplain hfinite) nofun
  | .dict es, h => by
    obtain ⟨hplain, hfinite⟩ := isTree_iff.mp h
    exact bind_ne_error (toJsonMembers_ne_circular es hplain hfinite) nofun
  | .float x, _ => by cases x <;> nofun
  | .null, _ | .undefined, _ | .bool _, _ | .int _, _ | .bigint _, _ | .str _, _ | .foreign _, _
  | .constant .., _ => nofun

/-- A list of trees does not fail for containing itself. -/
theorem toJsonList_ne_circular : ∀ xs : List Value, allPlain xs = true → allFinite xs = true →
    toJsonList xs ≠ .error .circular
  | [], _, _ => nofun
  | v :: rest, hp, hf => by
    obtain ⟨hv, hrest⟩ := Bool.and_eq_true_iff.mp hp
    obtain ⟨hv', hrest'⟩ := Bool.and_eq_true_iff.mp hf
    refine bind_ne_error (toJson_ne_circular v (isTree_iff.mpr ⟨hv, hv'⟩)) fun _ => ?_
    exact bind_ne_error (toJsonList_ne_circular rest hrest hrest') nofun

/-- A mapping to trees does not fail for containing itself. -/
theorem toJsonMembers_ne_circular : ∀ es : List (Value × Value), entriesPlain es = true →
    entriesFinite es = true → toJsonMembers es ≠ .error .circular
  | [], _, _ => nofun
  | (k, v) :: rest, hp, hf => by
    obtain ⟨hv, hrest⟩ := Bool.and_eq_true_iff.mp hp
    obtain ⟨hv', hrest'⟩ := Bool.and_eq_true_iff.mp hf
    refine bind_ne_error (keyName_ne_circular k) fun _ => ?_
    refine bind_ne_error (toJson_ne_circular v (isTree_iff.mpr ⟨hv, hv'⟩)) fun _ => ?_
    exact bind_ne_error (toJsonMembers_ne_circular rest hrest hrest') nofun

end

end Trees

end Value

namespace View

/-- The places that are pointed at from a place. -/
def places (view : View) : Place → List Place
  | .fragment survey n => Value.entryPlaces survey (view.fragment survey n)
  | .list k => Value.listPlaces view.survey (view.list k)

/-- Whether no container at a place is its own element. -/
def isFinite (view : View) : Place → Bool
  | .fragment survey n => Value.entriesFinite (view.fragment survey n)
  | .list k => Value.allFinite (view.list k)

/-- One place points at another one. -/
def Points (view : View) (p q : Place) : Prop := q ∈ view.places p

/-- A place from which only finitely nested contents are reached.  The places on the way that point
    at something are among the given ones. -/
inductive Founded (view : View) (among : List Place) : Place → Prop
  | intro {p : Place} (hfinite : view.isFinite p = true) (hmem : view.places p ≠ [] → p ∈ among)
      (hnext : ∀ q, view.Points p q → Founded view among q) : Founded view among p

variable {view : View} {among : List Place} {p q : Place} {v : Value}

/-- A fragment is founded if it is finite and whatever it points at is. -/
theorem founded_fragment {survey : Nat} {n : NodeId} {es : Entries}
    (hes : view.fragment survey n = es) (hfinite : Value.entriesFinite es = true)
    (hmem : Value.entryPlaces survey es ≠ [] → .fragment survey n ∈ among)
    (hnext : ∀ q ∈ Value.entryPlaces survey es, view.Founded among q) :
    view.Founded among (.fragment survey n) := by
  subst hes
  exact .intro hfinite hmem hnext

/-- A list of annotations is founded if it is finite and whatever it points at is. -/
theorem founded_list {k : Nat} {xs : List Value} (hxs : view.list k = xs)
    (hfinite : Value.allFinite xs = true)
    (hmem : Value.listPlaces view.survey xs ≠ [] → .list k ∈ among)
    (hnext : ∀ q ∈ Value.listPlaces view.survey xs, view.Founded among q) :
    view.Founded among (.list k) := by
  subst hxs
  exact .intro hfinite hmem hnext

/-- What is reached from a founded place is founded: induction on the way. -/
theorem Founded.reached (h : view.Founded among p)
    (hq : Relation.ReflTransGen view.Points p q) : view.Founded among q := by
  induction hq with
  | refl => exact h
  | tail _ hnext ih =>
    cases ih with
    | intro _ _ ih => exact ih _ hnext

/-- A founded place does not contain itself. -/
theorem Founded.not_circular (h : view.Founded among p) :
    ¬ Relation.TransGen view.Points p p := by
  induction h with
  | intro _ _ _ ih =>
    intro hloop
    obtain ⟨q, hq, hback⟩ := Relation.TransGen.head'_iff.mp hloop
    exact ih q hq (.tail' hback hq)

/-- What is found at a founded place is a tree.  On the way down no place is met twice, so that the
    depth suffices. -/
theorem Founded.isTree_enter (h : view.Founded among p) {depth : Nat} {path : List Place}
    (hpath : ∀ a ∈ path, Relation.TransGen view.Points a p) (hnodup : path.Nodup)
    (hsub : path ⊆ among) (hdepth : among.length < depth + path.length) :
    (view.enter (fun _ => false) depth path p).isTree = true := by
  induction h generalizing depth path with
  | @intro p hfinite hmem hnext ih =>
    have hlength := (hnodup.subperm hsub).length_le
    obtain ⟨depth, rfl⟩ : ∃ k, depth = k + 1 := ⟨depth - 1, by omega⟩
    -- The nodes on the path lead here, and a founded place does not lead to itself.
    have hfresh : p ∉ path := fun hp => (Founded.intro hfinite hmem hnext).not_circular (hpath p hp)
    unfold enter
    rw [if_neg (by simpa using hfresh)]
    have hbelow : ∀ q ∈ view.places p,
        (view.enter (fun _ => false) depth (p :: path) q).isTree = true := by
      intro q hq
      refine ih q hq (fun a ha => ?_) (List.nodup_cons.mpr ⟨hfresh, hnodup⟩) ?_ ?_
      · rcases List.mem_cons.mp ha with rfl | ha
        · exact .single hq
        · exact (hpath a ha).tail hq
      · exact List.cons_subset.mpr ⟨hmem (List.ne_nil_of_mem hq), hsub⟩
      · rw [List.length_cons]
        omega
    cases p with
    | fragment survey n =>
      exact Value.isTree_iff.mpr (Value.isTree_expandEntries _ hfinite hbelow)
    | list k => exact Value.isTree_iff.mpr (Value.isTree_expandList _ hfinite hbelow)

/-- Nothing that is reached from a value contains itself, and with everything in place that its
    pointers point at it is a tree. -/
structure Unwinds (view : View) (v : Value) : Prop where
  circular : ∀ p ∈ v.places view.survey, ∀ q, Relation.ReflTransGen view.Points p q →
    ¬ Relation.TransGen view.Points q q
  settled : (view.settle v).isTree = true

/-- **Unwinding.** A finite value unwinds if all the places that it points at are founded. -/
theorem unwinds_of_founded (hfinite : v.isFinite = true)
    (h : ∀ p ∈ v.places view.survey, view.Founded among p) (hsize : among.length ≤ view.size) :
    view.Unwinds v where
  circular p hp _ hq := ((h p hp).reached hq).not_circular
  settled := Value.isTree_expand v hfinite fun p hp =>
    (h p hp).isTree_enter nofun List.nodup_nil (List.nil_subset _) (by simp; omega)

/-- What unwinds is never refused for containing itself. -/
theorem Unwinds.document_ne_circular (h : view.Unwinds v) :
    (view.settle v).document ≠ .error (.notData .circular) := by
  have hne := Value.toJson_ne_circular _ h.settled
  unfold Value.document
  cases hj : (view.settle v).toJson with
  | ok j => nofun
  | error f =>
    intro hcircular
    obtain rfl : f = .circular := Failure.notData.inj (Except.error.inj hcircular)
    exact hne hj

end View

end SchemaGraph
