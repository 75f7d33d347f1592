import Mathlib.Data.List.Forall2
import SchemaGraph.Proofs.Value.Entries
import SchemaGraph.Value.Data

namespace SchemaGraph

/-!
# What values show

A value shows a document when it becomes the document with everything in place that its
pointers point at.  Which documents a value shows can be read off its outermost layer, so
that later nothing has to be known about the order in which pointers are followed.

* `Value.isPlain`        — a value without pointers
* `View.Shows`           — a value shows a document
* `View.shows_fragment`, `View.shows_items`, `View.shows_dict` — one layer of a value
* `View.ShowsEntries.rel` — the entries of a mapping and the members of the object it shows
-/

namespace Value

mutual

/-- Whether a value holds no pointers. -/
def isPlain : Value → Bool
  | .fragment _ => false
  | .borrowed .. => false
  | .shared _ => false
  | .constant _ result => isPlain result
  | .items _ xs => allPlain xs
  | .dict es => entriesPlain es
  | _ => true

/-- Whether no value of a list holds pointers. -/
def allPlain : List Value → Bool
  | [] => true
  | v :: rest => isPlain v && allPlain rest

/-- Whether no value of a mapping holds pointers. -/
def entriesPlain : List (Value × Value) → Bool
  | [] => true
  | (_, v) :: rest => isPlain v && entriesPlain rest

end

mutual

/-- A value without pointers stands for itself. -/
theorem expand_of_plain (enter : Place → Value) (survey : Nat) :
    ∀ v : Value, v.isPlain = true → v.expand enter survey = v
  | .fragment _, h => by cases h
  | .borrowed .., h => by cases h
  | .shared _, h => by cases h
  | .items form xs, h => by
    rw [expand, expandList_of_plain enter survey xs h]
  | .dict es, h => by
    rw [expand, expandEntries_of_plain enter survey es h]
  | .null, _ | .undefined, _ | .bool _, _ | .int _, _ | .bigint _, _ | .float _, _ | .str _, _
  | .foreign _, _ | .constant .., _ | .loop _, _ => rfl

/-- Plain lists expand to themselves. -/
theorem expandList_of_plain (enter : Place → Value) (survey : Nat) :
    ∀ xs : List Value, allPlain xs = true → expandList enter survey xs = xs
  | [], _ => rfl
  | v :: rest, h => by
    obtain ⟨hv, hrest⟩ := Bool.and_eq_true_iff.mp h
    rw [expandList, expand_of_plain enter survey v hv, expandList_of_plain enter survey rest hrest]

/-- Plain mappings expand to themselves. -/
theorem expandEntries_of_plain (enter : Place → Value) (survey : Nat) :
    ∀ es : List (Value × Value), entriesPlain es = true → expandEntries enter survey es = es
  | [], _ => rfl
  | (k, v) :: rest, h => by
    obtain ⟨hv, hrest⟩ := Bool.and_eq_true_iff.mp h
    rw [expandEntries, expand_of_plain enter survey v hv,
      expandEntries_of_plain enter survey rest hrest]

end

/-! ### One layer of a document -/

/-- A mapping is written member by member. -/
theorem toJson_dict {es : List (Value × Value)} {j : Json} :
    toJson (.dict es) = .ok j ↔
      ∃ ms, toJsonMembers es = .ok ms ∧ j = .obj (Json.ofMembers ms) := by
  unfold toJson
  cases toJsonMembers es with
  | error f => simp [bind, Except.bind]
  | ok ms => simp [bind, Except.bind, eq_comm]

/-- A list is written element by element. -/
theorem toJson_list {xs : List Value} {j : Json} :
    toJson (.list xs) = .ok j ↔ ∃ js, toJsonList xs = .ok js ∧ j = .arr js := by
  unfold toJson
  cases toJsonList xs with
  | error f => simp [bind, Except.bind]
  | ok js => simp [bind, Except.bind, eq_comm]

/-- A list is written if its first element and the rest are. -/
theorem toJsonList_cons {v : Value} {rest : List Value} {js : List Json} :
    toJsonList (v :: rest) = .ok js ↔
      ∃ j js', toJson v = .ok j ∧ toJsonList rest = .ok js' ∧ js = j :: js' := by
  rw [toJsonList]
  cases toJson v with
  | error f => simp [bind, Except.bind]
  | ok j =>
    cases toJsonList rest with
    | error f => simp [bind, Except.bind]
    | ok js' => simp [bind, Except.bind, eq_comm]

/-- Members are written if the first one and the rest are. -/
theorem toJsonMembers_cons {k v : Value} {rest : List (Value × Value)}
    {ms : List (String × Json)} :
    toJsonMembers ((k, v) :: rest) = .ok ms ↔
      ∃ name j ms', keyName k = .ok name ∧ toJson v = .ok j ∧ toJsonMembers rest = .ok ms' ∧
        ms = (name, j) :: ms' := by
  rw [toJsonMembers]
  cases keyName k with
  | error f => simp [bind, Except.bind]
  | ok name =>
    cases toJson v with
    | error f => simp [bind, Except.bind]
    | ok j =>
      cases toJsonMembers rest with
      | error f => simp [bind, Except.bind]
      | ok ms' => simp [bind, Except.bind, eq_comm]

end Value

namespace View

/-- A value shows a document: with everything in place that its pointers point at, down to
    some depth and below some places, it becomes the document. -/
def Shows (view : View) (v : Value) (j : Json) : Prop :=
  ∃ depth path,
    (v.expand (view.enter (fun _ => false) depth path) view.survey).toJson = .ok j

/-- The entries of a mapping show members. -/
def ShowsEntries (view : View) (es : Entries) (ms : List (String × Json)) : Prop :=
  ∃ depth path, Value.toJsonMembers
    (Value.expandEntries (view.enter (fun _ => false) depth path) view.survey es) = .ok ms

variable {view : View}

/-- A finished value shows the document that is made of it. -/
theorem shows_settle {v : Value} {j : Json} (h : (view.settle v).document = .ok j) :
    view.Shows v j := by
  refine ⟨view.size + 1, [], ?_⟩
  unfold Value.document settle settleExcept at h
  cases hj : (v.expand (view.enter (fun _ => false) (view.size + 1) []) view.survey).toJson with
  | error f => simp [hj, Except.mapError] at h
  | ok j' => simpa [hj, Except.mapError] using h

/-- A plain value shows what it is written as. -/
theorem shows_of_plain {v : Value} {j : Json} (hv : v.isPlain = true) (h : view.Shows v j) :
    v.toJson = .ok j := by
  obtain ⟨depth, path, h⟩ := h
  rwa [Value.expand_of_plain _ _ v hv] at h

/-- A pointer is no document. -/
theorem not_toJson_pointer (p : Place) (j : Json) : p.pointer.toJson ≠ .ok j := by
  cases p <;> simp [Place.pointer, Value.toJson]

/-- The fragment of a node shows what its entries show. -/
theorem shows_fragment {n : NodeId} {j : Json} (h : view.Shows (.fragment n) j) :
    ∃ ms, view.ShowsEntries (view.fragment view.survey n) ms ∧ j = .obj (Json.ofMembers ms) := by
  obtain ⟨depth, path, h⟩ := h
  rw [Value.expand] at h
  cases depth with
  | zero => exact absurd h (not_toJson_pointer _ j)
  | succ depth =>
    rw [enter] at h
    split at h
    · exact absurd h (not_toJson_pointer _ j)
    · rw [content, Value.toJson_dict] at h
      obtain ⟨ms, hms, rfl⟩ := h
      exact ⟨ms, ⟨depth, _, hms⟩, rfl⟩

/-- A mapping shows an object, of which the members show its entries. -/
theorem shows_dict {es : Entries} {j : Json} (h : view.Shows (.dict es) j) :
    ∃ ms, view.ShowsEntries es ms ∧ j = .obj (Json.ofMembers ms) := by
  obtain ⟨depth, path, h⟩ := h
  rw [Value.expand, Value.toJson_dict] at h
  obtain ⟨ms, hms, rfl⟩ := h
  exact ⟨ms, ⟨depth, path, hms⟩, rfl⟩

/-- A list shows an array, element by element. -/
theorem shows_list {xs : List Value} {j : Json} (h : view.Shows (.list xs) j) :
    ∃ js, List.Forall₂ view.Shows xs js ∧ j = .arr js := by
  obtain ⟨depth, path, h⟩ := h
  rw [Value.expand, Value.toJson_list] at h
  obtain ⟨js, hjs, rfl⟩ := h
  refine ⟨js, ?_, rfl⟩
  induction xs generalizing js with
  | nil =>
    cases hjs
    exact .nil
  | cons v rest ih =>
    rw [Value.expandList, Value.toJsonList_cons] at hjs
    obtain ⟨j, js', hj, hrest, rfl⟩ := hjs
    exact .cons ⟨depth, path, hj⟩ (ih js' hrest)

/-- Entries whose keys are texts show members of the same names, one by one. -/
theorem ShowsEntries.forall₂ {es : Entries} {ms : List (String × Json)}
    (h : view.ShowsEntries es ms) (ht : es.Texts) :
    List.Forall₂ (fun p m => p.1 = .str m.1 ∧ view.Shows p.2 m.2) es ms := by
  obtain ⟨depth, path, h⟩ := h
  induction es generalizing ms with
  | nil =>
    cases h
    exact .nil
  | cons p rest ih =>
    obtain ⟨k, v⟩ := p
    rw [Value.expandEntries, Value.toJsonMembers_cons] at h
    obtain ⟨name, j, ms', hk, hj, hrest, rfl⟩ := h
    obtain ⟨s, rfl⟩ := ht _ (List.mem_cons_self ..)
    cases hk
    exact .cons ⟨rfl, depth, path, hj⟩ (ih (fun q hq => ht q (List.mem_cons_of_mem _ hq)) hrest)

/-- In related lists every element of the second one is related to one of the first. -/
theorem exists_of_mem_right {α β : Type} {r : α → β → Prop} {xs : List α} {ys : List β}
    (h : List.Forall₂ r xs ys) {y : β} (hy : y ∈ ys) : ∃ x ∈ xs, r x y := by
  induction h with
  | nil => cases hy
  | cons hr _ ih =>
    rcases List.mem_cons.mp hy with rfl | hy
    · exact ⟨_, List.mem_cons_self .., hr⟩
    · obtain ⟨x, hx, hxy⟩ := ih hy
      exact ⟨x, List.mem_cons_of_mem _ hx, hxy⟩

/-- **Members.** A name has a member in the object that entries show exactly if it is a key
    of the entries, and the member shows the value of the key. -/
theorem ShowsEntries.rel {es : Entries} {ms : List (String × Json)}
    (h : view.ShowsEntries es ms) (ht : es.Texts) (hd : es.Distinct) (name : String) :
    Option.Rel view.Shows (es.get? (.str name)) (Json.lookup? name (Json.ofMembers ms)) := by
  have hall := h.forall₂ ht
  -- Members have the keys of their entries, which differ.
  have hnames : ms.Pairwise fun a b => a.1 ≠ b.1 := by
    clear h ht
    induction hall with
    | nil => exact .nil
    | @cons p m es ms hpm hrest ih =>
      obtain ⟨hp, hd⟩ := List.pairwise_cons.mp hd
      refine List.pairwise_cons.mpr ⟨fun m' hm' => ?_, ih hd⟩
      obtain ⟨p', hp', hpm', -⟩ := exists_of_mem_right hrest hm'
      intro hname
      exact hp p' hp' (by rw [hpm.1, hpm', hname])
  rw [Json.lookup?_ofMembers hnames]
  clear h ht hd hnames
  induction hall with
  | nil => exact .none
  | @cons p m es ms hpm hrest ih =>
    obtain ⟨k, v⟩ := p
    obtain ⟨n, j⟩ := m
    obtain ⟨rfl, hv⟩ : k = .str n ∧ view.Shows v j := hpm
    by_cases hn : n = name
    · subst hn
      simpa [Entries.get?, Json.lookup?] using Option.Rel.some hv
    · simpa [Entries.get?, Json.lookup?, hn] using ih

/-- A member of the object that entries show shows the value of one of them. -/
theorem ShowsEntries.exists_of_lookup? {es : Entries} {ms : List (String × Json)}
    (h : view.ShowsEntries es ms) {name : String} {j : Json}
    (hj : Json.lookup? name (Json.ofMembers ms) = some j) : ∃ p ∈ es, view.Shows p.2 j := by
  have hmem := Json.mem_of_lookup?_ofMembers hj
  obtain ⟨depth, path, h⟩ := h
  clear hj
  induction es generalizing ms with
  | nil =>
    cases h
    cases hmem
  | cons p rest ih =>
    obtain ⟨k, v⟩ := p
    rw [Value.expandEntries, Value.toJsonMembers_cons] at h
    obtain ⟨_, j', ms', -, hj', hrest, rfl⟩ := h
    rcases List.mem_cons.mp hmem with heq | hmem
    · obtain ⟨-, rfl⟩ := Prod.mk.inj heq
      exact ⟨_, List.mem_cons_self .., depth, path, hj'⟩
    · obtain ⟨q, hq, hshows⟩ := ih hmem hrest
      exact ⟨q, List.mem_cons_of_mem _ hq, hshows⟩

end View

end SchemaGraph
