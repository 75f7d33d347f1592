import SchemaGraph.Proofs.Value.Shown

namespace SchemaGraph

/-!
# Places in values

What a value becomes when its pointers are replaced depends on the places that they point at
alone.  Views that agree at all nodes that are reached from a value show the same document of it.

* `Value.places`  — the places that a value points at
* `Value.Leads`   — a value points at fragments of some nodes only
* `Value.Reaches` — a value points at no surveys but its own and earlier ones
* `Value.expand_congr`, `Value.expand_moved` — other ways to replace pointers, in other surveys
* `Entries.Each`  — a property of all values of a mapping
* `View.Agrees.shows` — views that agree at the nodes that are reached show the same
-/

namespace Value

mutual

/-- The places that a value of a survey points at. -/
def places (survey : Nat) : Value → List Place
  | .fragment n => [.fragment survey n]
  | .borrowed other n => [.fragment other n]
  | .shared k => [.list k]
  | .items _ xs => listPlaces survey xs
  | .dict es => entryPlaces survey es
  | _ => []

/-- The places that the values of a list point at. -/
def listPlaces (survey : Nat) : List Value → List Place
  | [] => []
  | v :: rest => places survey v ++ listPlaces survey rest

/-- The places that the values of a mapping point at. -/
def entryPlaces (survey : Nat) : List (Value × Value) → List Place
  | [] => []
  | (_, v) :: rest => places survey v ++ entryPlaces survey rest

end

variable {survey : Nat} {p : Place}

/-- A list points at what its values point at. -/
theorem mem_listPlaces {xs : List Value} :
    p ∈ listPlaces survey xs ↔ ∃ v ∈ xs, p ∈ v.places survey := by
  induction xs with
  | nil => simp [listPlaces]
  | cons v rest ih => simp [listPlaces, ih]

/-- A mapping points at what its values point at. -/
theorem mem_entryPlaces {es : List (Value × Value)} :
    p ∈ entryPlaces survey es ↔ ∃ q ∈ es, p ∈ q.2.places survey := by
  induction es with
  | nil => simp [entryPlaces]
  | cons q rest ih => simp [entryPlaces, ih]

mutual

/-- A value without pointers points at nothing. -/
theorem places_of_plain : ∀ v : Value, v.isPlain = true → v.places survey = []
  | .fragment _, h => by cases h
  | .borrowed .., h => by cases h
  | .shared _, h => by cases h
  | .items _ xs, h => by
    rw [places, listPlaces_of_plain xs h]
  | .dict es, h => by
    rw [places, entryPlaces_of_plain es h]
  | .null, _ | .undefined, _ | .bool _, _ | .int _, _ | .bigint _, _ | .float _, _ | .str _, _
  | .foreign _, _ | .constant .., _ | .loop _, _ => rfl

/-- A plain list points at nothing. -/
theorem listPlaces_of_plain : ∀ xs : List Value, allPlain xs = true → listPlaces survey xs = []
  | [], _ => rfl
  | v :: rest, h => by
    obtain ⟨hv, hrest⟩ := Bool.and_eq_true_iff.mp h
    rw [listPlaces, places_of_plain v hv, listPlaces_of_plain rest hrest]
    rfl

/-- A plain mapping points at nothing. -/
theorem entryPlaces_of_plain :
    ∀ es : List (Value × Value), entriesPlain es = true → entryPlaces survey es = []
  | [], _ => rfl
  | (k, v) :: rest, h => by
    obtain ⟨hv, hrest⟩ := Bool.and_eq_true_iff.mp h
    rw [entryPlaces, places_of_plain v hv, entryPlaces_of_plain rest hrest]
    rfl

end

/-- A value points at fragments of its own survey only, and at those of some nodes. -/
def Leads (reach : NodeId → Prop) (v : Value) : Prop :=
  ∀ survey, ∀ p ∈ v.places survey, ∃ n, p = .fragment survey n ∧ reach n

section Leads

variable {reach : NodeId → Prop}

/-- A plain value leads nowhere. -/
theorem leads_of_plain {v : Value} (h : v.isPlain = true) : v.Leads reach := by
  intro survey p hp
  rw [places_of_plain v h] at hp
  cases hp

/-- A pointer to a fragment leads to its node. -/
theorem leads_fragment {n : NodeId} (h : reach n) : (Value.fragment n).Leads reach := by
  intro survey p hp
  exact ⟨n, List.mem_singleton.mp hp, h⟩

/-- A sequence leads where its elements lead. -/
theorem leads_items {form : Form} {xs : List Value} :
    (Value.items form xs).Leads reach ↔ ∀ v ∈ xs, v.Leads reach := by
  simp only [Leads, places, mem_listPlaces]
  exact ⟨fun h v hv survey p hp => h survey p ⟨v, hv, hp⟩,
    fun h survey p ⟨v, hv, hp⟩ => h v hv survey p hp⟩

/-- A mapping leads where its values lead. -/
theorem leads_dict {es : List (Value × Value)} :
    (Value.dict es).Leads reach ↔ ∀ q ∈ es, q.2.Leads reach := by
  simp only [Leads, places, mem_entryPlaces]
  exact ⟨fun h q hq survey p hp => h survey p ⟨q, hq, hp⟩,
    fun h survey p ⟨q, hq, hp⟩ => h q hq survey p hp⟩

/-- A value leads to no other nodes where more are reached. -/
theorem Leads.mono {more : NodeId → Prop} (hsub : ∀ n, reach n → more n) {v : Value}
    (h : v.Leads reach) : v.Leads more := by
  intro survey p hp
  obtain ⟨n, hn, hreach⟩ := h survey p hp
  exact ⟨n, hn, hsub n hreach⟩

end Leads

/-! ### Other ways to replace pointers -/

section Expansion

variable {f g : Place → Value} {survey number count : Nat} {reach : NodeId → Prop}

mutual

/-- A value of which one way to replace pointers leaves none becomes the same in another way that
    replaces them by the same. -/
theorem expand_congr : ∀ {v : Value} {j : Json},
    (∀ p ∈ v.places survey, ∀ j, (f p).toJson = .ok j → g p = f p) →
      (v.expand f survey).toJson = .ok j → v.expand g survey = v.expand f survey
  | .fragment _, j, h, hj => h _ (List.mem_singleton.mpr rfl) j hj
  | .borrowed .., j, h, hj => h _ (List.mem_singleton.mpr rfl) j hj
  | .shared _, j, h, hj => h _ (List.mem_singleton.mpr rfl) j hj
  | .items form xs, j, h, hj => by
    have hlist : ∃ js, toJsonList (expandList f survey xs) = .ok js := by
      rw [expand] at hj
      cases form with
      | set => cases hj
      | _ =>
        unfold toJson at hj
        cases hjs : toJsonList (expandList f survey xs) with
        | error e => simp [hjs, bind, Except.bind] at hj
        | ok js => exact ⟨js, rfl⟩
    obtain ⟨js, hjs⟩ := hlist
    rw [expand, expand, expandList_congr h hjs]
  | .dict es, j, h, hj => by
    obtain ⟨ms, hms, -⟩ := toJson_dict.mp hj
    rw [expand, expand, expandEntries_congr h hms]
  | .null, _, _, _ | .undefined, _, _, _ | .bool _, _, _, _ | .int _, _, _, _
  | .bigint _, _, _, _ | .float _, _, _, _ | .str _, _, _, _ | .foreign _, _, _, _
  | .constant .., _, _, _ | .loop _, _, _, _ => rfl

/-- Of a list that is written, only the places that it points at matter. -/
theorem expandList_congr : ∀ {xs : List Value} {js : List Json},
    (∀ p ∈ listPlaces survey xs, ∀ j, (f p).toJson = .ok j → g p = f p) →
      toJsonList (expandList f survey xs) = .ok js →
      expandList g survey xs = expandList f survey xs
  | [], _, _, _ => rfl
  | v :: rest, js, h, hjs => by
    obtain ⟨hv, hrest⟩ := List.forall_mem_append.mp h
    obtain ⟨j, js', hj, hjs', -⟩ := toJsonList_cons.mp hjs
    rw [expandList, expandList, expand_congr hv hj, expandList_congr hrest hjs']

/-- Of a mapping that is written, only the places that it points at matter. -/
theorem expandEntries_congr : ∀ {es : List (Value × Value)} {ms : List (String × Json)},
    (∀ p ∈ entryPlaces survey es, ∀ j, (f p).toJson = .ok j → g p = f p) →
      toJsonMembers (expandEntries f survey es) = .ok ms →
      expandEntries g survey es = expandEntries f survey es
  | [], _, _, _ => rfl
  | (k, v) :: rest, ms, h, hms => by
    obtain ⟨hv, hrest⟩ := List.forall_mem_append.mp h
    obtain ⟨name, j, ms', -, hj, hms', -⟩ := toJsonMembers_cons.mp hms
    rw [expandEntries, expandEntries, expand_congr hv hj, expandEntries_congr hrest hms']

end

end Expansion

/-! ### Places seen from other surveys -/

end Value

/-- A survey with one number in the place of another one. -/
def Place.renumber (survey number k : Nat) : Nat := if k = survey then number else k

/-- A place where the fragments of one survey are those of another one. -/
def Place.moved (survey number : Nat) : Place → Place
  | .fragment k n => .fragment (renumber survey number k) n
  | .list k => .list k

/-- A place that is no fragment, or that of some node in a survey, or stands in one of the surveys
    before some number. -/
def Place.Known (reach : NodeId → Prop) (count survey : Nat) (p : Place) : Prop :=
  ∀ k n, p = .fragment k n → k = survey ∧ reach n ∨ k < count

namespace Value

/-- Wherever a value stands, it points at lists, at fragments of some nodes in its own survey, and at
    those of surveys before some number. -/
def Reaches (reach : NodeId → Prop) (count : Nat) (v : Value) : Prop :=
  ∀ survey, ∀ p ∈ v.places survey, p.Known reach count survey

/-- A value points at no surveys but its own and those before some number. -/
abbrev Past (count : Nat) (v : Value) : Prop := v.Reaches (fun _ => True) count

section Reaches

variable {f g : Place → Value} {survey number count : Nat} {reach : NodeId → Prop}

/-- A plain value reaches nothing. -/
theorem reaches_of_plain {v : Value} (h : v.isPlain = true) : v.Reaches reach count := by
  intro survey p hp
  rw [places_of_plain v h] at hp
  cases hp

/-- A pointer to a fragment reaches its node. -/
theorem reaches_fragment {n : NodeId} (h : reach n) : (Value.fragment n).Reaches reach count := by
  intro survey p hp k m hk
  obtain ⟨rfl, rfl⟩ := Place.fragment.inj (hk.symm.trans (List.mem_singleton.mp hp))
  exact .inl ⟨rfl, h⟩

/-- A pointer to a list of annotations reaches no node by itself. -/
theorem reaches_shared (number : Nat) : (Value.shared number).Reaches reach count := by
  intro survey p hp k m hk
  cases hk.symm.trans (List.mem_singleton.mp hp)

/-- A sequence reaches what its elements reach. -/
theorem reaches_items {form : Form} {xs : List Value} :
    (Value.items form xs).Reaches reach count ↔ ∀ v ∈ xs, v.Reaches reach count := by
  simp only [Reaches, places, mem_listPlaces]
  exact ⟨fun h v hv survey p hp => h survey p ⟨v, hv, hp⟩,
    fun h survey p ⟨v, hv, hp⟩ => h v hv survey p hp⟩

/-- A mapping reaches what its values reach. -/
theorem reaches_dict {es : List (Value × Value)} :
    (Value.dict es).Reaches reach count ↔ ∀ q ∈ es, q.2.Reaches reach count := by
  simp only [Reaches, places, mem_entryPlaces]
  exact ⟨fun h q hq survey p hp => h survey p ⟨q, hq, hp⟩,
    fun h survey p ⟨q, hq, hp⟩ => h q hq survey p hp⟩

/-- A value reaches no other nodes where more are reached. -/
theorem Reaches.mono {more : NodeId → Prop} {v : Value} (h : v.Reaches reach count)
    (hsub : ∀ n, reach n → more n) : v.Reaches more count :=
  fun survey p hp k n hk => (h survey p hp k n hk).imp_left (And.imp_right (hsub n))

/-- What is borrowed stems from a survey before. -/
theorem Reaches.borrowed {other : Nat} {n : NodeId}
    (h : (Value.borrowed other n).Reaches reach count) : other < count := by
  -- the value may stand in any survey
  have hother := h (other + 1) _ (List.mem_singleton.mpr rfl) other n rfl
  omega

/-- A value that leads to nodes of its own survey alone reaches these. -/
theorem Leads.reaches {v : Value} (h : v.Leads reach) : v.Reaches reach count := by
  intro survey p hp k m hk
  obtain ⟨n, hn, hreach⟩ := h survey p hp
  obtain ⟨rfl, rfl⟩ := Place.fragment.inj (hk.symm.trans hn)
  exact .inl ⟨rfl, hreach⟩

mutual

/-- A value in another survey points at what it points at, moved there. -/
theorem expand_moved (g : Place → Value) (number : Nat) (hle : count ≤ survey) (k : Nat) :
    ∀ {v : Value}, v.Reaches reach count →
      v.expand g (Place.renumber survey number k) = v.expand (g ∘ Place.moved survey number) k
  | .fragment _, _ => rfl
  | .borrowed other n, h => by
    have hother := h.borrowed
    have hne : other ≠ survey := by omega
    have hsame : Place.moved survey number (.fragment other n) = .fragment other n := by
      rw [Place.moved, Place.renumber, if_neg hne]
    rw [expand, expand, Function.comp_apply, hsame]
  | .shared _, _ => rfl
  | .items form xs, h => by
    rw [expand, expand, expandList_moved g number hle k (reaches_items.mp h)]
  | .dict es, h => by
    rw [expand, expand, expandEntries_moved g number hle k (reaches_dict.mp h)]
  | .null, _ | .undefined, _ | .bool _, _ | .int _, _ | .bigint _, _ | .float _, _ | .str _, _
  | .foreign _, _ | .constant .., _ | .loop _, _ => rfl

/-- In a survey with another number a list becomes the same if its places are moved. -/
theorem expandList_moved (g : Place → Value) (number : Nat) (hle : count ≤ survey) (k : Nat) :
    ∀ {xs : List Value}, (∀ v ∈ xs, v.Reaches reach count) →
      expandList g (Place.renumber survey number k) xs =
        expandList (g ∘ Place.moved survey number) k xs
  | [], _ => rfl
  | v :: rest, h => by
    obtain ⟨hv, hrest⟩ := List.forall_mem_cons.mp h
    rw [expandList, expandList, expand_moved g number hle k hv,
      expandList_moved g number hle k hrest]

/-- In a survey with another number a mapping becomes the same if its places are moved. -/
theorem expandEntries_moved (g : Place → Value) (number : Nat) (hle : count ≤ survey) (k : Nat) :
    ∀ {es : List (Value × Value)}, (∀ q ∈ es, q.2.Reaches reach count) →
      expandEntries g (Place.renumber survey number k) es =
        expandEntries (g ∘ Place.moved survey number) k es
  | [], _ => rfl
  | (key, v) :: rest, h => by
    obtain ⟨hv, hrest⟩ := List.forall_mem_cons.mp h
    rw [expandEntries, expandEntries, expand_moved g number hle k hv,
      expandEntries_moved g number hle k hrest]

end

/-- Two ways to replace pointers come to the same where the first one leaves none. -/
def Agree (reach : NodeId → Prop) (f g : Place → Value) (survey number : Nat) : Prop :=
  ∀ n, reach n → ∀ j, (f (.fragment survey n)).toJson = .ok j →
    g (.fragment number n) = f (.fragment survey n)

/-- Entries of which one way to replace pointers leaves none become the same in another way that
    comes to the same. -/
theorem expandEntries_agree (hfg : Agree reach f g survey number) {es : List (Value × Value)}
    {ms : List (String × Json)} (h : ∀ q ∈ es, q.2.Leads reach)
    (hms : toJsonMembers (expandEntries f survey es) = .ok ms) :
    expandEntries g number es = expandEntries f survey es := by
  have hmoved := expandEntries_moved g number (Nat.zero_le survey) survey
    fun q hq => (h q hq).reaches
  rw [Place.renumber, if_pos rfl] at hmoved
  rw [hmoved]
  refine expandEntries_congr (fun p hp j hj => ?_) hms
  obtain ⟨q, hq, hp⟩ := mem_entryPlaces.mp hp
  obtain ⟨n, rfl, hn⟩ := h q hq survey p hp
  rw [Function.comp_apply, Place.moved, Place.renumber, if_pos rfl]
  exact hfg n hn j hj

/-- A value of which one way to replace pointers leaves none becomes the same in another way that
    comes to the same. -/
theorem expand_agree (hfg : Agree reach f g survey number) {v : Value} {j : Json}
    (h : v.Leads reach) (hj : (v.expand f survey).toJson = .ok j) :
    v.expand g number = v.expand f survey := by
  have hmoved := expand_moved g number (Nat.zero_le survey) survey h.reaches
  rw [Place.renumber, if_pos rfl] at hmoved
  rw [hmoved]
  refine expand_congr (fun p hp j hj => ?_) hj
  obtain ⟨n, rfl, hn⟩ := h survey p hp
  rw [Function.comp_apply, Place.moved, Place.renumber, if_pos rfl]
  exact hfg n hn j hj

end Reaches

end Value

namespace Entries

/-- All values of a mapping have a property. -/
def Each (P : Value → Prop) (e : Entries) : Prop := ∀ p ∈ e, P p.2

variable {P : Value → Prop} {e news : Entries}

/-- Every property holds of all values of the empty mapping. -/
theorem Each.nil : Each P [] := nofun

/-- A property of all values goes on when a value with the property is set. -/
theorem Each.set (h : e.Each P) (key : Value) {v : Value} (hv : P v) : (e.set key v).Each P := by
  intro p hp
  rcases mem_set hp with hp | ⟨hsame, -⟩
  · exact h p hp
  · rw [hsame]
    exact hv

/-- A property of all values goes on when a key is erased. -/
theorem Each.erase (h : e.Each P) (key : Value) : (e.erase key).Each P :=
  fun p hp => h p (mem_erase hp)

/-- A property of all values goes on when others with the property are merged. -/
theorem Each.update (h : e.Each P) (hnews : news.Each P) : (e.update news).Each P := by
  induction news generalizing e with
  | nil => exact h
  | cons p rest ih =>
    obtain ⟨hp, hrest⟩ := List.forall_mem_cons.mp hnews
    exact ih (h.set p.1 hp) hrest

/-- What is found in a mapping has the property of all its values. -/
theorem Each.get? (h : e.Each P) {key v : Value} (hv : e.get? key = some v) : P v := by
  obtain ⟨k, hk, -⟩ := mem_of_get? hv
  exact h _ hk

/-- A property of all values may be weakened. -/
theorem Each.mono {Q : Value → Prop} (h : e.Each P) (hPQ : ∀ v, P v → Q v) : e.Each Q :=
  fun p hp => hPQ _ (h p hp)

end Entries

namespace View

variable {view other : View} {reach : NodeId → Prop}

/-- Views that hold the same at all nodes that are reached, from which no others are reached. -/
structure Agrees (reach : NodeId → Prop) (view other : View) : Prop where
  same : ∀ n, reach n → other.fragment other.survey n = view.fragment view.survey n
  closed : ∀ n, reach n → (view.fragment view.survey n).Each (Value.Leads reach)

/-- Where one view leaves no pointer, views that agree replace pointers by the same. -/
theorem Agrees.enter (h : view.Agrees reach other) (depth : Nat) {path path' : List Place}
    (hpath : ∀ n, Place.fragment other.survey n ∈ path' → Place.fragment view.survey n ∈ path) :
    Value.Agree reach (view.enter (fun _ => false) depth path)
      (other.enter (fun _ => false) depth path') view.survey other.survey := by
  induction depth generalizing path path' with
  | zero => exact fun n _ j hj => absurd hj (not_toJson_pointer _ j)
  | succ depth ih =>
    intro n hn j hj
    unfold View.enter at hj ⊢
    split at hj
    · exact absurd hj (not_toJson_pointer _ j)
    · rename_i hfresh
      have hout : Place.fragment view.survey n ∉ path := by simpa using hfresh
      have hout' : Place.fragment other.survey n ∉ path' := fun hmem => hout (hpath n hmem)
      rw [if_neg hfresh, if_neg (by simpa using hout'), content, content, h.same n hn]
      rw [content, Value.toJson_dict] at hj
      obtain ⟨ms, hms, -⟩ := hj
      -- One more fragment is on the way, the same on both sides.
      have hbelow : ∀ m, Place.fragment other.survey m ∈ .fragment other.survey n :: path' →
          Place.fragment view.survey m ∈ .fragment view.survey n :: path := by
        intro m hm
        rcases List.mem_cons.mp hm with heq | hm
        · obtain ⟨-, rfl⟩ := Place.fragment.inj heq
          exact List.mem_cons_self ..
        · exact List.mem_cons_of_mem _ (hpath m hm)
      rw [Value.expandEntries_agree (ih hbelow) (h.closed n hn) hms]

/-- Views that agree show the same of a value that leads nowhere else. -/
theorem Agrees.shows (h : view.Agrees reach other) {v : Value} {j : Json} (hv : v.Leads reach)
    (hj : view.Shows v j) : other.Shows v j := by
  obtain ⟨depth, path, hrun⟩ := hj
  refine ⟨depth, [], ?_⟩
  rw [Value.expand_agree (h.enter depth fun _ hmem => by cases hmem) hv hrun]
  exact hrun

end View

end SchemaGraph
