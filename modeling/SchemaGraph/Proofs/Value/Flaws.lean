import SchemaGraph.Proofs.Files.Reading
import SchemaGraph.Proofs.Value.Founded

namespace SchemaGraph.Value

/-!
# Plain data

A value can be written as a document unless there is something in it that no document holds, and
what is written is plain data: it is written again as it stands.

* `Value.Flawed`  — something in a value has no place in a document
* `Value.IsData`  — plain data: texts as keys, each once, and no sequences but lists
* `Value.isOk_toJson_expand` — a value is written exactly if neither it nor what it points at is
  flawed
* `Value.isData_of_toJson`, `Value.IsData.toJson_eq` — what is written is plain data, and plain data
  is written as it stands
-/

/-! ### Flaws -/

/-- A value that can name a member: a text, a finite number, a truth value or `null`. -/
def isName : Value → Bool
  | .str _ => true
  | .bool _ => true
  | .null => true
  | .int _ => true
  | .bigint _ => true
  | .float x => x.isFinite
  | _ => false

/-- Something in a value has no place in a document: a number that is infinite or undefined, a
    thing, a function, a set, a container that is its own element, or a key that names no member. -/
inductive Flawed : Value → Prop
  | notFinite {x : Binary64} (h : x.isFinite = false) : Flawed (.float x)
  | undefined : Flawed .undefined
  | foreign (x : Foreign) : Flawed (.foreign x)
  | constant (mark : Nat) (result : Value) : Flawed (.constant mark result)
  | set (xs : List Value) : Flawed (.items .set xs)
  | loop (keyed : Bool) : Flawed (.loop keyed)
  | element {form : Form} {xs : List Value} {x : Value} (hx : x ∈ xs) (h : Flawed x) :
    Flawed (.items form xs)
  | key {es : List (Value × Value)} {p : Value × Value} (hp : p ∈ es) (h : p.1.isName = false) :
    Flawed (.dict es)
  | value {es : List (Value × Value)} {p : Value × Value} (hp : p ∈ es) (h : Flawed p.2) :
    Flawed (.dict es)

/-- A key names a member exactly if it is a name. -/
theorem isOk_keyName (k : Value) : (keyName k).isOk = k.isName := by
  cases k with
  | float x => cases x <;> rfl
  | _ => rfl

/-- A floating-point number is flawed exactly if it is not finite. -/
theorem flawed_float {x : Binary64} : Flawed (.float x) ↔ x.isFinite = false :=
  ⟨fun h => by cases h; assumption, .notFinite⟩

/-- A sequence that is no set is flawed exactly if one of its elements is. -/
theorem flawed_items {form : Form} {xs : List Value} (hform : form ≠ .set) :
    Flawed (.items form xs) ↔ ∃ x ∈ xs, Flawed x := by
  constructor
  · rintro (_ | _ | _ | _ | _ | _ | ⟨hx, h⟩)
    · exact absurd rfl hform
    · exact ⟨_, hx, h⟩
  · rintro ⟨x, hx, h⟩
    exact .element hx h

/-- A mapping is flawed exactly if one of its keys names no member, or one of its values is flawed.
    -/
theorem flawed_dict {es : List (Value × Value)} :
    Flawed (.dict es) ↔ ∃ p ∈ es, p.1.isName = false ∨ Flawed p.2 := by
  constructor
  · rintro (_ | _ | _ | _ | _ | _ | _ | ⟨hp, h⟩ | ⟨hp, h⟩)
    · exact ⟨_, hp, .inl h⟩
    · exact ⟨_, hp, .inr h⟩
  · rintro ⟨p, hp, h | h⟩
    · exact .key hp h
    · exact .value hp h

/-- One step and a result succeed if the step does. -/
theorem isOk_bind {ε α β : Type} (x : Except ε α) (f : α → β) :
    (x >>= fun a => .ok (f a)).isOk = x.isOk := by
  cases x <;> rfl

/-- Two steps and a result succeed if both steps do. -/
theorem isOk_bind_bind {ε α β γ : Type} (x : Except ε α) (y : Except ε β) (f : α → β → γ) :
    (x >>= fun a => y >>= fun b => .ok (f a b)).isOk = (x.isOk && y.isOk) := by
  cases x with
  | error e => rfl
  | ok a => cases y <;> rfl

/-- Three steps and a result succeed if all steps do. -/
theorem isOk_bind_bind_bind {ε α β γ δ : Type} (x : Except ε α) (y : Except ε β) (z : Except ε γ)
    (f : α → β → γ → δ) :
    (x >>= fun a => y >>= fun b => z >>= fun c => .ok (f a b c)).isOk
      = (x.isOk && (y.isOk && z.isOk)) := by
  cases x with
  | error e => rfl
  | ok a => exact isOk_bind_bind y z (f a)

/-- A sequence that is no set is written exactly if its elements are. -/
theorem isOk_toJson_items {form : Form} (hform : form ≠ .set) (xs : List Value) :
    (toJson (.items form xs)).isOk = (toJsonList xs).isOk := by
  cases form with
  | set => exact absurd rfl hform
  | _ => exact isOk_bind _ _

/-- A mapping is written exactly if its members are. -/
theorem isOk_toJson_dict (es : List (Value × Value)) :
    (toJson (.dict es)).isOk = (toJsonMembers es).isOk := isOk_bind _ _

section Expand

variable {enter : Place → Value} {survey : Nat}

mutual

/-- **Flaws.** With something in place of its pointers, a value is written exactly if it is not
    flawed, and everything that stands in place of its pointers is written. -/
theorem isOk_toJson_expand : ∀ v : Value, (v.expand enter survey).toJson.isOk = true ↔
    ¬ v.Flawed ∧ ∀ p ∈ v.places survey, (enter p).toJson.isOk = true
  | .fragment n => by
    rw [expand, places, List.forall_mem_singleton, and_iff_right nofun]
  | .borrowed other n => by
    rw [expand, places, List.forall_mem_singleton, and_iff_right nofun]
  | .shared k => by
    rw [expand, places, List.forall_mem_singleton, and_iff_right nofun]
  | .items form xs => by
    -- A set is refused as a whole; other collections are written element by element.
    by_cases hform : form = .set
    · subst hform
      exact iff_of_false (by simp [expand, toJson, Except.isOk, Except.toBool])
        fun h => h.1 (.set xs)
    · rw [expand, isOk_toJson_items hform, isOk_toJsonList_expandList xs, flawed_items hform,
        places]
      simp only [mem_listPlaces]
      constructor
      · exact fun h => ⟨fun ⟨x, hx, hflawed⟩ => (h x hx).1 hflawed,
          fun p ⟨x, hx, hp⟩ => (h x hx).2 p hp⟩
      · exact fun ⟨hnone, h⟩ x hx => ⟨fun hflawed => hnone ⟨x, hx, hflawed⟩,
          fun p hp => h p ⟨x, hx, hp⟩⟩
  | .dict es => by
    rw [expand, isOk_toJson_dict, isOk_toJsonMembers_expandEntries es, flawed_dict, places]
    simp only [mem_entryPlaces]
    constructor
    -- A mapping is flawed by a key that is no name, or by a value.
    · refine fun h => ⟨?_, fun p ⟨q, hq, hp⟩ => (h q hq).2.2 p hp⟩
      rintro ⟨q, hq, hname | hflawed⟩
      · rw [(h q hq).1] at hname
        cases hname
      · exact (h q hq).2.1 hflawed
    · refine fun ⟨hnone, h⟩ q hq => ⟨?_, fun hflawed => hnone ⟨q, hq, .inr hflawed⟩,
        fun p hp => h p ⟨q, hq, hp⟩⟩
      exact Bool.of_not_eq_false fun hname => hnone ⟨q, hq, .inl hname⟩
  | .float (.finite negative m e) => iff_of_true rfl
    ⟨fun h => Bool.noConfusion (flawed_float.mp h), nofun⟩
  | .float (.nan mark) => iff_of_false nofun fun h => h.1 (.notFinite rfl)
  | .float (.infinite negative) => iff_of_false nofun fun h => h.1 (.notFinite rfl)
  | .loop keyed => iff_of_false nofun fun h => h.1 (.loop keyed)
  | .undefined => iff_of_false nofun fun h => h.1 .undefined
  | .foreign x => iff_of_false nofun fun h => h.1 (.foreign x)
  | .constant mark result => iff_of_false nofun fun h => h.1 (.constant mark result)
  | .null | .bool _ | .int _ | .bigint _ | .str _ => iff_of_true rfl ⟨nofun, nofun⟩

/-- The same for all elements of a list. -/
theorem isOk_toJsonList_expandList : ∀ xs : List Value,
    (toJsonList (expandList enter survey xs)).isOk = true ↔
      ∀ x ∈ xs, ¬ x.Flawed ∧ ∀ p ∈ x.places survey, (enter p).toJson.isOk = true
  | [] => iff_of_true rfl nofun
  | v :: rest => by
    rw [expandList, toJsonList, isOk_bind_bind, Bool.and_eq_true, isOk_toJson_expand v,
      isOk_toJsonList_expandList rest, List.forall_mem_cons]

/-- The same for all entries of a mapping, whose keys must be names besides. -/
theorem isOk_toJsonMembers_expandEntries : ∀ es : List (Value × Value),
    (toJsonMembers (expandEntries enter survey es)).isOk = true ↔
      ∀ q ∈ es, q.1.isName = true ∧ ¬ q.2.Flawed ∧
        ∀ p ∈ q.2.places survey, (enter p).toJson.isOk = true
  | [] => iff_of_true rfl nofun
  | (k, v) :: rest => by
    rw [expandEntries, toJsonMembers, isOk_bind_bind_bind, Bool.and_eq_true, Bool.and_eq_true,
      isOk_keyName, isOk_toJson_expand v, isOk_toJsonMembers_expandEntries rest,
      List.forall_mem_cons, and_assoc, and_assoc, and_assoc]

end

end Expand

/-! ### Plain data -/

/-- Plain data: finite numbers, truth values, texts and `null`, lists of plain data, and mappings
    from texts, each once, to plain data. -/
inductive IsData : Value → Prop
  | null : IsData .null
  | bool (b : Bool) : IsData (.bool b)
  | int (i : Int) : IsData (.int i)
  | bigint (i : Int) : IsData (.bigint i)
  | float {x : Binary64} (h : x.isFinite = true) : IsData (.float x)
  | str (s : String) : IsData (.str s)
  | list {xs : List Value} (h : ∀ x ∈ xs, IsData x) : IsData (.list xs)
  | dict {es : Entries} (hes : es.Formed) (h : ∀ p ∈ es, IsData p.2) : IsData (.dict es)

mutual

/-- A value without the marks of integers that are too big for a number. -/
def unmarked : Value → Value
  | .bigint i => .int i
  | .items form xs => .items form (unmarkedList xs)
  | .dict es => .dict (unmarkedEntries es)
  | v => v

/-- Values without such marks. -/
def unmarkedList : List Value → List Value
  | [] => []
  | v :: rest => unmarked v :: unmarkedList rest

/-- Entries without such marks in their values. -/
def unmarkedEntries : List (Value × Value) → List (Value × Value)
  | [] => []
  | (k, v) :: rest => (k, unmarked v) :: unmarkedEntries rest

end

/-- Several documents become values one by one. -/
theorem ofJsonList_eq (js : List Json) : ofJsonList js = js.map ofJson := by
  induction js with
  | nil => rfl
  | cons j rest ih => rw [ofJsonList, ih, List.map_cons]

/-- Members become entries one by one. -/
theorem ofJsonMembers_eq (ms : List (String × Json)) :
    ofJsonMembers ms = ms.map fun m => (.str m.1, ofJson m.2) := by
  induction ms with
  | nil => rfl
  | cons m rest ih =>
    obtain ⟨k, j⟩ := m
    rw [ofJsonMembers, ih, List.map_cons]

mutual

/-- In a document no integer carries a mark. -/
theorem unmarked_ofJson : ∀ j : Json, (ofJson j).unmarked = ofJson j
  | .arr js => by rw [ofJson, unmarked, unmarkedList_ofJson js]
  | .obj ms => by rw [ofJson, unmarked, unmarkedEntries_ofJson ms]
  | .null | .bool _ | .int _ | .float _ | .str _ => rfl

/-- In several documents no integer carries a mark. -/
theorem unmarkedList_ofJson : ∀ js : List Json, unmarkedList (ofJsonList js) = ofJsonList js
  | [] => rfl
  | j :: rest => by rw [ofJsonList, unmarkedList, unmarked_ofJson j, unmarkedList_ofJson rest]

/-- In members no integer carries a mark. -/
theorem unmarkedEntries_ofJson :
    ∀ ms : List (String × Json), unmarkedEntries (ofJsonMembers ms) = ofJsonMembers ms
  | [] => rfl
  | (k, j) :: rest => by
    rw [ofJsonMembers, unmarkedEntries, unmarked_ofJson j, unmarkedEntries_ofJson rest]

end

mutual

/-- Different documents are different values. -/
theorem ofJson_inj : ∀ {a b : Json}, ofJson a = ofJson b → a = b
  | .null, b, h => by cases b <;> simp_all [ofJson]
  | .bool _, b, h => by cases b <;> simp_all [ofJson]
  | .int _, b, h => by cases b <;> simp_all [ofJson]
  | .float _, b, h => by cases b <;> simp_all [ofJson]
  | .str _, b, h => by cases b <;> simp_all [ofJson]
  | .arr xs, b, h => by
    cases b <;> simp [ofJson] at h
    rw [ofJsonList_inj h]
  | .obj ms, b, h => by
    cases b <;> simp [ofJson] at h
    rw [ofJsonMembers_inj h]

/-- Different lists of documents are different lists of values. -/
theorem ofJsonList_inj : ∀ {as bs : List Json}, ofJsonList as = ofJsonList bs → as = bs
  | [], bs, h => by cases bs <;> simp_all [ofJsonList]
  | a :: as, bs, h => by
    cases bs <;> simp [ofJsonList] at h
    rw [ofJson_inj h.1, ofJsonList_inj h.2]

/-- Different members are different entries. -/
theorem ofJsonMembers_inj :
    ∀ {as bs : List (String × Json)}, ofJsonMembers as = ofJsonMembers bs → as = bs
  | [], bs, h => by cases bs <;> simp_all [ofJsonMembers]
  | (k, a) :: as, bs, h => by
    cases bs with
    | nil => simp [ofJsonMembers] at h
    | cons m bs =>
      obtain ⟨l, b⟩ := m
      simp [ofJsonMembers] at h
      rw [h.1.1, ofJson_inj h.1.2, ofJsonMembers_inj h.2]

end

/-- Members under different names are a mapping from texts. -/
theorem formed_ofJsonMembers {ms : List (String × Json)} (h : (ms.map (·.1)).Nodup) :
    Entries.Formed (ofJsonMembers ms) := by
  rw [ofJsonMembers_eq]
  refine ⟨fun p hp => ?_, ?_⟩
  · obtain ⟨m, -, rfl⟩ := List.mem_map.mp hp
    exact ⟨m.1, rfl⟩
  · refine List.pairwise_map.mpr ((List.pairwise_map.mp h).imp fun hne heq => hne ?_)
    rw [canonical_str, canonical_str] at heq
    exact Value.str.inj heq

/-- What holds of the values of all members holds when repeated names are resolved. -/
theorem forall_mem_ofMembers {P : Json → Prop} {ms : List (String × Json)}
    (h : ∀ m ∈ ms, P m.2) : ∀ m ∈ Json.ofMembers ms, P m.2 := by
  suffices hfold : ∀ acc : List (String × Json), (∀ m ∈ acc, P m.2) →
      ∀ m ∈ ms.foldl (fun acc m => Json.insert m.1 m.2 acc) acc, P m.2 from hfold [] nofun
  induction ms with
  | nil => exact fun acc hacc => hacc
  | cons m rest ih =>
    obtain ⟨hm, hrest⟩ := List.forall_mem_cons.mp h
    refine fun acc hacc => ih hrest _ fun q hq => ?_
    rcases Json.mem_insert hq with hq | hq
    · exact hacc q hq
    · rw [hq]
      exact hm

mutual

/-- **What is written is plain data.** -/
theorem isData_of_toJson : ∀ {v : Value} {j : Json}, v.toJson = .ok j → (ofJson j).IsData
  | .items form xs, j, h => by
    cases form with
    | set => cases h
    | _ =>
      obtain ⟨js, hjs, rfl⟩ := toJson_list.mp h
      rw [ofJson, ofJsonList_eq]
      refine .list fun x hx => ?_
      obtain ⟨a, ha, rfl⟩ := List.mem_map.mp hx
      exact isData_of_toJsonList hjs a ha
  | .dict es, j, h => by
    obtain ⟨ms, hms, rfl⟩ := toJson_dict.mp h
    have hkeyed := Json.keyed_ofMembers (toJsonMembers_keyed es hms)
    refine .dict (formed_ofJsonMembers hkeyed.1) fun p hp => ?_
    rw [ofJsonMembers_eq] at hp
    obtain ⟨m, hm, rfl⟩ := List.mem_map.mp hp
    exact forall_mem_ofMembers (P := fun a => (ofJson a).IsData) (isData_of_toJsonMembers hms) m hm
  | .float (.finite negative m e), j, h => by
    obtain rfl := Except.ok.inj h
    exact .float rfl
  | .null, j, h => by cases h; exact .null
  | .bool b, j, h => by cases h; exact .bool b
  | .int i, j, h => by cases h; exact .int i
  | .bigint i, j, h => by cases h; exact .int i
  | .str s, j, h => by cases h; exact .str s

/-- What is written of the elements of a list is plain data. -/
theorem isData_of_toJsonList : ∀ {xs : List Value} {js : List Json}, toJsonList xs = .ok js →
    ∀ j ∈ js, (ofJson j).IsData
  | [], js, h => by cases h; nofun
  | v :: rest, js, h => by
    obtain ⟨j, js', hj, hjs, rfl⟩ := toJsonList_cons.mp h
    exact List.forall_mem_cons.mpr ⟨isData_of_toJson hj, isData_of_toJsonList hjs⟩

/-- What is written of the entries of a mapping is plain data. -/
theorem isData_of_toJsonMembers : ∀ {es : List (Value × Value)} {ms : List (String × Json)},
    toJsonMembers es = .ok ms → ∀ m ∈ ms, (ofJson m.2).IsData
  | [], ms, h => by cases h; nofun
  | (k, v) :: rest, ms, h => by
    obtain ⟨name, j, ms', -, hj, hms, rfl⟩ := toJsonMembers_cons.mp h
    exact List.forall_mem_cons.mpr ⟨isData_of_toJson hj, isData_of_toJsonMembers hms⟩

end

/-- Marks are taken from values alone, and keys stay. -/
theorem keys_unmarkedEntries (es : List (Value × Value)) :
    (unmarkedEntries es).map (·.1) = es.map (·.1) := by
  induction es with
  | nil => rfl
  | cons p rest ih =>
    obtain ⟨k, v⟩ := p
    rw [unmarkedEntries, List.map_cons, ih, List.map_cons]

/-- A list is written as it stands if all its elements are. -/
theorem toJsonList_of_forall {xs : List Value}
    (h : ∀ x ∈ xs, ∃ j, x.toJson = .ok j ∧ ofJson j = x.unmarked) :
    ∃ js, toJsonList xs = .ok js ∧ ofJsonList js = unmarkedList xs := by
  induction xs with
  | nil => exact ⟨[], rfl, rfl⟩
  | cons v rest ih =>
    obtain ⟨⟨j, hj, hsame⟩, hrest⟩ := List.forall_mem_cons.mp h
    obtain ⟨js, hjs, hsames⟩ := ih hrest
    refine ⟨j :: js, toJsonList_cons.mpr ⟨j, js, hj, hjs, rfl⟩, ?_⟩
    rw [ofJsonList, unmarkedList, hsame, hsames]

/-- Entries under texts are written as they stand if all their values are. -/
theorem toJsonMembers_of_forall {es : Entries} (ht : es.Texts)
    (h : ∀ p ∈ es, ∃ j, p.2.toJson = .ok j ∧ ofJson j = p.2.unmarked) :
    ∃ ms, toJsonMembers es = .ok ms ∧ ofJsonMembers ms = unmarkedEntries es := by
  induction es with
  | nil => exact ⟨[], rfl, rfl⟩
  | cons p rest ih =>
    obtain ⟨k, v⟩ := p
    obtain ⟨⟨j, hj, hsame⟩, hrest⟩ := List.forall_mem_cons.mp h
    obtain ⟨⟨name, rfl⟩, htexts⟩ := List.forall_mem_cons.mp ht
    obtain ⟨ms, hms, hsames⟩ := ih htexts hrest
    refine ⟨(name, j) :: ms, toJsonMembers_cons.mpr ⟨name, j, ms, rfl, hj, hms, rfl⟩, ?_⟩
    rw [ofJsonMembers, unmarkedEntries, hsame, hsames]

/-- Members that are written of a mapping have different names. -/
theorem nodup_of_distinct {es : Entries} (hd : es.Distinct) {ms : List (String × Json)}
    (h : ofJsonMembers ms = unmarkedEntries es) : (ms.map (·.1)).Nodup := by
  have hkeys := congrArg (List.map (·.1)) h
  rw [keys_unmarkedEntries, ofJsonMembers_eq, List.map_map] at hkeys
  have hpairwise : (es.map (·.1)).Pairwise fun k l => k.canonical ≠ l.canonical :=
    List.pairwise_map.mpr hd
  rw [← hkeys] at hpairwise
  exact List.pairwise_map.mpr ((List.pairwise_map.mp hpairwise).imp fun hne heq =>
    hne (congrArg (canonical ∘ Value.str) heq))

/-- **Plain data is written as it stands**, but for the marks of big integers. -/
theorem IsData.toJson_eq {v : Value} (h : v.IsData) :
    ∃ j, v.toJson = .ok j ∧ ofJson j = v.unmarked := by
  induction h with
  | null => exact ⟨.null, rfl, rfl⟩
  | bool b => exact ⟨.bool b, rfl, rfl⟩
  | int i => exact ⟨.int i, rfl, rfl⟩
  | bigint i => exact ⟨.int i, rfl, rfl⟩
  | @float x h =>
    cases x with
    | finite negative m e => exact ⟨.float (.finite negative m e), rfl, rfl⟩
    | _ => cases h
  | str s => exact ⟨.str s, rfl, rfl⟩
  | list _ ih =>
    obtain ⟨js, hjs, hsame⟩ := toJsonList_of_forall ih
    exact ⟨.arr js, toJson_list.mpr ⟨js, hjs, rfl⟩, by rw [ofJson, unmarked, hsame]⟩
  | dict hes _ ih =>
    obtain ⟨ms, hms, hsame⟩ := toJsonMembers_of_forall hes.texts ih
    refine ⟨.obj ms, toJson_dict.mpr ⟨ms, hms, ?_⟩, by rw [ofJson, unmarked, hsame]⟩
    rw [Json.ofMembers_of_nodup (nodup_of_distinct hes.distinct hsame)]

/-- A document that is plain data is written as itself. -/
theorem toJson_ofJson {j : Json} (h : (ofJson j).IsData) : (ofJson j).toJson = .ok j := by
  obtain ⟨j', hj', hsame⟩ := h.toJson_eq
  rw [unmarked_ofJson] at hsame
  rw [hj', ofJson_inj hsame]

end SchemaGraph.Value
