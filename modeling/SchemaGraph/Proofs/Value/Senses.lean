import SchemaGraph.Proofs.Value.Flaws
import SchemaGraph.Proofs.Value.Magnitudes

namespace SchemaGraph

/-!
# What documents mean

Two documents are equal as JSON when they mean the same: numbers by their exact values, arrays
element by element, and objects by what they have under each name, in whatever order.  A truth value
is never a number.  Values are compared in another way, by which truth values are numbers wherever
they stand.

* `Sense`         — what a document says, however it is written
* `Json.sense`    — what a document means
* `Sense.leveled` — the same, with numbers for truth values
* `Value.same_ofJson_iff` — values are equal when they mean the same but for truth values
-/

/-- What a document says, however its numbers and objects are written. -/
inductive Sense
  | null
  | bool (b : Bool)
  | number (q : ℚ)
  | text (s : String)
  | array (elements : List Sense)
  | object (member : String → Option Sense)

namespace Json

mutual

/-- What a document means. -/
def sense : Json → Sense
  | .null => .null
  | .bool b => .bool b
  | .int i => .number i
  | .float x => .number ((Number.float x).rational?.getD 0)
  | .str s => .text s
  | .arr js => .array (senses js)
  | .obj ms => .object (senseOf ms)

/-- What several documents mean. -/
def senses : List Json → List Sense
  | [] => []
  | j :: rest => sense j :: senses rest

/-- What members mean under a name. -/
def senseOf : List (String × Json) → String → Option Sense
  | [], _ => none
  | (k, j) :: rest, name => if k = name then some (sense j) else senseOf rest name

end

/-- A name has a sense if it names a member. -/
theorem senseOf_isSome {ms : List (String × Json)} {name : String} :
    (senseOf ms name).isSome ↔ name ∈ ms.map (·.1) := by
  induction ms with
  | nil => simp [senseOf]
  | cons m rest ih =>
    obtain ⟨k, j⟩ := m
    rw [senseOf, List.map_cons, List.mem_cons, ← ih]
    by_cases h : k = name
    · simp [h]
    · simp [h, Ne.symm h]

end Json

namespace Sense

mutual

/-- A sense with zero and one in the place of truth values. -/
def leveled : Sense → Sense
  | .bool b => .number (if b then 1 else 0)
  | .array ds => .array (leveledList ds)
  | .object member => .object fun name => leveledOption (member name)
  | d => d

/-- Several senses with numbers in the place of truth values. -/
def leveledList : List Sense → List Sense
  | [] => []
  | d :: rest => leveled d :: leveledList rest

/-- The same of a sense that may be missing. -/
def leveledOption : Option Sense → Option Sense
  | none => none
  | some d => some (leveled d)

end

end Sense

namespace Value

open Json Sense

/-- A document that is a truth value or a number, by its value. -/
theorem numeric?_ofJson {a : Json} (ha : (ofJson a).IsData) :
    (∃ x q, (ofJson a).numeric? = some x ∧ x.rational? = some q ∧
      a.sense.leveled = .number q) ∨
    (ofJson a).numeric? = none ∧ ∀ q, a.sense.leveled ≠ .number q := by
  cases a with
  | bool b => cases b <;> exact .inl ⟨_, _, rfl, rfl, by simp [sense, leveled, dyadicValue]⟩
  | int i => exact .inl ⟨_, _, rfl, rfl, by simp [sense, leveled, dyadicValue]⟩
  | float x =>
    cases ha with
    | float hx =>
      cases x with
      | finite negative m e => exact .inl ⟨_, _, rfl, rfl, rfl⟩
      | _ => cases hx
  | _ => exact .inr ⟨rfl, fun q h => by cases h⟩

/-- A number is compared with numbers, by their values. -/
theorem same_of_numeric {v w : Value} {x : Number} {q : ℚ} (hv : v.numeric? = some x)
    (hx : x.rational? = some q) : v.same w = w.numeric?.any x.eq := by
  unfold same
  split
  · cases hv
  · cases hv
  · cases hv
  · cases hv
  · cases hv
    cases hx
  · rw [hv]
    cases w.numeric? <;> rfl

/-- Nothing else is equal to a number. -/
theorem same_of_not_numeric {v w : Value} {y : Number} (hv : v.numeric? = none)
    (hw : w.numeric? = some y) : v.same w = false := by
  unfold same
  split
  · cases hw
  · cases hw
  · cases hw
  · cases hw
  · cases hv
  · rw [hv, hw]

/-- An array is data if its elements are. -/
theorem isData_arr {js : List Json} :
    (ofJson (.arr js)).IsData ↔ ∀ j ∈ js, (ofJson j).IsData := by
  rw [ofJson, ofJsonList_eq]
  constructor
  · rintro (_ | _ | _ | _ | _ | _ | h)
    exact List.forall_mem_map.mp h
  · exact fun h => .list (List.forall_mem_map.mpr h)

/-- An object is data if its names are different and its values are data. -/
theorem isData_obj {ms : List (String × Json)} :
    (ofJson (.obj ms)).IsData ↔ (ms.map (·.1)).Nodup ∧ ∀ m ∈ ms, (ofJson m.2).IsData := by
  rw [ofJson]
  constructor
  · rintro (_ | _ | _ | _ | _ | _ | _ | ⟨hes, h⟩)
    refine ⟨nodup_of_distinct hes.distinct (unmarkedEntries_ofJson ms).symm, ?_⟩
    rw [ofJsonMembers_eq] at h
    exact fun m hm => h _ (List.mem_map_of_mem hm)
  · refine fun ⟨hnodup, h⟩ => .dict (formed_ofJsonMembers hnodup) ?_
    rw [ofJsonMembers_eq]
    intro p hp
    obtain ⟨m, hm, rfl⟩ := List.mem_map.mp hp
    exact h m hm

/-- The entry of a text is that of the member. -/
theorem find?_ofJsonMembers (ms : List (String × Json)) (name : String) :
    ((ofJsonMembers ms).find? fun e => e.1.canonical = (Value.str name).canonical)
      = (lookup? name ms).map fun j => (.str name, ofJson j) := by
  induction ms with
  | nil => rfl
  | cons m rest ih =>
    obtain ⟨k, j⟩ := m
    rw [canonical_str] at ih ⊢
    by_cases hk : k = name
    · simp [ofJsonMembers, lookup?, hk]
    · simp [ofJsonMembers, lookup?, hk, ih]

/-- The sense of a name is that of the member found under it. -/
theorem senseOf_eq (ms : List (String × Json)) (name : String) :
    senseOf ms name = (lookup? name ms).map sense := by
  induction ms with
  | nil => rfl
  | cons m rest ih =>
    obtain ⟨k, j⟩ := m
    rw [senseOf, lookup?]
    split
    · rfl
    · exact ih

/-- Objects of as many members mean the same when one has what the other has. -/
theorem object_eq_iff {as bs : List (String × Json)} (ha : (as.map (·.1)).Nodup)
    (hb : (bs.map (·.1)).Nodup) :
    (Sense.object (senseOf as)).leveled = (Sense.object (senseOf bs)).leveled ↔
      as.length = bs.length ∧ ∀ name ∈ as.map (·.1),
        leveledOption (senseOf as name) = leveledOption (senseOf bs name) := by
  -- A name has a levelled sense exactly if it names a member.
  have hnames : ∀ {ms : List (String × Json)} {name : String},
      (leveledOption (senseOf ms name)).isSome ↔ name ∈ ms.map (·.1) := by
    intro ms name
    rw [← senseOf_isSome]
    cases senseOf ms name <;> rfl
  have hobject : (Sense.object (senseOf as)).leveled
        = (Sense.object (senseOf bs)).leveled ↔
      ∀ name, leveledOption (senseOf as name) = leveledOption (senseOf bs name) := by
    rw [leveled, leveled, Sense.object.injEq, funext_iff]
  rw [hobject]
  constructor
  · intro h
    have hperm : (as.map (·.1)).Perm (bs.map (·.1)) :=
      (List.perm_ext_iff_of_nodup ha hb).mpr fun name => by rw [← hnames, h name, hnames]
    have hlength := hperm.length_eq
    rw [List.length_map, List.length_map] at hlength
    exact ⟨hlength, fun name _ => h name⟩
  -- As many different names, all of them among the others, are the same names.
  · rintro ⟨hlength, h⟩ name
    have hsub : as.map (·.1) ⊆ bs.map (·.1) := fun name hname =>
      hnames.mp (h name hname ▸ hnames.mpr hname)
    have hperm : (as.map (·.1)).Perm (bs.map (·.1)) :=
      (ha.subperm hsub).perm_of_length_le (by rw [List.length_map, List.length_map, hlength])
    by_cases hname : name ∈ as.map (·.1)
    · exact h name hname
    · have hnone : ∀ {ms : List (String × Json)}, name ∉ ms.map (·.1) →
          leveledOption (senseOf ms name) = none := fun hnot =>
        Option.not_isSome_iff_eq_none.mp (mt hnames.mp hnot)
      rw [hnone hname, hnone (mt hperm.mem_iff.mpr hname)]

/-- The same of documents that are not both arrays or both objects. -/
theorem same_ofJson_iff_of_flat {a b : Json} (ha : (ofJson a).IsData) (hb : (ofJson b).IsData)
    (harr : ∀ js ks, a = .arr js → b ≠ .arr ks) (hobj : ∀ ms ns, a = .obj ms → b ≠ .obj ns) :
    (ofJson a).same (ofJson b) = true ↔ a.sense.leveled = b.sense.leveled := by
  rcases numeric?_ofJson ha with ⟨x, p, hx, hp, ha⟩ | ⟨hx, ha⟩
  · rw [same_of_numeric hx hp, ha]
    rcases numeric?_ofJson hb with ⟨y, q, hy, hq, hb⟩ | ⟨hy, hb⟩
    · rw [hy, hb, Option.any_some, Number.eq_iff hp hq, Sense.number.injEq]
    · rw [hy]
      exact iff_of_false nofun (Ne.symm (hb p))
  · rcases numeric?_ofJson hb with ⟨y, q, hy, -, hb⟩ | ⟨hy, -⟩
    · rw [same_of_not_numeric hx hy, hb]
      exact iff_of_false nofun (ha q)
    · -- two texts, or two things of different sorts
      cases a with
      | null => cases b <;> simp_all [ofJson, same, numeric?, number?, sense, leveled]
      | str s => cases b <;> simp_all [ofJson, same, numeric?, number?, sense, leveled]
      | arr js => cases b <;> simp_all [ofJson, same, numeric?, number?, sense, leveled]
      | obj ms => cases b <;> simp_all [ofJson, same, numeric?, number?, sense, leveled]
      | _ => cases hx

mutual

/-- **Equality.** Documents are equal as values exactly if they mean the same, but for truth
    values that are numbers. -/
theorem same_ofJson_iff : ∀ {a b : Json}, (ofJson a).IsData → (ofJson b).IsData →
    ((ofJson a).same (ofJson b) = true ↔ a.sense.leveled = b.sense.leveled)
  | .arr as, .arr bs, ha, hb => by
    rw [ofJson, ofJson, same, decide_eq_true rfl, Bool.true_and, sense, sense, leveled,
      leveled, Sense.array.injEq]
    · exact sameList_ofJson_iff (isData_arr.mp ha) (isData_arr.mp hb)
    · nofun
  | .obj as, .obj bs, ha, hb => by
    obtain ⟨hnodup, ha⟩ := isData_obj.mp ha
    obtain ⟨hnodup', hb⟩ := isData_obj.mp hb
    rw [sense, sense, object_eq_iff hnodup hnodup', ofJson, ofJson, same,
      Bool.and_eq_true, sameEntries_ofJson_iff hnodup ha hb, decide_eq_true_iff, ofJsonMembers_eq,
      ofJsonMembers_eq, List.length_map, List.length_map]
  | .arr _, .obj _, ha, hb | .arr _, .null, ha, hb | .arr _, .bool _, ha, hb
  | .arr _, .int _, ha, hb | .arr _, .float _, ha, hb | .arr _, .str _, ha, hb
  | .obj _, .arr _, ha, hb | .obj _, .null, ha, hb | .obj _, .bool _, ha, hb
  | .obj _, .int _, ha, hb | .obj _, .float _, ha, hb | .obj _, .str _, ha, hb
  | .null, _, ha, hb | .bool _, _, ha, hb | .int _, _, ha, hb | .float _, _, ha, hb
  | .str _, _, ha, hb => same_ofJson_iff_of_flat ha hb nofun nofun

/-- Lists of data are the same if their levelled senses are: induction on both, beside the
    statements for values and members. -/
theorem sameList_ofJson_iff : ∀ {as bs : List Json}, (∀ a ∈ as, (ofJson a).IsData) →
    (∀ b ∈ bs, (ofJson b).IsData) → (sameList (ofJsonList as) (ofJsonList bs) = true ↔
      leveledList (senses as) = leveledList (senses bs))
  | [], [], _, _ => by simp [ofJsonList, sameList]
  | [], _ :: _, _, _ => by simp [ofJsonList, sameList, senses, leveledList]
  | _ :: _, [], _, _ => by simp [ofJsonList, sameList, senses, leveledList]
  | a :: as, b :: bs, ha, hb => by
    obtain ⟨ha, has⟩ := List.forall_mem_cons.mp ha
    obtain ⟨hb, hbs⟩ := List.forall_mem_cons.mp hb
    rw [ofJsonList, ofJsonList, sameList, Bool.and_eq_true, same_ofJson_iff ha hb,
      sameList_ofJson_iff has hbs, senses, senses, leveledList, leveledList,
      List.cons.injEq]

/-- Members are the same if each name has the same sense. -/
theorem sameEntries_ofJson_iff : ∀ {as bs : List (String × Json)}, (as.map (·.1)).Nodup →
    (∀ m ∈ as, (ofJson m.2).IsData) → (∀ m ∈ bs, (ofJson m.2).IsData) →
    (sameEntries (ofJsonMembers as) (ofJsonMembers bs) = true ↔ ∀ name ∈ as.map (·.1),
      leveledOption (senseOf as name) = leveledOption (senseOf bs name))
  | [], _, _, _, _ => by simp [ofJsonMembers, sameEntries]
  | (k, a) :: as, bs, hnodup, ha, hdata => by
    obtain ⟨ha, has⟩ := List.forall_mem_cons.mp ha
    rw [List.map_cons, List.nodup_cons] at hnodup
    -- The first name is none of the others, so it does not hide their values.
    have hrest : ∀ name ∈ as.map (·.1), senseOf ((k, a) :: as) name = senseOf as name :=
      fun name hname => if_neg fun heq : k = name => hnodup.1 (heq ▸ hname)
    have hfirst : senseOf ((k, a) :: as) k = some a.sense := if_pos rfl
    have hentry : (match lookup? k bs with
        | some b => (ofJson a).same (ofJson b)
        | none => false) = true ↔
          leveledOption (some a.sense) = leveledOption (senseOf bs k) := by
      rw [senseOf_eq]
      cases hb : lookup? k bs with
      | none => exact iff_of_false nofun nofun
      | some b =>
        exact (same_ofJson_iff ha (hdata _ (mem_of_lookup? hb))).trans (Option.some_inj).symm
    rw [ofJsonMembers, sameEntries, Bool.and_eq_true, find?_ofJsonMembers, List.map_cons,
      List.forall_mem_cons, hfirst, sameEntries_ofJson_iff hnodup.2 has hdata]
    refine and_congr ?_ (forall₂_congr fun name hname => by rw [hrest name hname])
    rw [← hentry]
    cases lookup? k bs <;> rfl

end

end Value

end SchemaGraph
