import SchemaGraph.Proofs.Files.Tokens
import SchemaGraph.Proofs.Value.Shown

namespace SchemaGraph

/-!
# Written documents read back

What is written of a document, in any of the layouts, is read as the same document, if the members
of each object have different names and each floating-point number is read as it was written.  Every
document that is made of a value has different names for the members of each object.

* `Json.ReadBack` — a floating-point number is read as it was written
* `Json.floats`   — the floating-point numbers in a document
* `Json.Keyed`    — the members of each object have different names
* `Json.value?_text`     — the text of a value in front of another text is read as the value
* `Json.parse?_fileText` — the text of a file is read as the document that it holds
* `Value.toJson_keyed`   — values become documents of this kind
-/

namespace Json

/-- A floating-point number that is read as it is written. -/
def ReadBack (x : Binary64) : Prop := number? x.text.toList = some (.float x, [])

mutual

/-- The floating-point numbers in a document. -/
def floats : Json → List Binary64
  | .float x => [x]
  | .arr items => floatsList items
  | .obj members => floatsMembers members
  | _ => []

/-- The floating-point numbers in several documents. -/
def floatsList : List Json → List Binary64
  | [] => []
  | v :: rest => floats v ++ floatsList rest

/-- The floating-point numbers in the values of members. -/
def floatsMembers : List (String × Json) → List Binary64
  | [] => []
  | (_, v) :: rest => floats v ++ floatsMembers rest

end

mutual

/-- The members of each object have different names. -/
def Keyed : Json → Prop
  | .arr items => KeyedList items
  | .obj members => (members.map (·.1)).Nodup ∧ KeyedMembers members
  | _ => True

/-- In several documents, the members of each object have different names. -/
def KeyedList : List Json → Prop
  | [] => True
  | v :: rest => Keyed v ∧ KeyedList rest

/-- In the values of members, the members of each object have different names. -/
def KeyedMembers : List (String × Json) → Prop
  | [] => True
  | (_, v) :: rest => Keyed v ∧ KeyedMembers rest

end

/-! ### Different names -/

/-- A member of a new name goes to the end. -/
theorem insert_of_new {name : String} (value : Json) {members : List (String × Json)}
    (h : name ∉ members.map (·.1)) : insert name value members = members ++ [(name, value)] := by
  induction members with
  | nil => rfl
  | cons m rest ih =>
    simp only [List.map_cons, List.mem_cons, not_or] at h
    rw [insert, if_neg (Ne.symm h.1), ih h.2, List.cons_append]

/-- Members of different names are all kept. -/
theorem ofMembers_of_nodup {members : List (String × Json)} (h : (members.map (·.1)).Nodup) :
    ofMembers members = members := by
  have hgo : ∀ (done todo : List (String × Json)), ((done ++ todo).map (·.1)).Nodup →
      todo.foldl (fun acc m => insert m.1 m.2 acc) done = done ++ todo := by
    intro done todo
    induction todo generalizing done with
    | nil => simp
    | cons m rest ih =>
      intro hnodup
      have hnew : m.1 ∉ done.map (·.1) := by
        intro hmem
        rw [List.map_append, List.nodup_append] at hnodup
        exact hnodup.2.2 _ hmem _ (by simp) rfl
      rw [List.foldl_cons, insert_of_new _ hnew, ih]
      · simp
      · simpa using hnodup
  exact hgo [] members h

/-- A member that is there after another one was put in was there before, or has the value that was
    put in. -/
theorem mem_insert {name : String} {value : Json} {members : List (String × Json)}
    {m : String × Json} (h : m ∈ insert name value members) : m ∈ members ∨ m.2 = value := by
  induction members with
  | nil => exact .inr (by rw [List.mem_singleton.1 h])
  | cons first rest ih =>
    obtain ⟨key, old⟩ := first
    rw [insert] at h
    split at h
    · rcases List.mem_cons.1 h with rfl | h
      · exact .inr rfl
      · exact .inl (.tail _ h)
    · rcases List.mem_cons.1 h with rfl | h
      · exact .inl (.head _)
      · exact (ih h).imp_left (.tail _)

/-- The names of the members are those from before and the one that was put in. -/
theorem mem_names_insert {name key : String} {value : Json} {members : List (String × Json)} :
    key ∈ (insert name value members).map (·.1) ↔ key ∈ members.map (·.1) ∨ key = name := by
  induction members with
  | nil => simp [insert]
  | cons m rest ih =>
    obtain ⟨k, v⟩ := m
    rw [insert]
    split
    · rename_i hk
      subst hk
      exact ⟨.inl, fun h => h.elim id fun h => h ▸ .head _⟩
    · rw [List.map_cons, List.mem_cons, ih, List.map_cons, List.mem_cons, or_assoc]

/-- Names stay different when a member is put in. -/
theorem nodup_insert {name : String} {value : Json} {members : List (String × Json)}
    (h : (members.map (·.1)).Nodup) : ((insert name value members).map (·.1)).Nodup := by
  induction members with
  | nil => simp [insert]
  | cons m rest ih =>
    obtain ⟨k, v⟩ := m
    rw [List.map_cons, List.nodup_cons] at h
    rw [insert]
    split
    · rwa [List.map_cons, List.nodup_cons]
    · rename_i hk
      rw [List.map_cons, List.nodup_cons, mem_names_insert]
      exact ⟨fun hmem => hmem.elim h.1 hk, ih h.2⟩

/-- Members are keyed exactly if all their values are. -/
theorem keyedMembers_iff {members : List (String × Json)} :
    KeyedMembers members ↔ ∀ m ∈ members, m.2.Keyed := by
  induction members with
  | nil => simp [KeyedMembers]
  | cons m rest ih => obtain ⟨k, v⟩ := m; simp [KeyedMembers, ih]

/-- An object of members, each once, with the last of its values. -/
theorem keyed_ofMembers {members : List (String × Json)} (h : KeyedMembers members) :
    (Json.obj (ofMembers members)).Keyed := by
  have hgo : ∀ (todo done : List (String × Json)), KeyedMembers todo → KeyedMembers done →
      (done.map (·.1)).Nodup →
      (Json.obj (todo.foldl (fun acc m => insert m.1 m.2 acc) done)).Keyed := by
    intro todo
    induction todo with
    | nil => exact fun done _ hdone hnodup => ⟨hnodup, hdone⟩
    | cons m rest ih =>
      intro done htodo hdone hnodup
      obtain ⟨k, v⟩ := m
      refine ih _ htodo.2 (keyedMembers_iff.2 fun m hm => ?_) (nodup_insert hnodup)
      rcases mem_insert hm with hm | hm
      · exact keyedMembers_iff.1 hdone m hm
      · rw [hm]; exact htodo.1
  exact hgo members [] h trivial List.nodup_nil

/-! ### Layouts -/

/-- A line break, or what stands for it on one line, is blank. -/
theorem lineBreak_isBlank (style : Style) (depth : Nat) (flat : String)
    (h : flat.toList.all isBlank = true) :
    (lineBreak style depth flat).toList.all isBlank = true := by
  unfold lineBreak
  split
  · simp [isBlank]
  · exact h

/-- Elements on lines of their own, with commas between them. -/
def joined (style : Style) (depth : Nat) (parts : List String) : List Char :=
  (("," ++ lineBreak style depth " ").intercalate parts).toList

/-- One element needs no comma. -/
theorem joined_singleton (style : Style) (depth : Nat) (t : String) :
    joined style depth [t] = t.toList := by
  rw [joined, String.intercalate_singleton]

/-- Between elements stand a comma and a line break. -/
theorem joined_cons (style : Style) (depth : Nat) (t u : String) (ts : List String) :
    joined style depth (t :: u :: ts)
      = t.toList ++ ',' :: ((lineBreak style depth " ").toList ++ joined style depth (u :: ts)) := by
  simp only [joined, String.intercalate_cons_cons, String.toList_append, List.append_assoc]
  rfl

/-- Joined elements begin with the first character of the first one. -/
theorem begins_joined (style : Style) (depth : Nat) {t : String} {c : Char} {more : List Char}
    (ht : t.toList = c :: more) (ts : List String) :
    ∃ more', joined style depth (t :: ts) = c :: more' := by
  cases ts with
  | nil => exact ⟨more, by rw [joined_singleton, ht]⟩
  | cons u ts => exact ⟨_, by rw [joined_cons, ht, List.cons_append]⟩

/-- Nothing stands between the brackets of an empty collection. -/
theorem bracketed_nil (style : Style) (depth : Nat) (left right : String) :
    bracketed style depth left right [] = left ++ right := rfl

/-- Between the brackets of a collection stand its elements, on lines of their own. -/
theorem toList_bracketed (style : Style) (depth : Nat) (left right t : String)
    (ts : List String) :
    (bracketed style depth left right (t :: ts)).toList
      = left.toList ++ ((lineBreak style (depth + 1) "").toList
        ++ (joined style (depth + 1) (t :: ts)
          ++ ((lineBreak style depth "").toList ++ right.toList))) := by
  unfold bracketed joined
  rw [if_neg (by simp)]
  simp only [String.toList_append, List.append_assoc]

/-- A collection begins with its bracket. -/
theorem begins_bracketed (style : Style) (depth : Nat) (left right : String)
    (parts : List String) :
    ∃ more, (bracketed style depth left right parts).toList = left.toList ++ more := by
  cases parts with
  | nil => exact ⟨right.toList, by rw [bracketed_nil, String.toList_append]⟩
  | cons t ts => exact ⟨_, toList_bracketed style depth left right t ts⟩

/-- A text begins with a character that is no blank and closes no array. -/
theorem begins_textAt (style : Style) (depth : Nat) {v : Json}
    (hv : ∀ x ∈ v.floats, ReadBack x) :
    ∃ c more, (textAt style depth v).toList = c :: more ∧ isBlank c = false ∧ c ≠ ']' := by
  -- A number begins with a digit or a minus.
  have hnumber : ∀ {cs : List Char}, (number? cs).isSome = true →
      ∃ c more, cs = c :: more ∧ isBlank c = false ∧ c ≠ ']' := by
    intro cs h
    obtain ⟨c, more, rfl, hc⟩ := begins_number? h
    refine ⟨c, more, rfl, ?_⟩
    rcases hc with hc | rfl
    · simp only [isBlank, Bool.or_eq_false_iff, decide_eq_false_iff_not]
      refine ⟨⟨⟨⟨?_, ?_⟩, ?_⟩, ?_⟩, ?_⟩ <;> rintro rfl <;> exact absurd hc (by decide)
    · decide
  cases v with
  | null => exact ⟨'n', _, by rw [textAt]; rfl, by decide⟩
  | bool b => cases b with
    | true => exact ⟨'t', _, by rw [textAt]; rfl, by decide⟩
    | false => exact ⟨'f', _, by rw [textAt]; rfl, by decide⟩
  | int i => exact hnumber (by rw [textAt, number?_int]; rfl)
  | float x =>
    have hx : ReadBack x := hv x (by simp [floats])
    exact hnumber (by rw [textAt, hx]; rfl)
  | str s =>
    obtain ⟨body, hbody, -⟩ := stringRest?_text style.asciiOnly s []
    exact ⟨'"', body, by rw [textAt, hbody], by decide⟩
  | arr items =>
    obtain ⟨more, hmore⟩ := begins_bracketed style depth "[" "]"
      (itemTexts style (depth + 1) items)
    exact ⟨'[', more, by rw [textAt, hmore]; rfl, by decide⟩
  | obj members =>
    obtain ⟨more, hmore⟩ := begins_bracketed style depth "\x7b" "\x7d"
      (memberTexts style (depth + 1) members)
    exact ⟨'\x7b', more, by rw [textAt, hmore]; rfl, by decide⟩

/-- A member is its name, a colon, a space and its value. -/
theorem toList_member (asciiOnly : Bool) (name t : String) (tail : List Char) :
    (stringText asciiOnly name ++ ": " ++ t).toList ++ tail
      = (stringText asciiOnly name).toList ++ ':' :: ' ' :: (t.toList ++ tail) := by
  simp only [String.toList_append, List.append_assoc]
  rfl

/-! ### Values -/

section Values

variable {pad : List Char}

/-- A value that begins like a number is read as one. -/
theorem value?_of_number? {c : Char} (hc : c.isDigit = true ∨ c = '-') {pad : List Char}
    (hpad : pad.all isBlank = true) (fuel : Nat) (cs : List Char) :
    value? (fuel + 1) (pad ++ c :: cs) = number? (c :: cs) := by
  have hblank : isBlank c = false := by
    unfold isBlank
    rcases hc with hc | rfl
    · simp only [Bool.or_eq_false_iff, decide_eq_false_iff_not]
      refine ⟨⟨⟨?_, ?_⟩, ?_⟩, ?_⟩ <;> rintro rfl <;> exact absurd hc (by decide)
    · rfl
  rw [value?, skipBlanks_append hpad hblank]
  split <;> simp_all

/-- Each of the three words is read as what it stands for. -/
theorem value?_word (hpad : pad.all isBlank = true) (fuel : Nat) (rest : List Char)
    {word : String} {v : Json}
    (h : (word, v) ∈ [("null", .null), ("true", .bool true), ("false", .bool false)]) :
    value? (fuel + 1) (pad ++ (word.toList ++ rest)) = some (v, rest) := by
  have hplain : ∀ {c : Char} {cs : List Char}, isBlank c = false →
      value? (fuel + 1) (pad ++ c :: cs) = value? (fuel + 1) (c :: cs) := by
    intro c cs hc
    rw [value?, skipBlanks_append hpad hc, value?, ← List.nil_append (c :: cs),
      skipBlanks_append rfl hc]
    rfl
  simp only [List.mem_cons, Prod.mk.injEq, List.not_mem_nil, or_false] at h
  rcases h with ⟨rfl, rfl⟩ | ⟨rfl, rfl⟩ | ⟨rfl, rfl⟩ <;> exact hplain rfl

/-- What is read as a number is read as a value, if no further digit follows. -/
theorem value?_number (hpad : pad.all isBlank = true) (fuel : Nat) {rest : List Char}
    (hrest : Stops rest) {cs : List Char} {v : Json} (hcs : number? cs = some (v, [])) :
    value? (fuel + 1) (pad ++ (cs ++ rest)) = some (v, rest) := by
  have hsome : (number? cs).isSome = true := by rw [hcs]; rfl
  obtain ⟨c, more, rfl, hc⟩ := begins_number? hsome
  rw [List.cons_append, value?_of_number? hc hpad, ← List.cons_append, hrest.number?_append, hcs]
  rfl

/-- A string between quotes is read as its text. -/
theorem value?_string (hpad : pad.all isBlank = true) (fuel : Nat) (asciiOnly : Bool) (s : String)
    (rest : List Char) :
    value? (fuel + 1) (pad ++ ((stringText asciiOnly s).toList ++ rest)) = some (.str s, rest) := by
  obtain ⟨body, hbody, hread⟩ := stringRest?_text asciiOnly s rest
  rw [hbody, List.cons_append, value?, skipBlanks_append hpad rfl]
  simp only [hread, Option.map_some]

/-- An array is read by its elements. -/
theorem value?_array (hpad : pad.all isBlank = true) (fuel : Nat) {items : List Json}
    {body rest more : List Char} {c : Char} (hbegin : skipBlanks body = c :: more) (hne : c ≠ ']')
    (hitems : items? fuel [] body = some (items, rest)) :
    value? (fuel + 1) (pad ++ '[' :: body) = some (.arr items, rest) := by
  rw [value?, skipBlanks_append hpad rfl]
  simp only [hbegin]
  split
  · rename_i heq
    cases heq
    exact absurd rfl hne
  · rw [hitems]; rfl

/-- An object is read by its members. -/
theorem value?_object (hpad : pad.all isBlank = true) (fuel : Nat) {members : List (String × Json)}
    {body rest more : List Char} (hbegin : skipBlanks body = '"' :: more)
    (hmembers : members? fuel [] body = some (members, rest)) :
    value? (fuel + 1) (pad ++ '\x7b' :: body) = some (.obj (ofMembers members), rest) := by
  rw [value?, skipBlanks_append hpad rfl]
  simp only [hbegin, hmembers]
  rfl

/-- A member is read up to what follows its value: another member, or the end of the object. -/
theorem members?_member (hpad : pad.all isBlank = true) (fuel : Nat) (acc : List (String × Json))
    (asciiOnly : Bool) (name : String) {v : Json} {value tail rest : List Char}
    (hvalue : value? fuel ([' '] ++ value) = some (v, tail)) :
    (skipBlanks tail = ',' :: rest → members? (fuel + 1) acc
        (pad ++ ((stringText asciiOnly name).toList ++ ':' :: ' ' :: value))
      = members? fuel ((name, v) :: acc) rest) ∧
    (skipBlanks tail = '\x7d' :: rest → members? (fuel + 1) acc
        (pad ++ ((stringText asciiOnly name).toList ++ ':' :: ' ' :: value))
      = some (((name, v) :: acc).reverse, rest)) := by
  obtain ⟨body, hbody, hread⟩ := stringRest?_text asciiOnly name (':' :: ' ' :: value)
  rw [hbody, List.cons_append, members?, skipBlanks_append hpad rfl]
  simp only [hread, Option.bind_eq_bind, Option.bind_some]
  rw [← List.nil_append (':' :: _), skipBlanks_append rfl rfl]
  rw [List.singleton_append] at hvalue
  constructor
  all_goals
    intro htail
    simp only [hvalue, Option.bind_some, htail]

end Values

mutual

/-- The text of a value in front of another text is read as the value. -/
theorem value?_text (style : Style) (v : Json) (hv : ∀ x ∈ v.floats, ReadBack x)
    (hkeyed : v.Keyed) (depth fuel : Nat) {pad rest : List Char} (hpad : pad.all isBlank = true)
    (hrest : Stops rest)
    (hfuel : 2 * (pad ++ ((textAt style depth v).toList ++ rest)).length ≤ fuel) :
    value? fuel (pad ++ ((textAt style depth v).toList ++ rest)) = some (v, rest) := by
  obtain ⟨c, more, htext, -, -⟩ := begins_textAt style depth hv
  -- A text has one character at least, so there is fuel for one step.
  obtain ⟨fuel, rfl⟩ : ∃ k, fuel = k + 1 := by
    refine ⟨fuel - 1, ?_⟩
    simp only [htext, List.length_append, List.length_cons] at hfuel
    omega
  cases v with
  | null => rw [textAt]; exact value?_word hpad fuel rest (by simp)
  | bool b => cases b <;> rw [textAt] <;> exact value?_word hpad fuel rest (by simp)
  | int i => rw [textAt]; exact value?_number hpad fuel hrest (number?_int i)
  | float x => rw [textAt]; exact value?_number hpad fuel hrest (hv x (by simp [floats]))
  | str s => rw [textAt]; exact value?_string hpad fuel style.asciiOnly s rest
  | arr items =>
    rw [textAt] at hfuel ⊢
    cases items with
    | nil =>
      rw [itemTexts, bracketed_nil]
      show value? (fuel + 1) (pad ++ '[' :: ']' :: rest) = _
      rw [value?, skipBlanks_append hpad rfl]
      rfl
    | cons v items =>
      -- Behind the bracket, blanks and the first element; the elements take the rest of the fuel.
      have hblank := lineBreak_isBlank style (depth + 1) "" rfl
      obtain ⟨c, more, hfirst, hc, hne⟩ := begins_textAt style (depth + 1)
        fun x hx => hv x (List.mem_append.2 (.inl hx))
      obtain ⟨more, hbegin⟩ := begins_joined style (depth + 1) hfirst
        (itemTexts style (depth + 1) items)
      have hleft : "[".toList = ['['] := rfl
      have hright : "]".toList = [']'] := rfl
      rw [itemTexts, toList_bracketed] at hfuel ⊢
      simp only [hleft, hright, List.append_assoc, List.cons_append, List.nil_append] at hfuel ⊢
      refine value?_array hpad fuel
        (by rw [hbegin, List.cons_append]; exact skipBlanks_append hblank hc _) hne ?_
      refine items?_texts style (v :: items) (by simp) hv hkeyed (depth + 1) fuel [] rest hblank
        (lineBreak_isBlank style depth "" rfl) ?_
      simp only [itemTexts, List.length_append, List.length_cons] at hfuel ⊢
      omega
  | obj members =>
    rw [textAt] at hfuel ⊢
    cases members with
    | nil =>
      rw [memberTexts, bracketed_nil]
      show value? (fuel + 1) (pad ++ '\x7b' :: '\x7d' :: rest) = _
      rw [value?, skipBlanks_append hpad rfl]
      rfl
    | cons m members =>
      obtain ⟨name, v⟩ := m
      have hblank := lineBreak_isBlank style (depth + 1) "" rfl
      obtain ⟨body, hbody, -⟩ := stringRest?_text style.asciiOnly name []
      have hfirst := toList_member style.asciiOnly name (textAt style (depth + 1) v) []
      rw [List.append_nil, hbody, List.cons_append] at hfirst
      obtain ⟨more, hbegin⟩ := begins_joined style (depth + 1) hfirst
        (memberTexts style (depth + 1) members)
      have hleft : "\x7b".toList = ['\x7b'] := rfl
      have hright : "\x7d".toList = ['\x7d'] := rfl
      rw [memberTexts, toList_bracketed] at hfuel ⊢
      simp only [hleft, hright, List.append_assoc, List.cons_append, List.nil_append] at hfuel ⊢
      -- Names are different, so that nothing is lost when members are put in place.
      have hread := members?_texts style ((name, v) :: members) (by simp) hv hkeyed.2 (depth + 1) fuel [] rest hblank
        (lineBreak_isBlank style depth "" rfl) (by
          simp only [memberTexts, List.length_append, List.length_cons] at hfuel ⊢
          omega)
      rw [memberTexts] at hread
      rw [value?_object hpad fuel
        (by rw [hbegin, List.cons_append]; exact skipBlanks_append hblank rfl _) hread,
        List.reverse_nil, List.nil_append, ofMembers_of_nodup hkeyed.1]

/-- The texts of elements up to the closing bracket are read as the elements. -/
theorem items?_texts (style : Style) (items : List Json) (hne : items ≠ [])
    (hitems : ∀ x ∈ floatsList items, ReadBack x) (hkeyed : KeyedList items)
    (depth fuel : Nat) (acc : List Json) (rest : List Char) {pad close : List Char}
    (hpad : pad.all isBlank = true) (hclose : close.all isBlank = true)
    (hfuel : 2 * (pad ++ (joined style depth (itemTexts style depth items)
      ++ (close ++ ']' :: rest))).length < fuel) :
    items? fuel acc (pad ++ (joined style depth (itemTexts style depth items)
      ++ (close ++ ']' :: rest))) = some (acc.reverse ++ items, rest) := by
  obtain ⟨fuel, rfl⟩ : ∃ k, fuel = k + 1 := ⟨fuel - 1, by omega⟩
  cases items with
  | nil => exact absurd rfl hne
  | cons v items =>
    have hv : ∀ x ∈ v.floats, ReadBack x := fun x hx => hitems x (List.mem_append.2 (.inl hx))
    cases items with
    | nil =>
      have hstops : Stops (close ++ ']' :: rest) :=
        stops_blanks hclose (stops_cons rfl (by decide) rest)
      simp only [itemTexts, joined_singleton] at hfuel ⊢
      rw [items?, value?_text style v hv hkeyed.1 depth fuel hpad hstops (by omega)]
      simp only [Option.bind_eq_bind, Option.bind_some, skipBlanks_append hclose
        (rfl : isBlank ']' = false), List.reverse_cons]
    | cons w items =>
      simp only [itemTexts, joined_cons, List.append_assoc, List.cons_append] at hfuel ⊢
      have hrest := items?_texts style (w :: items) (by simp)
        (fun x hx => hitems x (List.mem_append.2 (.inr hx))) hkeyed.2 depth fuel (v :: acc) rest
        (lineBreak_isBlank style depth " " rfl) hclose (by
          simp only [itemTexts, List.length_append, List.length_cons] at hfuel ⊢
          omega)
      -- the comma ends the first element, and the others follow behind it
      rw [items?, value?_text style v hv hkeyed.1 depth fuel hpad (stops_cons rfl (by decide) _)
        (by omega)]
      simp only [Option.bind_eq_bind, Option.bind_some]
      rw [← List.nil_append (',' :: _), skipBlanks_append rfl rfl]
      simpa [itemTexts] using hrest

/-- The texts of members up to the closing bracket are read as the members. -/
theorem members?_texts (style : Style) (members : List (String × Json)) (hne : members ≠ [])
    (hmembers : ∀ x ∈ floatsMembers members, ReadBack x) (hkeyed : KeyedMembers members)
    (depth fuel : Nat) (acc : List (String × Json)) (rest : List Char) {pad close : List Char}
    (hpad : pad.all isBlank = true) (hclose : close.all isBlank = true)
    (hfuel : 2 * (pad ++ (joined style depth (memberTexts style depth members)
      ++ (close ++ '\x7d' :: rest))).length < fuel) :
    members? fuel acc (pad ++ (joined style depth (memberTexts style depth members)
      ++ (close ++ '\x7d' :: rest))) = some (acc.reverse ++ members, rest) := by
  obtain ⟨fuel, rfl⟩ : ∃ k, fuel = k + 1 := ⟨fuel - 1, by omega⟩
  cases members with
  | nil => exact absurd rfl hne
  | cons m members =>
    obtain ⟨name, v⟩ := m
    have hv : ∀ x ∈ v.floats, ReadBack x := fun x hx => hmembers x (List.mem_append.2 (.inl hx))
    cases members with
    | nil =>
      have hstops : Stops (close ++ '\x7d' :: rest) :=
        stops_blanks hclose (stops_cons rfl (by decide) rest)
      simp only [memberTexts, joined_singleton, toList_member] at hfuel ⊢
      have hvalue := value?_text style v hv hkeyed.1 depth fuel (rfl : [' '].all isBlank = true)
        hstops (by
          simp only [List.length_append, List.length_cons, List.length_nil] at hfuel ⊢
          omega)
      rw [(members?_member hpad fuel acc style.asciiOnly name hvalue).2
        (skipBlanks_append hclose rfl rest), List.reverse_cons]
    | cons w members =>
      obtain ⟨name', w⟩ := w
      simp only [memberTexts, joined_cons, List.append_assoc, toList_member, List.cons_append]
        at hfuel ⊢
      have hread := members?_texts style ((name', w) :: members) (by simp)
        (fun x hx => hmembers x (List.mem_append.2 (.inr hx))) hkeyed.2 depth fuel
        ((name, v) :: acc) rest (lineBreak_isBlank style depth " " rfl) hclose (by
          simp only [memberTexts, List.length_append, List.length_cons] at hfuel ⊢
          omega)
      -- the comma ends the value, and the other members follow behind it
      rw [(members?_member hpad fuel acc style.asciiOnly name (value?_text style v hv hkeyed.1
        depth fuel rfl (stops_cons rfl (by decide) _) (by
          simp only [List.length_append, List.length_cons, List.length_nil] at hfuel ⊢
          omega))).1 (skipBlanks_append (rfl : [].all isBlank = true) rfl _)]
      simpa [memberTexts] using hread

end

/-- The text of a file is read as the document that it holds. -/
theorem parse?_fileText {doc : Json} (hfloats : ∀ x ∈ doc.floats, ReadBack x)
    (hkeyed : doc.Keyed) : parse? doc.fileText = some doc := by
  have htext : doc.fileText.toList = [] ++ ((textAt fileStyle 0 doc).toList ++ ['\n']) := by
    simp [fileText, text]
  unfold parse?
  simp only [htext]
  rw [value?_text fileStyle doc hfloats hkeyed 0 _ rfl (stops_cons rfl (by decide) []) (by omega)]
  rfl

end Json

namespace Value

open Json

mutual

/-- A value is written with different names for the members of each object. -/
theorem toJson_keyed (v : Value) {doc : Json} (h : v.toJson = .ok doc) : doc.Keyed := by
  cases v with
  | items form xs =>
    cases form with
    | set => cases h
    | _ =>
      -- tuples are written as lists are
      obtain ⟨docs, hdocs, rfl⟩ := toJson_list.mp h
      exact toJsonList_keyed xs hdocs
  | dict es =>
    obtain ⟨members, hmembers, rfl⟩ := toJson_dict.mp h
    exact keyed_ofMembers (toJsonMembers_keyed es hmembers)
  | float x => cases x <;> cases h; trivial
  | _ => cases h <;> trivial

/-- In the documents of several values the members of each object have different names. -/
theorem toJsonList_keyed (vs : List Value) {docs : List Json} (h : toJsonList vs = .ok docs) :
    KeyedList docs := by
  cases vs with
  | nil => cases h; trivial
  | cons v rest =>
    obtain ⟨doc, docs', hdoc, hdocs, rfl⟩ := toJsonList_cons.mp h
    exact ⟨toJson_keyed v hdoc, toJsonList_keyed rest hdocs⟩

/-- In the documents under several keys the members of each object have different names. -/
theorem toJsonMembers_keyed (es : List (Value × Value)) {members : List (String × Json)}
    (h : toJsonMembers es = .ok members) : KeyedMembers members := by
  cases es with
  | nil => cases h; trivial
  | cons e rest =>
    obtain ⟨k, v⟩ := e
    obtain ⟨name, doc, members', -, hdoc, hmembers, rfl⟩ := toJsonMembers_cons.mp h
    exact ⟨toJson_keyed v hdoc, toJsonMembers_keyed rest hmembers⟩

end

end Value

end SchemaGraph
