import SchemaGraph.Binary64

namespace SchemaGraph

/-!
# JSON documents

Plain data: what a finished schema document is made of.  Objects keep the order of
their members.

* `Json.member?` — the value of an object's member
* `Json.insert`  — a member replaced in place, or added at the end
-/

/-- A JSON value.  Numbers keep the difference between `1` and `1.0`. -/
inductive Json where
  | null
  | bool (b : Bool)
  | int (i : Int)
  | float (x : Binary64)
  | str (s : String)
  | arr (items : List Json)
  | obj (members : List (String × Json))
deriving Repr, Inhabited

namespace Json

/-! ### Equality -/

mutual

/-- Whether two JSON values are built alike. -/
def beq : Json → Json → Bool
  | .null, .null => true
  | .bool a, .bool b => a = b
  | .int a, .int b => a = b
  | .float a, .float b => a = b
  | .str a, .str b => a = b
  | .arr xs, .arr ys => beqList xs ys
  | .obj ms, .obj ns => beqMembers ms ns
  | _, _ => false

/-- Whether two lists of JSON values are built alike. -/
def beqList : List Json → List Json → Bool
  | [], [] => true
  | a :: as, b :: bs => beq a b && beqList as bs
  | _, _ => false

/-- Whether the members of two objects are built alike. -/
def beqMembers : List (String × Json) → List (String × Json) → Bool
  | [], [] => true
  | (k, a) :: as, (l, b) :: bs => k = l && beq a b && beqMembers as bs
  | _, _ => false

end

mutual

/-- A JSON value is built like itself. -/
theorem beq_self : ∀ a : Json, beq a a = true
  | .null | .bool _ | .int _ | .float _ | .str _ => by simp [beq]
  | .arr xs => by simpa [beq] using beqList_self xs
  | .obj ms => by simpa [beq] using beqMembers_self ms

/-- A list of JSON values is built like itself. -/
theorem beqList_self : ∀ xs : List Json, beqList xs xs = true
  | [] => rfl
  | a :: as => by simp [beqList, beq_self a, beqList_self as]

/-- The members of an object are built like themselves. -/
theorem beqMembers_self : ∀ ms : List (String × Json), beqMembers ms ms = true
  | [] => rfl
  | (k, a) :: as => by simp [beqMembers, beq_self a, beqMembers_self as]

end

mutual

/-- JSON values that are built alike are equal. -/
theorem eq_of_beq : ∀ {a b : Json}, beq a b = true → a = b
  | .null, b, h => by cases b <;> simp_all [beq]
  | .bool _, b, h => by cases b <;> simp_all [beq]
  | .int _, b, h => by cases b <;> simp_all [beq]
  | .float _, b, h => by cases b <;> simp_all [beq]
  | .str _, b, h => by cases b <;> simp_all [beq]
  | .arr xs, b, h => by
    cases b <;> simp [beq] at h
    rw [eq_of_beqList h]
  | .obj ms, b, h => by
    cases b <;> simp [beq] at h
    rw [eq_of_beqMembers h]

/-- Lists of JSON values that are built alike are equal. -/
theorem eq_of_beqList : ∀ {as bs : List Json}, beqList as bs = true → as = bs
  | [], bs, h => by cases bs <;> simp_all [beqList]
  | a :: as, bs, h => by
    cases bs <;> simp [beqList] at h
    rw [eq_of_beq h.1, eq_of_beqList h.2]

/-- Members that are built alike are equal. -/
theorem eq_of_beqMembers :
    ∀ {as bs : List (String × Json)}, beqMembers as bs = true → as = bs
  | [], bs, h => by cases bs <;> simp_all [beqMembers]
  | (k, a) :: as, bs, h => by
    cases bs with
    | nil => simp [beqMembers] at h
    | cons m bs =>
      obtain ⟨l, b⟩ := m
      simp [beqMembers] at h
      rw [h.1.1, eq_of_beq h.1.2, eq_of_beqMembers h.2]

end

instance : DecidableEq Json := fun a b =>
  if h : beq a b = true then isTrue (eq_of_beq h)
  else isFalse fun e => h (e ▸ beq_self a)

/-! ### Members -/

/-- The value of the first member of that name. -/
def lookup? (name : String) : List (String × Json) → Option Json
  | [] => none
  | (key, value) :: rest => if key = name then some value else lookup? name rest

/-- The member takes the new value where it stands; a new member goes to the end. -/
def insert (name : String) (value : Json) : List (String × Json) → List (String × Json)
  | [] => [(name, value)]
  | (key, old) :: rest =>
    if key = name then (key, value) :: rest else (key, old) :: insert name value rest

/-- Members in order of appearance, each once, with the last of its values. -/
def ofMembers (members : List (String × Json)) : List (String × Json) :=
  members.foldl (fun acc m => insert m.1 m.2 acc) []

/-- The value of a member, if the value is an object that has it. -/
def member? (name : String) : Json → Option Json
  | .obj members => lookup? name members
  | _ => none

/-- A member that was put in is found. -/
@[simp] theorem lookup?_insert_self (name : String) (value : Json)
    (members : List (String × Json)) :
    lookup? name (insert name value members) = some value := by
  induction members with
  | nil => simp [insert, lookup?]
  | cons m rest ih =>
    obtain ⟨key, old⟩ := m
    by_cases h : key = name <;> simp [insert, lookup?, h, ih]

/-- A member that was put in makes no difference to others. -/
theorem lookup?_insert_of_ne {name other : String} (h : other ≠ name) (value : Json)
    (members : List (String × Json)) :
    lookup? other (insert name value members) = lookup? other members := by
  induction members with
  | nil => simp [insert, lookup?, h.symm]
  | cons m rest ih =>
    obtain ⟨key, old⟩ := m
    by_cases hk : key = name
    · subst hk; simp [insert, lookup?, h.symm]
    · by_cases ho : key = other <;> simp [insert, lookup?, hk, ho, ih, h]

end Json

end SchemaGraph
