import SchemaGraph.Failure
import SchemaGraph.Json

namespace SchemaGraph

/-!
# Values as data

A value is data when it can be written as JSON.  Sequences become arrays, mappings
objects; a key that is a number, a truth value or `null` becomes a text.  Values that point
at fragments or at lists of annotations are settled first: each pointer gives way to what
it points at.  Integers are written at any length; `toJsonWithin` writes as an interpreter does
that refuses long ones, and differs in nothing else.

* `Value.toJson` — a value as a JSON document, or why it is none
* `Value.toJsonWithin` — the same, without integers that have too many digits
* `View.settle`  — a value with what it points at in place of pointers
-/

/-! ### Pointers -/

/-- What a pointer points at. -/
inductive Place where
  | fragment (survey : Nat) (node : NodeId)
  | list (number : Nat)
deriving DecidableEq, Repr

/-- A pointer to a place. -/
def Place.pointer : Place → Value
  | .fragment survey n => .borrowed survey n
  | .list k => .shared k

/-- The fragments and lists of annotations as they are at some moment. -/
structure View where
  /-- The number of the survey whose fragments are meant where none is named. -/
  survey : Nat := 0
  fragment : Nat → NodeId → Entries := fun _ _ => []
  list : Nat → List Value := fun _ => []
  /-- How many places there are. -/
  size : Nat := 0

namespace Value

mutual

/-- A value of a survey with every pointer replaced. -/
def expand (enter : Place → Value) (survey : Nat) : Value → Value
  | .fragment n => enter (.fragment survey n)
  | .borrowed other n => enter (.fragment other n)
  | .shared k => enter (.list k)
  | .items form xs => .items form (expandList enter survey xs)
  | .dict es => .dict (expandEntries enter survey es)
  | v => v

/-- Values of a survey with every pointer replaced. -/
def expandList (enter : Place → Value) (survey : Nat) : List Value → List Value
  | [] => []
  | v :: rest => expand enter survey v :: expandList enter survey rest

/-- Entries with every pointer in a value replaced; keys hold none. -/
def expandEntries (enter : Place → Value) (survey : Nat) :
    List (Value × Value) → List (Value × Value)
  | [] => []
  | (k, v) :: rest => (k, expand enter survey v) :: expandEntries enter survey rest

end

end Value

namespace View

/-- What is found at a place, with every pointer replaced. -/
def content (view : View) (enter : Place → Value) : Place → Value
  | .fragment survey n => .dict (Value.expandEntries enter survey (view.fragment survey n))
  | .list k => .list (Value.expandList enter view.survey (view.list k))

/-- What is found at a place, below the places of the path.  A place that is met below
    itself, and one that is to be kept, is not entered: its pointer stays. -/
def enter (view : View) (kept : Place → Bool) : Nat → List Place → Place → Value
  | 0, _, place => place.pointer
  | depth + 1, path, place =>
    if place ∈ path || kept place then place.pointer
    else view.content (view.enter kept depth (place :: path)) place

/-- A value with what its pointers point at; only places that contain themselves and those
    to be kept are left as pointers. -/
def settleExcept (view : View) (kept : Place → Bool) (v : Value) : Value :=
  v.expand (view.enter kept (view.size + 1) []) view.survey

/-- A value without pointers; only what contains itself is left as one. -/
def settle (view : View) (v : Value) : Value := view.settleExcept (fun _ => false) v

end View

/-! ### Data -/

namespace Value

/-- A key as the name of a member. -/
def keyName : Value → Except NotData String
  | .str s => .ok s
  | .bool b => .ok (if b then "true" else "false")
  | .null => .ok "null"
  | .int i => .ok (toString i)
  | .bigint i => .ok (toString i)
  | .float (.finite s m e) => .ok (Binary64.finite s m e).text
  | .float _ => .error .notFinite
  | v => .error (.badKey v.typeName)

mutual

/-- A value as a JSON document.  Of equal member names the last value counts, at the place
    of the first. -/
def toJson : Value → Except NotData Json
  | .null => .ok .null
  | .bool b => .ok (.bool b)
  | .int i => .ok (.int i)
  | .bigint i => .ok (.int i)
  | .float (.finite s m e) => .ok (.float (.finite s m e))
  | .float _ => .error .notFinite
  | .str s => .ok (.str s)
  | .items .set _ => .error (.foreign "set")
  | .items _ xs => do
    let elements ← toJsonList xs
    .ok (.arr elements)
  | .dict es => do
    let members ← toJsonMembers es
    .ok (.obj (Json.ofMembers members))
  | .loop _ => .error .circular
  | .fragment _ => .error .circular
  | .borrowed .. => .error .circular
  | .shared _ => .error .circular
  | v => .error (.foreign v.typeName)

/-- The elements of an array. -/
def toJsonList : List Value → Except NotData (List Json)
  | [] => .ok []
  | v :: rest => do
    let element ← toJson v
    let elements ← toJsonList rest
    .ok (element :: elements)

/-- The members of an object; a key is looked at before its value. -/
def toJsonMembers : List (Value × Value) → Except NotData (List (String × Json))
  | [] => .ok []
  | (k, v) :: rest => do
    let name ← keyName k
    let value ← toJson v
    let members ← toJsonMembers rest
    .ok ((name, value) :: members)

end

/-- An integer with no more decimal digits than a limit. -/
def withinDigits (limit : Nat) (i : Int) : Except NotData Int :=
  if (Nat.toDigits 10 i.natAbs).length ≤ limit then .ok i else .error (.tooManyDigits limit)

/-- A key as the name of a member, where integers have a limit of digits. -/
def keyNameWithin (limit : Nat) : Value → Except NotData String
  | .int i => do .ok (toString (← withinDigits limit i))
  | .bigint i => do .ok (toString (← withinDigits limit i))
  | k => keyName k

mutual

/-- A value as a JSON document, where integers have a limit of digits. -/
def toJsonWithin (limit : Nat) : Value → Except NotData Json
  | .int i => do .ok (.int (← withinDigits limit i))
  | .bigint i => do .ok (.int (← withinDigits limit i))
  | .items .set _ => .error (.foreign "set")
  | .items _ xs => do
    let elements ← toJsonListWithin limit xs
    .ok (.arr elements)
  | .dict es => do
    let members ← toJsonMembersWithin limit es
    .ok (.obj (Json.ofMembers members))
  | v => toJson v

/-- The elements of an array, where integers have a limit of digits. -/
def toJsonListWithin (limit : Nat) : List Value → Except NotData (List Json)
  | [] => .ok []
  | v :: rest => do
    let element ← toJsonWithin limit v
    let elements ← toJsonListWithin limit rest
    .ok (element :: elements)

/-- The members of an object, where integers have a limit of digits. -/
def toJsonMembersWithin (limit : Nat) :
    List (Value × Value) → Except NotData (List (String × Json))
  | [] => .ok []
  | (k, v) :: rest => do
    let name ← keyNameWithin limit k
    let value ← toJsonWithin limit v
    let members ← toJsonMembersWithin limit rest
    .ok ((name, value) :: members)

end

mutual

/-- A JSON document as a value. -/
def ofJson : Json → Value
  | .null => .null
  | .bool b => .bool b
  | .int i => .int i
  | .float x => .float x
  | .str s => .str s
  | .arr elements => .items .list (ofJsonList elements)
  | .obj members => .dict (ofJsonMembers members)

/-- Several documents as values. -/
def ofJsonList : List Json → List Value
  | [] => []
  | v :: rest => ofJson v :: ofJsonList rest

/-- Members as entries. -/
def ofJsonMembers : List (String × Json) → List (Value × Value)
  | [] => []
  | (k, v) :: rest => (.str k, ofJson v) :: ofJsonMembers rest

end

/-- A value as a JSON document; the failure says why it is none. -/
def document (v : Value) : Except Failure Json := v.toJson.mapError .notData

end Value

end SchemaGraph
