import SchemaGraph.Binary64
import SchemaGraph.Pattern

namespace SchemaGraph

/-!
# Dynamic values

Defaults, literals, annotations and custom lowerings bring values of any kind into a
schema; only some of them can stand in a document.  A `Value` may also point at things
that are still changing: the fragment of a node, or a list of annotations.

* `Value.canonical` — equal for two values exactly when a mapping treats them as one key
* `Value.same`      — equality as the values themselves have it
* `Entries`         — the contents of a mapping, in insertion order
-/

/-- Names a node of a graph, or the gap where a child is missing. -/
inductive NodeId where
  | gap
  | node (index : Nat)
deriving DecidableEq, Repr, Inhabited

/-- Whether a sequence may be extended, may be a key, or has no order. -/
inductive Form where
  | list
  | tuple
  | set
deriving DecidableEq, Repr, Inhabited

/-- Values without contents that no document can hold.  Things and functions carry a mark:
    two of them are equal only if they are one and the same. -/
inductive Foreign where
  /-- A thing about which nothing is known but which one it is. -/
  | object (mark : Nat)
  | bytes (text : String)
  /-- A date, by the text that shows it. -/
  | moment (shown : String)
  | regex (pattern : Pattern)
  /-- The class of a value. -/
  | classObject
  /-- A function that fails. -/
  | raiser (mark : Nat) (kind message : String)
  /-- A function that reads an attribute of its argument. -/
  | reader (mark : Nat) (name : String)
  /-- A function that returns its argument. -/
  | echo (mark : Nat)
deriving DecidableEq, Repr, Inhabited

/-- A value of any kind. -/
inductive Value where
  | null
  /-- The marker of an absent value. -/
  | undefined
  | bool (b : Bool)
  | int (i : Int)
  /-- An integer marked as too big for a number. -/
  | bigint (i : Int)
  | float (x : Binary64)
  /-- A text.  It holds characters only: codes that stand for none, such as halves of pairs, are
      in no value. -/
  | str (s : String)
  | foreign (x : Foreign)
  /-- A function that returns the same value at every call. -/
  | constant (mark : Nat) (result : Value)
  | items (form : Form) (xs : List Value)
  | dict (entries : List (Value × Value))
  /-- A container whose only element is itself: a mapping if `keyed`, else a list. -/
  | loop (keyed : Bool)
  /-- The fragment of a node, whatever it holds by then. -/
  | fragment (node : NodeId)
  /-- The fragment of a node in the survey with this number, whatever it holds by then. -/
  | borrowed (survey : Nat) (node : NodeId)
  /-- The list of annotations with this number, whatever it holds by then. -/
  | shared (number : Nat)
deriving Repr, Inhabited

/-- The contents of a mapping in insertion order. -/
abbrev Entries := List (Value × Value)

instance : Coe String Value := ⟨Value.str⟩

namespace Value

/-- A list of values. -/
abbrev list (xs : List Value) : Value := .items .list xs

/-! ### Structural equality -/

mutual

/-- Whether two values are built alike. -/
def beq : Value → Value → Bool
  | .null, .null => true
  | .undefined, .undefined => true
  | .bool a, .bool b => a = b
  | .int a, .int b => a = b
  | .bigint a, .bigint b => a = b
  | .float a, .float b => a = b
  | .str a, .str b => a = b
  | .foreign a, .foreign b => a = b
  | .constant m a, .constant n b => m = n && beq a b
  | .items f xs, .items g ys => f = g && beqList xs ys
  | .dict es, .dict fs => beqEntries es fs
  | .loop a, .loop b => a = b
  | .fragment a, .fragment b => a = b
  | .borrowed s a, .borrowed t b => s = t && a = b
  | .shared a, .shared b => a = b
  | _, _ => false

/-- Whether two lists of values are built alike. -/
def beqList : List Value → List Value → Bool
  | [], [] => true
  | a :: as, b :: bs => beq a b && beqList as bs
  | _, _ => false

/-- Whether two mappings are built alike. -/
def beqEntries : List (Value × Value) → List (Value × Value) → Bool
  | [], [] => true
  | (k, a) :: as, (l, b) :: bs => beq k l && beq a b && beqEntries as bs
  | _, _ => false

end

mutual

/-- A value is built like itself. -/
theorem beq_self : ∀ a : Value, beq a a = true
  | .null | .undefined | .bool _ | .int _ | .bigint _ | .float _ | .str _ | .foreign _
  | .loop _ | .fragment _ | .borrowed .. | .shared _ => by simp [beq]
  | .constant _ a => by simpa [beq] using beq_self a
  | .items _ xs => by simpa [beq] using beqList_self xs
  | .dict es => by simpa [beq] using beqEntries_self es

/-- A list of values is built like itself. -/
theorem beqList_self : ∀ xs : List Value, beqList xs xs = true
  | [] => rfl
  | a :: as => by simp [beqList, beq_self a, beqList_self as]

/-- A mapping is built like itself. -/
theorem beqEntries_self : ∀ es : List (Value × Value), beqEntries es es = true
  | [] => rfl
  | (k, a) :: as => by simp [beqEntries, beq_self k, beq_self a, beqEntries_self as]

end

mutual

/-- Values that are built alike are equal. -/
theorem eq_of_beq : ∀ {a b : Value}, beq a b = true → a = b
  | .null, b, h => by cases b <;> simp_all [beq]
  | .undefined, b, h => by cases b <;> simp_all [beq]
  | .bool _, b, h => by cases b <;> simp_all [beq]
  | .int _, b, h => by cases b <;> simp_all [beq]
  | .bigint _, b, h => by cases b <;> simp_all [beq]
  | .float _, b, h => by cases b <;> simp_all [beq]
  | .str _, b, h => by cases b <;> simp_all [beq]
  | .foreign _, b, h => by cases b <;> simp_all [beq]
  | .loop _, b, h => by cases b <;> simp_all [beq]
  | .fragment _, b, h => by cases b <;> simp_all [beq]
  | .borrowed .., b, h => by cases b <;> simp_all [beq]
  | .shared _, b, h => by cases b <;> simp_all [beq]
  | .constant _ a, b, h => by
    cases b <;> simp [beq] at h
    rw [h.1, eq_of_beq h.2]
  | .items _ xs, b, h => by
    cases b <;> simp [beq] at h
    rw [h.1, eq_of_beqList h.2]
  | .dict es, b, h => by
    cases b <;> simp [beq] at h
    rw [eq_of_beqEntries h]

/-- Lists of values that are built alike are equal. -/
theorem eq_of_beqList : ∀ {as bs : List Value}, beqList as bs = true → as = bs
  | [], bs, h => by cases bs <;> simp_all [beqList]
  | a :: as, bs, h => by
    cases bs <;> simp [beqList] at h
    rw [eq_of_beq h.1, eq_of_beqList h.2]

/-- Mappings that are built alike are equal. -/
theorem eq_of_beqEntries :
    ∀ {as bs : List (Value × Value)}, beqEntries as bs = true → as = bs
  | [], bs, h => by cases bs <;> simp_all [beqEntries]
  | (k, a) :: as, bs, h => by
    cases bs with
    | nil => simp [beqEntries] at h
    | cons e bs =>
      obtain ⟨l, b⟩ := e
      simp [beqEntries] at h
      rw [eq_of_beq h.1.1, eq_of_beq h.1.2, eq_of_beqEntries h.2]

end

instance : DecidableEq Value := fun a b =>
  if h : beq a b = true then isTrue (eq_of_beq h)
  else isFalse fun e => h (e ▸ beq_self a)

/-! ### Kinds of values -/

/-- The name of a value's type, as diagnostics show it. -/
def typeName : Value → String
  | .null => "NoneType"
  | .undefined => "_Undefined"
  | .bool _ => "bool"
  | .int _ => "int"
  | .bigint _ => "BigInt"
  | .float _ => "float"
  | .str _ => "str"
  | .foreign (.object _) => "object"
  | .foreign (.bytes _) => "bytes"
  | .foreign (.moment _) => "date"
  | .foreign (.regex _) => "Pattern"
  | .foreign .classObject => "type"
  | .foreign _ => "function"
  | .constant .. => "function"
  | .items .list _ => "list"
  | .items .tuple _ => "tuple"
  | .items .set _ => "set"
  | .dict _ => "dict"
  | .loop true => "dict"
  | .loop false => "list"
  | .fragment _ => "dict"
  | .borrowed .. => "dict"
  | .shared _ => "list"

/-- The number that a value is.  A truth value is not one. -/
def number? : Value → Option Number
  | .int i => some (.int i)
  | .bigint i => some (.int i)
  | .float x => some (.float x)
  | _ => none

/-- Whether a value counts as true where a truth value is asked for: empty, zero and
    absent values do not. -/
def isTruthy : Value → Bool
  | .null => false
  | .undefined => false
  | .bool b => b
  | .int i => i ≠ 0
  | .bigint i => i ≠ 0
  | .float (.finite _ m _) => m ≠ 0
  | .float _ => true
  | .str s => s ≠ ""
  | .foreign (.bytes s) => s ≠ ""
  | .foreign _ => true
  | .constant .. => true
  | .items _ xs => !xs.isEmpty
  | .dict es => !es.isEmpty
  | .loop _ => true
  | .fragment _ => true
  | .borrowed .. => true
  | .shared _ => true

/-- Whether a value can be called. -/
def isFunction : Value → Bool
  | .constant .. => true
  | .foreign .classObject => true
  | .foreign (.raiser ..) => true
  | .foreign (.reader ..) => true
  | .foreign (.echo _) => true
  | _ => false

/-! ### Equality of values -/

mutual

/-- A value in the form that stands for all keys equal to it: `true`, `1` and `1.0` are
    one key. -/
def canonical : Value → Value
  | .bool b => .int (if b then 1 else 0)
  | .bigint i => .int i
  | .float x =>
    match Number.int? (.float x) with
    | some i => .int i
    | none => .float x
  | .items .tuple xs => .items .tuple (canonicalList xs)
  | v => v

/-- The canonical forms of several values. -/
def canonicalList : List Value → List Value
  | [] => []
  | v :: vs => canonical v :: canonicalList vs

end

/-- A text stands for itself. -/
@[simp] theorem canonical_str (s : String) : canonical (.str s) = .str s := rfl

mutual

/-- Whether a value can be the key of a mapping: it must not be able to change. -/
def isHashable : Value → Bool
  | .items .list _ => false
  | .items .set _ => false
  | .items .tuple xs => allHashable xs
  | .dict _ => false
  | .loop _ => false
  | .fragment _ => false
  | .borrowed .. => false
  | .shared _ => false
  | _ => true

/-- Whether all values can be keys. -/
def allHashable : List Value → Bool
  | [] => true
  | v :: vs => isHashable v && allHashable vs

end

/-- The number that a value is equal to; truth values are equal to zero and one. -/
def numeric? : Value → Option Number
  | .bool b => some (.int (if b then 1 else 0))
  | v => v.number?

mutual

/-- Whether two values are equal.  Numbers and truth values compare by their exact value,
    sequences element by element, mappings and sets without regard to order; things,
    functions and undefined numbers are equal to themselves alone. -/
def same : Value → Value → Bool
  | .items .set xs, .items .set ys => xs.length = ys.length && subset xs ys
  | .items f xs, .items g ys => f = g && sameList xs ys
  | .dict es, .dict fs => es.length = fs.length && sameEntries es fs
  | .loop a, .loop b => a = b
  | .float (.nan m), .float (.nan n) => m = n
  | a, b =>
    match a.numeric?, b.numeric? with
    | some x, some y => x.eq y
    | none, none => a = b
    | _, _ => false

/-- Whether two sequences are equal element by element. -/
def sameList : List Value → List Value → Bool
  | [], [] => true
  | a :: as, b :: bs => same a b && sameList as bs
  | _, _ => false

/-- Whether every element has an equal one. -/
def subset : List Value → List Value → Bool
  | [], _ => true
  | a :: as, bs => bs.any (fun b => same a b) && subset as bs

/-- Whether every key has an equal value in the other mapping. -/
def sameEntries : List (Value × Value) → List (Value × Value) → Bool
  | [], _ => true
  | (k, a) :: as, bs =>
    (match bs.find? fun e => e.1.canonical = k.canonical with
      | some (_, b) => same a b
      | none => false) && sameEntries as bs

end

/-- The set of several values, each once; nothing if one of them can change. -/
def setOf? (xs : List Value) : Option Value :=
  if allHashable xs then
    some (.items .set (xs.foldl
      (fun seen v => if seen.any fun s => s.canonical = v.canonical then seen else seen ++ [v])
      []))
  else none

end Value

/-! ### Mappings -/

namespace Entries

/-- The value of a key. -/
def get? (key : Value) : Entries → Option Value
  | [] => none
  | (k, v) :: rest => if k.canonical = key.canonical then some v else get? key rest

/-- Whether a key is there. -/
def has (key : Value) (e : Entries) : Bool := (get? key e).isSome

/-- A key takes a new value where it stands; a new key goes to the end. -/
def set (key value : Value) : Entries → Entries
  | [] => [(key, value)]
  | (k, v) :: rest =>
    if k.canonical = key.canonical then (k, value) :: rest else (k, v) :: set key value rest

/-- All but one key. -/
def erase (key : Value) : Entries → Entries
  | [] => []
  | (k, v) :: rest =>
    if k.canonical = key.canonical then rest else (k, v) :: erase key rest

/-- Every entry of the second mapping set in the first, in order. -/
def update (e news : Entries) : Entries := news.foldl (fun acc n => set n.1 n.2 acc) e

/-- The keys in order. -/
def keys (e : Entries) : List Value := e.map (·.1)

/-- A mapping with repeated keys resolved: the place of the first, the value of the
    last. -/
def ofList (entries : List (Value × Value)) : Entries := update [] entries

/-- The mapping of entries, if all keys can be keys. -/
def ofList? (entries : List (Value × Value)) : Option Entries :=
  if entries.all fun e => e.1.isHashable then some (ofList entries) else none

/-- Nothing is found in the empty mapping. -/
@[simp] theorem get?_nil (key : Value) : get? key [] = none := rfl

/-- A key that was set is found. -/
@[simp] theorem get?_set_self (key value : Value) (e : Entries) :
    get? key (set key value e) = some value := by
  induction e with
  | nil => simp [set, get?]
  | cons p rest ih =>
    obtain ⟨k, v⟩ := p
    by_cases h : k.canonical = key.canonical <;> simp [set, get?, h, ih]

/-- A key that was set makes no difference to others. -/
theorem get?_set_of_ne {key other : Value} (h : other.canonical ≠ key.canonical)
    (value : Value) (e : Entries) : get? other (set key value e) = get? other e := by
  induction e with
  | nil => simp [set, get?, h.symm]
  | cons p rest ih =>
    obtain ⟨k, v⟩ := p
    by_cases hk : k.canonical = key.canonical
    · simp [set, get?, hk, h.symm]
    · by_cases ho : k.canonical = other.canonical <;> simp [set, get?, hk, ho, ih]
      simp [h, get?, ho]

/-- Nothing is merged from the empty mapping. -/
@[simp] theorem update_nil (e : Entries) : update e [] = e := rfl

/-- Entries are merged one after the other. -/
theorem update_cons (e : Entries) (p : Value × Value) (news : Entries) :
    update e (p :: news) = update (set p.1 p.2 e) news := rfl

end Entries

end SchemaGraph
