import SchemaGraph.Failure
import SchemaGraph.Json

namespace SchemaGraph

/-!
# Values written as JSON

Any value can be written as JSON.  Plain data stand for themselves.  A value of another
kind is an object whose member `$` names the kind, with the contents beside it: so
`{"$": "tuple", "v": [1, 2]}` is a tuple.  Values that are equal to themselves alone are
told apart by the marks that they get before they are read.

* `Json.marked`    — JSON with a mark for each value that needs one
* `Value.ofTagged` — the value that is written
* `Value.tagged`   — a value as it is written
-/

/-! ### Marks -/

/-- The member that names the kind of a value. -/
def tagKey : String := "$"

/-- The member that holds the mark of a value. -/
def markKey : String := "#"

/-- Whether members write a value that is equal to itself alone. -/
def needsMark (members : List (String × Json)) : Bool :=
  match Json.lookup? tagKey members with
  | some (.str tag) => ["nan", "object", "call"].contains tag
  | _ => false

mutual

/-- JSON in which every value that needs a mark has one that no other has, from the given
    number on; and the next number. -/
def Json.marked (next : Nat) : Json → Json × Nat
  | .arr items =>
    let (items, next) := markedItems next items
    (.arr items, next)
  | .obj members =>
    let (members, next) := markedMembers next members
    if needsMark members then (.obj (members ++ [(markKey, .int next)]), next + 1)
    else (.obj members, next)
  | j => (j, next)

/-- Marks in the elements of an array. -/
def Json.markedItems (next : Nat) : List Json → List Json × Nat
  | [] => ([], next)
  | item :: rest =>
    let (item, next) := item.marked next
    let (rest, next) := markedItems next rest
    (item :: rest, next)

/-- Marks in the members of an object. -/
def Json.markedMembers (next : Nat) : List (String × Json) → List (String × Json) × Nat
  | [] => ([], next)
  | (name, value) :: rest =>
    let (value, next) := value.marked next
    let (rest, next) := markedMembers next rest
    ((name, value) :: rest, next)

end

namespace Value

/-! ### Reading -/

/-- The contents of a value of some kind, by their names. -/
abbrev Contents := List (String × Value)

/-- A part of the contents; one that is absent is `null`. -/
def Contents.part (c : Contents) (name : String) : Value :=
  ((c.find? fun e => e.1 = name).map (·.2)).getD .null

/-- The text of a value that is one. -/
def textOr (default : String) : Value → String
  | .str s => s
  | _ => default

/-- The elements of a value that is a list. -/
def listed : Value → List Value
  | .items .list xs => xs
  | _ => []

/-- The first two elements of a value that is a list. -/
def firstTwo (v : Value) : Value × Value := (v.listed[0]?.getD .null, v.listed[1]?.getD .null)

/-- The mark among the contents of a value. -/
def Contents.mark (c : Contents) : Nat :=
  match c.part markKey with
  | .int i => i.toNat
  | _ => 0

/-- A function: it raises, reads an attribute, returns its argument, or returns the same at
    every call. -/
def function (c : Contents) : Value :=
  let has := fun (name : String) => c.any fun e => e.1 = name
  if has "raise" then
    let (kind, message) := (c.part "raise").firstTwo
    .foreign (.raiser c.mark (kind.textOr "") (message.textOr ""))
  else if has "attr" then .foreign (.reader c.mark ((c.part "attr").textOr ""))
  else if has "ctx" then .foreign (.echo c.mark)
  else .constant c.mark (c.part "ret")

/-- A value that can be made, or the failure of making it. -/
def orMisuse (v : Option Value) : Except Failure Value := (v.map .ok).getD (.error .misuse)

/-- The value of a kind with the given contents.  Contents of no kind are a mapping. -/
def ofContents (c : Contents) : Except Failure Value :=
  let mapping : Value := .dict (c.map fun (k, v) => (.str k, v))
  let text := (c.part "v").textOr ""
  let elements := (c.part "v").listed
  match c.part tagKey with
  | .str "undefined" => .ok .undefined
  | .str "bigint" => .ok (.bigint (text.toInt?.getD 0))
  | .str "nan" => .ok (.float (.nan c.mark))
  | .str "inf" => .ok (.float (.infinite false))
  | .str "-inf" => .ok (.float (.infinite true))
  | .str "object" => .ok (.foreign (.object c.mark))
  | .str "regex" => .ok (.foreign (.regex (.ofSource text "")))
  | .str "bytes" => .ok (.foreign (.bytes text))
  | .str "tuple" => .ok (.items .tuple elements)
  | .str "set" => orMisuse (setOf? elements)
  | .str "dict" => orMisuse ((Entries.ofList? (elements.map firstTwo)).map .dict)
  | .str "cyclic" => .ok (.loop true)
  | .str "cyclic_list" => .ok (.loop false)
  | .str "call" => .ok (function c)
  | _ => .ok mapping

mutual

/-- The value that is written.  A set of things that can change, and a mapping with such a
    key, cannot be made. -/
def ofTagged : Json → Except Failure Value
  | .null => .ok .null
  | .bool b => .ok (.bool b)
  | .int i => .ok (.int i)
  | .float x => .ok (.float x)
  | .str s => .ok (.str s)
  | .arr elements => do .ok (.list (← ofTaggedItems elements))
  | .obj members => do ofContents (← ofTaggedMembers members)

/-- The values that are written in an array. -/
def ofTaggedItems : List Json → Except Failure (List Value)
  | [] => .ok []
  | item :: rest => do
    let v ← ofTagged item
    let vs ← ofTaggedItems rest
    .ok (v :: vs)

/-- The values that are written in an object. -/
def ofTaggedMembers : List (String × Json) → Except Failure Contents
  | [] => .ok []
  | (name, value) :: rest => do
    let v ← ofTagged value
    let vs ← ofTaggedMembers rest
    .ok ((name, v) :: vs)

end

/-- The entries of a value that is a mapping. -/
def entriesOf : Value → Entries
  | .dict es => es
  | .loop true => [(.str "self", .loop true)]
  | _ => []

/-! ### Writing -/

/-- A value of some kind. -/
def tag (kind : String) (contents : List (String × Json)) : Json :=
  .obj ((tagKey, .str kind) :: contents)

/-- Whether all keys of a mapping are texts. -/
def keysAreTexts (es : Entries) : Bool :=
  es.all fun e => match e.1 with
    | .str _ => true
    | _ => false

/-- A text as JSON, or `null` where there is none. -/
def textJson : Option String → Json
  | some s => .str s
  | none => .null

mutual

/-- A value as it is written.  A pointer is written by the number of what it points at;
    one without a number is met below the very thing it points at. -/
def tagged (number : NodeId → Option Nat) : Value → Json
  | .null => .null
  | .undefined => tag "undefined" []
  | .bool b => .bool b
  | .int i => .int i
  | .bigint i => tag "bigint" [("v", .str (toString i))]
  | .float (.nan _) => tag "nan" []
  | .float (.infinite false) => tag "inf" []
  | .float (.infinite true) => tag "-inf" []
  | .float x => .float x
  | .str s => .str s
  | .foreign (.object _) => tag "object" []
  | .foreign (.bytes s) => tag "bytes" [("v", .str s)]
  | .foreign (.regex p) => tag "regex" [("v", .str p.source)]
  | .foreign _ => tag "call" []
  | .constant .. => tag "call" []
  | .items .list xs => .arr (taggedItems number xs)
  | .items .tuple xs => tag "tuple" [("v", .arr (taggedItems number xs))]
  | .items .set _ => tag "set" []
  | .dict es =>
    if keysAreTexts es then .obj (taggedMembers number es)
    else tag "dict" [("v", .arr (taggedPairs number es))]
  | .loop true => .obj [("self", tag "cycle" [])]
  | .loop false => .arr [tag "cycle" []]
  | .fragment n => reference number n
  | .borrowed _ n => reference number n
  | .shared _ => tag "cycle" []
where
  /-- A pointer to a fragment. -/
  reference (number : NodeId → Option Nat) (n : NodeId) : Json :=
    match number n with
    | some i => .obj [("@", .int i)]
    | none => tag "cycle" []

/-- Values as they are written in an array. -/
def taggedItems (number : NodeId → Option Nat) : List Value → List Json
  | [] => []
  | v :: rest => tagged number v :: taggedItems number rest

/-- Entries as they are written in an object. -/
def taggedMembers (number : NodeId → Option Nat) :
    List (Value × Value) → List (String × Json)
  | [] => []
  | (k, v) :: rest => (k.textOr "", tagged number v) :: taggedMembers number rest

/-- Entries as they are written in an array of pairs. -/
def taggedPairs (number : NodeId → Option Nat) : List (Value × Value) → List Json
  | [] => []
  | (k, v) :: rest =>
    .arr [tagged number k, tagged number v] :: taggedPairs number rest

end

/-- A value without pointers as it is written. -/
def written (v : Value) : Json := v.tagged fun _ => none

end Value

end SchemaGraph
