import SchemaGraph.Value.Call

namespace SchemaGraph

/-!
# Named members

An enumeration may be declared by names and their values.  Functions are no members, nor is
a name between low lines: of these, the names between two pairs of low lines mean nothing
here, and few of the others are allowed.  Two of them steer the declaration: `_ignore_`
lists names that are no members, and `_order_` repeats the names of the members.

* `Enumeration.distinct` — members without those whose value an earlier member has
* `Enumeration.declared` — the members of a declaration, or what is wrong with it
-/

namespace Enumeration

/-- Members without the ones whose value an earlier member has. -/
def distinct (members : List (String × Value)) : List (String × Value) :=
  members.foldl
    (fun seen m => if seen.any fun s => s.2.same m.2 then seen else seen ++ [m]) []

/-! ### Names -/

/-- Whether a name lies between single low lines. -/
def isReserved (name : String) : Bool :=
  match name.toList, name.toList.reverse with
  | '_' :: a :: _ :: _, '_' :: b :: _ => a ≠ '_' && b ≠ '_'
  | _, _ => false

/-- Whether a name lies between pairs of low lines. -/
def isSpecial (name : String) : Bool :=
  match name.toList, name.toList.reverse with
  | '_' :: '_' :: a :: _ :: _ :: _, '_' :: '_' :: b :: _ => a ≠ '_' && b ≠ '_'
  | _, _ => false

/-- The key that lists names that are no members. -/
def ignoreKey : String := "_ignore_"

/-- The key that repeats the names of the members. -/
def orderKey : String := "_order_"

/-- The names between single low lines that are allowed. -/
def allowed : List String :=
  [orderKey, "_generate_next_value_", "_numeric_repr_", "_missing_", ignoreKey, "_iter_member_",
    "_iter_member_by_value_", "_iter_member_by_def_"]

/-- The names that no member can have. -/
def forbidden : List String := ["mro", ""]

/-- The words of a text between blanks and commas. -/
def words (s : String) : List String :=
  let step := fun (c : Char) (acc : List (List Char)) =>
    if c = ',' || c = ' ' || (9 ≤ c.toNat && c.toNat ≤ 13) then [] :: acc
    else
      match acc with
      | word :: rest => (c :: word) :: rest
      | [] => [[c]]
  ((s.toList.foldr step [[]]).filter (· ≠ [])).map String.ofList

/-- The names in a value: the words of a text, or the elements of another value. -/
def namesIn (v : Value) : Except Failure (List Value) :=
  match v with
  | .str s => .ok ((words s).map Value.str)
  | _ =>
    match v.elements? with
    | some xs => .ok xs
    | none => .error .misuse

/-! ### Declarations -/

/-- A declaration that has been read up to some place. -/
structure Draft where
  members : List (String × Value) := []
  /-- The names of functions. -/
  functions : List String := []
  ignored : List Value := []
  order : Option Value := none

namespace Draft

/-- The names of the members so far. -/
def names (d : Draft) : List String := d.members.map (·.1)

/-- Names that are to be ignored; none of them may be a member already. -/
def ignore (d : Draft) (v : Value) : Except Failure Draft := do
  let ignored ← namesIn v
  if ignored.all Value.isHashable then
    match d.names.filter fun name => ignored.contains (.str name) with
    | [] => .ok { d with ignored }
    | taken => .error (.ignoredMembers taken)
  else .error .misuse

/-- One name more, with its value. -/
def declare (d : Draft) (name : String) (v : Value) : Except Failure Draft :=
  if isReserved name then
    -- Names between single low lines steer the declaration, or are refused.
    if !allowed.contains name then .error (.reservedMember name)
    else if name = ignoreKey then d.ignore v
    else .ok (if name = orderKey then { d with order := some v } else d)
  else if isSpecial name then
    .ok (if name = "__order__" then { d with order := some v } else d)
  else if d.names.contains name then .error .misuse
  -- What is ignored may be declared again and again.
  else if d.ignored.contains (.str name) then .ok d
  else if v.isFunction then .ok { d with functions := d.functions ++ [name] }
  else if d.functions.contains name then .error .misuse
  else .ok { d with members := d.members ++ [(name, v)] }

/-- Several names more. -/
def declareAll : Draft → List (String × Value) → Except Failure Draft
  | d, [] => .ok d
  | d, (name, v) :: rest => do declareAll (← d.declare name v) rest

/-- Whether the names are repeated in the order of the members.  Members whose value an
    earlier one has may be repeated anywhere. -/
def repeats (d : Draft) (order : Value) : Bool :=
  let kept := (distinct d.members).map (·.1)
  !order.isTruthy ||
    match namesIn order with
    | .ok names =>
      -- Names of repeated values are passed over.
      let told := names.filter fun v => !(d.names.any fun n => v = .str n ∧ n ∉ kept)
      names.isEmpty || told = kept.map Value.str
    | .error _ => false

end Draft

/-- The members of a declaration. -/
def declared (declaration : List (String × Value)) : Except Failure (List (String × Value)) := do
  let d ← ({} : Draft).declareAll declaration
  match forbidden.filter d.names.contains with
  | [] =>
    -- The order is compared at the end, when all members are known.
    if d.order.all d.repeats then .ok (distinct d.members) else .error .misuse
  | names => .error (.forbiddenMembers names)

end Enumeration

end SchemaGraph
