import SchemaGraph.Failure

namespace SchemaGraph.Value

/-!
# Calling functions

Functions come into a schema as defaults, fallbacks and custom lowerings.  A call has an
argument or none, and either returns a value or raises an exception.

* `Value.call`      — what a call comes to
* `Value.mergeable` — the entries that a value stands for where a mapping is asked for
-/

/-- An attribute of a value.  The only attribute that every value has is its class. -/
def readAttribute (name : String) (v : Value) : Except Raised Value :=
  if name = "__class__" then .ok (.foreign .classObject)
  else .error (.because "AttributeError"
    ("'" ++ v.typeName ++ "' object has no attribute '" ++ name ++ "'"))

/-- The argument of a function that has one parameter. -/
def required : Option Value → Except Raised Value
  | some v => .ok v
  | none => .error (.because "TypeError" "missing 1 required positional argument")

/-- What a call of a function returns.  Some functions take an argument, others do without;
    those that return or raise the same whatever happens take any. -/
def call (function : Value) (argument : Option Value) : Except Raised Value :=
  match function with
  | .constant _ v => .ok v
  | .foreign .classObject => .ok .null
  | .foreign (.raiser _ kind message) => .error (.because kind message)
  | .foreign (.reader _ name) => do readAttribute name (← required argument)
  | .foreign (.echo _) => required argument
  | v => .error (.because "TypeError" ("'" ++ v.typeName ++ "' object is not callable"))

/-- A value, or what it returns if it is a function that does without an argument. -/
def produced (v : Value) : Except Raised Value :=
  if v.isFunction then v.call none else .ok v

/-! ### Values merged into a fragment -/

/-- The two elements of an entry given as a sequence. -/
def pair? (index : Nat) (v : Value) : Except Failure (Value × Value) :=
  match v.elements? with
  | some [k, v] => if k.isHashable then .ok (k, v) else .error .misuse
  | some xs => .error (.notPair index xs.length)
  | none => .error .misuse

/-- The entries that a list of pairs stands for, and what stops the reading of it. -/
def pairs (index : Nat) : List Value → Entries × Option Failure
  | [] => ([], none)
  | v :: rest =>
    match pair? index v with
    | .error f => ([], some f)
    | .ok e =>
      let (more, stop) := pairs (index + 1) rest
      (e :: more, stop)

/-- The entries of a mapping, or of a sequence of pairs; a value of another kind stands
    for none.  Entries in front of one that does not fit count. -/
def mergeable (v : Value) : Entries × Option Failure :=
  match v with
  | .dict es => (es, none)
  | .loop true => ([(.str "self", .loop true)], none)
  | _ =>
    match v.elements? with
    | some xs => pairs 0 xs
    | none => ([], some .misuse)

end SchemaGraph.Value
