import SchemaGraph.Command.Members
import SchemaGraph.Store.Optionality
import SchemaGraph.Text.Quoted

namespace SchemaGraph

/-!
# References

A reference names a module and, behind a colon, what is meant inside it.  The way there may
go through names of any kind: through groups of names, the fields of nodes, the constraints
of a node, and the members that the values of a type have.  Some fields are computed when
they are asked for, and may fail.

* `Reference.parse?` — the parts of a reference
* `Attribute.member` — one step on the way
* `Reference.target` — what a reference leads to, or why it leads nowhere
-/

/-- What a name stands for. -/
inductive Attribute where
  | node (n : NodeId)
  | catalog (name : String)
  | group (members : List (String × Attribute))
  /-- The names of a module. -/
  | scope (members : List (String × Attribute))
  /-- The constraints of a node. -/
  | bag (n : NodeId)
  /-- A function that belongs to what it was taken from, by the name of its type. -/
  | bound (typeName : String) (owner : Attribute)
  /-- Anything else, by the name of its type. -/
  | value (typeName : String)

instance : Inhabited Attribute := ⟨.value "NoneType"⟩

/-- A module and the names in it. -/
structure NamedModule where
  name : String
  members : List (String × Attribute)

/-- A reference in its parts. -/
structure Reference where
  text : String
  moduleName : String
  path : String
deriving DecidableEq, Repr

/-- Why a reference does not lead to what is expected. -/
inductive ReferenceError where
  | malformed (text : String)
  /-- A module is not there; what its name begins with may be there without holding
      modules. -/
  | noModule (name missing : String) (container : Option String)
  /-- The name of a module begins with a point, and nothing tells what it is relative to. -/
  | relative (name : String)
  | noAttribute (moduleName path : String)
  /-- Something on the way could not be computed. -/
  | failed (f : Failure)
  | otherType (text typeName expected : String)
deriving DecidableEq, Repr

/-- The sentence that reports an error.  Some errors are failures that none reports. -/
def ReferenceError.report : ReferenceError → Except Failure String
  | .malformed text => .ok ("Invalid reference '" ++ text ++ "': expected MODULE:ATTR")
  | .noModule name missing container =>
    .ok ("Cannot import module '" ++ name ++ "': No module named " ++ Text.quoted missing
      ++ match container with
        | some c => "; " ++ Text.quoted c ++ " is not a package"
        | none => "")
  | .relative _ => .error .misuse
  | .noAttribute moduleName path =>
    .ok ("Module '" ++ moduleName ++ "' has no attribute '" ++ path ++ "'")
  | .failed f => .error f
  | .otherType text typeName expected =>
    .ok ("'" ++ text ++ "' is a " ++ typeName ++ ", expected a " ++ expected)

/-! ### Steps -/

namespace Attribute

/-- The name of the type of what is meant. -/
def typeName : Attribute → String
  | .node _ => "SchemaNode"
  | .catalog _ => "Registry"
  | .group _ => "SimpleNamespace"
  | .scope _ => "module"
  | .bag _ => "Bag"
  | .bound t _ => t
  | .value t => t

/-- Something that may be missing, by the name of its type. -/
def present (typeName : String) (isPresent : Bool) : Attribute :=
  .value (if isPresent then typeName else "NoneType")

/-- What a field of a node holds. -/
def field? (n : NodeId) (node : Node) (name : String) : Option Attribute :=
  match Slot.named? name with
  | some slot =>
    match node.child slot with
    | .gap => some (.value "NoneType")
    | child => some (.node child)
  | none =>
    match name with
    | "variant" => some (.value "Variant")
    | "bag" => some (.bag n)
    | "shape" => some (present "dict" node.shape.isSome)
    | "entries" => some (present "dict" node.entries.isSome)
    | "options" => some (.value "tuple")
    | "items" => some (.value "tuple")
    | "values" => some (.value "tuple")
    | "pattern" => some (present "Pattern" node.pattern.isSome)
    | "getter" => some (present "function" node.getter.isSome)
    | "default_value" => some (.value node.defaultValue.typeName)
    | "catch_value" => some (.value node.fallbackValue.typeName)
    | "json_schema" => some (.value node.lowering.typeName)
    | _ => none

/-- What a node answers when it is asked under a name. -/
def answer? (n : NodeId) (node : Node) (name : String) : Option (Action Store Attribute) :=
  match name with
  | "lazy_inner" => some do
    match ← Store.resolve n with
    | .node m => pure (.node m)
    | .value v => pure (.value v.typeName)
  | "resolved_default" => some do
    match node.defaultValue.produced with
    | .ok v => pure (.value v.typeName)
    | .error cause => Store.fail (.ofRaised cause)
  | "optional_in" => some do
    let _ ← Store.isOptional .input n
    pure (.value "bool")
  | "optional_out" => some do
    let _ ← Store.isOptional .output n
    pure (.value "bool")
  | _ => none

/-- The types of functions that know what they were taken from. -/
def boundTypes : List String :=
  ["method", "method-wrapper", "builtin_function_or_method", "builtin_method"]

/-- The member of a name that all values of the type have. -/
def common (name : String) (a : Attribute) : Action Store Attribute :=
  match a, memberType? a.typeName name with
  | .bound _ owner, some t => pure (if name = "__self__" then owner else step t)
  | _, some t => pure (step t)
  | _, none => Store.fail .missingChild
where
  /-- A member of the given type. -/
  step (t : String) : Attribute := if boundTypes.contains t then .bound t a else .value t

/-- What a name stands for among members. -/
def member? (members : List (String × Attribute)) (name : String) : Option Attribute :=
  (members.find? fun m => m.1 = name).map (·.2)

/-- What a name stands for inside something. -/
def member (name : String) (a : Attribute) : Action Store Attribute := do
  match a with
  | .group members => (member? members name).elim (common name a) pure
  | .scope members => (member? members name).elim (common name a) pure
  | .node n =>
    let node ← Store.fetch n
    match field? n node name, answer? n node name with
    | some b, _ => pure b
    | none, some answer => answer
    | none, none => common name a
  | .bag n =>
    let node ← Store.fetch n
    match ConstraintName.all.find? fun c => c.name = name with
    | some c => pure (.value (node.constraints.get c).typeName)
    | none => common name a
  | _ => common name a

end Attribute

/-- A search for what a reference leads to.  Lazy nodes on the way may be asked. -/
abbrev Lookup := ExceptT ReferenceError (StateM Store)

namespace Reference

/-- Follows names one after the other. -/
def follow (r : Reference) : List String → Attribute → Lookup Attribute
  | [], a => pure a
  | name :: rest, a => do
    match ← (a.member name).run with
    | .ok b => r.follow rest b
    | .error f =>
      throw (if f.label = "AttributeError" then .noAttribute r.moduleName r.path else .failed f)

/-- The parts of a reference, neither of which may be empty. -/
def parse? (text : String) : Option Reference :=
  let moduleName := text.toList.takeWhile (· ≠ ':')
  let path := text.toList.drop (moduleName.length + 1)
  if moduleName.isEmpty || path.isEmpty then none
  else some ⟨text, String.ofList moduleName, String.ofList path⟩

/-- The parts of a name between points. -/
def splitPoints : List Char → List (List Char)
  | [] => [[]]
  | c :: rest =>
    if c = '.' then [] :: splitPoints rest
    else
      match splitPoints rest with
      | [] => [[c]]
      | part :: parts => (c :: part) :: parts

/-- The parts of a name. -/
def nameParts (name : String) : List String := (splitPoints name.toList).map String.ofList

/-- The first module on the way to a name that is not there, and the one before it. -/
def missingModule? (known : List String) :
    Option String → List String → Option (String × Option String)
  | _, [] => none
  | before, part :: rest =>
    let name := match before with
      | some b => b ++ "." ++ part
      | none => part
    if known.contains name then missingModule? known (some name) rest else some (name, before)

/-- What a reference leads to. -/
def target (modules : List NamedModule) (text : String) : Lookup Attribute :=
  match parse? text with
  | none => throw (.malformed text)
  | some r =>
    if r.moduleName.toList.head? = some '.' then throw (.relative r.moduleName)
    else
      match missingModule? (modules.map (·.name)) none (nameParts r.moduleName) with
      | some (missing, container) => throw (.noModule r.moduleName missing container)
      | none =>
        let members := ((modules.find? fun m => m.name = r.moduleName).map (·.members)).getD []
        r.follow (nameParts r.path) (.scope members)

/-- The node that a reference leads to. -/
def node (modules : List NamedModule) (text : String) : Lookup NodeId := do
  match ← target modules text with
  | .node n => pure n
  | other => throw (.otherType text other.typeName "schema node")

/-- The catalog that a reference leads to. -/
def catalog (modules : List NamedModule) (text : String) : Lookup String := do
  match ← target modules text with
  | .catalog name => pure name
  | other => throw (.otherType text other.typeName "registry")

end Reference

end SchemaGraph
