import SchemaGraph.Enumeration
import SchemaGraph.Node

namespace SchemaGraph

/-!
# Blueprints

A blueprint says how a node is made: from scratch, from nodes that have a name already,
or from another blueprint by a change that yields a new node.  Lazy nodes keep blueprints
of nodes that are made when somebody first asks for them.

The makers below the type state what each kind of node is made of.
-/

/-- How a node is made. -/
inductive Blueprint where
  /-- The node of that name. -/
  | named (name : String)
  /-- A new node with children in the given slots. -/
  | node (base : Node) (children : List (Slot × Blueprint))
  /-- A string that is the concatenation of texts and of nodes. -/
  | concatenation (parts : List (Sum String Blueprint))
  /-- A lazy node that stands for the node of that name, whenever it is asked. -/
  | lazyNamed (name : String)
  /-- A lazy node that makes a new node whenever it is asked. -/
  | lazyFresh (result : Blueprint)
  /-- A lazy node that answers something else than a node. -/
  | lazyValue (value : Value)
  /-- A lazy node that fails when it is asked. -/
  | lazyRaise (cause : Raised)
  | clone (source : Blueprint)
  /-- A copy under other constraints. -/
  | constrained (source : Blueprint) (changes : List (ConstraintName × Value))
  /-- A clone, annotated in a catalog. -/
  | annotated (source : Blueprint) (notes : Entries) (catalog : String)
  /-- A copy whose fragment a function makes. -/
  | lowered (source : Blueprint) (lowering : Value)
  /-- The node under one more name. -/
  | aliased (source : Blueprint) (name : String)
  /-- No node: after the given ones are made, the attempt fails. -/
  | broken (children : List (Slot × Blueprint)) (cause : Failure)

instance : Inhabited Blueprint := ⟨.named ""⟩

/-- What the getter of a lazy node does when it is asked. -/
inductive Source where
  | named (name : String)
  | fresh (blueprint : Blueprint)
  | value (value : Value)
  | raises (cause : Raised)

namespace Blueprint

/-- A node without children. -/
def leaf (kind : Kind) : Blueprint := .node { kind } []

/-- A whole number that every reader of documents can hold. -/
def integer : Blueprint :=
  .node { kind := .number, constraints := { format := .str "safeint" } } []

/-- A node around another one. -/
def wrapped (kind : Kind) (inner : Blueprint) : Blueprint :=
  .node { kind } [(.inner, inner)]

/-- A sequence of equal items. -/
def array (element : Blueprint) : Blueprint := .node { kind := .array } [(.element, element)]

/-- A set of equal members. -/
def set (element : Blueprint) : Blueprint := .node { kind := .set } [(.valueType, element)]

/-- A node around another one with a default, or with a function that makes it. -/
def withDefault (kind : Kind) (inner : Blueprint) (value : Value) : Blueprint :=
  .node { kind, defaultValue := value } [(.inner, inner)]

/-- A node that answers with a fallback where the inner one refuses; a value that is no
    function is the answer itself. -/
def withFallback (inner : Blueprint) (value : Value) : Blueprint :=
  .node
    { kind := .fallback, fallbackValue := if value.isFunction then value else .constant 0 value }
    [(.inner, inner)]

/-- An object with its properties in order and a node for all others, if there is one. -/
def object (shape : List (String × Blueprint)) (catchall : Option Blueprint) : Blueprint :=
  .node { kind := .object, shape := some [] }
    (shape.map (fun (name, child) => (Slot.property name, child)) ++
      match catchall with
      | some c => [(.catchall, c)]
      | none => [])

/-- An object without other properties. -/
def strictObject (shape : List (String × Blueprint)) : Blueprint :=
  object shape (some (leaf .never))

/-- An object with any other properties. -/
def looseObject (shape : List (String × Blueprint)) : Blueprint :=
  object shape (some (leaf .unknown))

/-- One of several alternatives. -/
def union (options : List Blueprint) : Blueprint :=
  .node { kind := .union } (options.map fun o => (Slot.option, o))

/-- Both of two nodes. -/
def intersection (left right : Blueprint) : Blueprint :=
  .node { kind := .intersection } [(.left, left), (.right, right)]

/-- Leading items, each with its own node, and a node for all items behind them. -/
def tuple (items : List Blueprint) (rest : Option Blueprint) : Blueprint :=
  .node { kind := .tuple }
    (items.map (fun i => (Slot.item, i)) ++
      match rest with
      | some r => [(.rest, r)]
      | none => [])

/-- Keys and values of one kind each. -/
def keyed (kind : Kind) (key value : Blueprint) : Blueprint :=
  .node { kind } [(.keyType, key), (.valueType, value)]

/-- The values without repetition.  Values repeat each other when they are equal and of
    one type, so that `1` and `true` are two values. -/
def distinctValues (values : List Value) : List Value :=
  values.foldl
    (fun seen v =>
      if seen.any fun s => s.typeName = v.typeName && s.same v then seen else seen ++ [v]) []

/-- Values labelled by their places. -/
def labelled (values : List Value) : List (String × Value) :=
  values.zipIdx.map fun (v, i) => (toString i, v)

/-- One of several values. -/
def enumeration (values : List Value) : Blueprint :=
  .node { kind := .enumeration, entries := some (labelled (distinctValues values)) } []

/-- One of several named members. -/
def enumerationOf (declaration : List (String × Value)) : Blueprint :=
  match Enumeration.declared declaration with
  | .ok members => .node { kind := .enumeration, entries := some members } []
  | .error f => .broken [] f

/-- One of the given values, each standing for itself. -/
def literal (values : List Value) : Blueprint := .node { kind := .literal, values } []

/-- Values that go in as one node and come out as another. -/
def pipe (input output : Blueprint) : Blueprint :=
  .node { kind := .pipe } [(.input, input), (.output, output)]

/-! ### The pattern of a concatenation -/

/-- The source that matches what a part stands for: numerals, truth values, the texts of
    literals, or anything. -/
def partSource (part : Node) : String :=
  match part.kind with
  | .number => "-?\\d+(?:\\.\\d+)?"
  | .boolean => "(?:true|false)"
  | .literal => "(?:" ++ "|".intercalate (part.values.map fun v => Pattern.escape v.plain) ++ ")"
  | _ => ".*"

/-- The pattern of a concatenation: its parts between anchors. -/
def concatenationPattern (parts : List (Sum String Node)) : Pattern :=
  let sources := parts.map fun
    | .inl text => Pattern.escape text
    | .inr part => partSource part
  { source := "^" ++ "".intercalate sources ++ "$" }

end Blueprint

end SchemaGraph
