import SchemaGraph.Kind
import SchemaGraph.Value

namespace SchemaGraph

/-!
# Schema nodes

A node is a kind with its constraints and its children.  Children are named by their
places in a graph, so that nodes can share children and lie on cycles.  A field that a
node's kind does not use is left empty; a child that is missing is the gap.
-/

/-- What a node asks of its values beyond their kind.  A constraint that is absent is
    `null`. -/
structure Constraints where
  minimum : Value := .null
  maximum : Value := .null
  exclusiveMinimum : Value := .null
  exclusiveMaximum : Value := .null
  multipleOf : Value := .null
  format : Value := .null
  pattern : Value := .null
  contentEncoding : Value := .null
deriving DecidableEq, Repr, Inhabited

/-- The constraints by name. -/
inductive ConstraintName where
  | minimum
  | maximum
  | exclusiveMinimum
  | exclusiveMaximum
  | multipleOf
  | format
  | pattern
  | contentEncoding
deriving DecidableEq, Repr, Inhabited

namespace ConstraintName

/-- All constraints, in order. -/
def all : List ConstraintName :=
  [.minimum, .maximum, .exclusiveMinimum, .exclusiveMaximum, .multipleOf, .format, .pattern,
    .contentEncoding]

/-- The word for a constraint. -/
def name : ConstraintName → String
  | .minimum => "minimum"
  | .maximum => "maximum"
  | .exclusiveMinimum => "exclusive_minimum"
  | .exclusiveMaximum => "exclusive_maximum"
  | .multipleOf => "multiple_of"
  | .format => "format"
  | .pattern => "pattern"
  | .contentEncoding => "content_encoding"

end ConstraintName

namespace Constraints

/-- The value of a constraint. -/
def get (c : Constraints) : ConstraintName → Value
  | .minimum => c.minimum
  | .maximum => c.maximum
  | .exclusiveMinimum => c.exclusiveMinimum
  | .exclusiveMaximum => c.exclusiveMaximum
  | .multipleOf => c.multipleOf
  | .format => c.format
  | .pattern => c.pattern
  | .contentEncoding => c.contentEncoding

/-- The constraints with one of them replaced. -/
def set (c : Constraints) (name : ConstraintName) (v : Value) : Constraints :=
  match name with
  | .minimum => { c with minimum := v }
  | .maximum => { c with maximum := v }
  | .exclusiveMinimum => { c with exclusiveMinimum := v }
  | .exclusiveMaximum => { c with exclusiveMaximum := v }
  | .multipleOf => { c with multipleOf := v }
  | .format => { c with format := v }
  | .pattern => { c with pattern := v }
  | .contentEncoding => { c with contentEncoding := v }

/-- A constraint that was set is read back. -/
@[simp] theorem get_set_self (c : Constraints) (name : ConstraintName) (v : Value) :
    (c.set name v).get name = v := by
  cases name <;> rfl

/-- A constraint that was set makes no difference to others. -/
theorem get_set_of_ne {name other : ConstraintName} (h : other ≠ name) (c : Constraints)
    (v : Value) : (c.set name v).get other = c.get other := by
  cases name <;> cases other <;> first | rfl | exact absurd rfl h

end Constraints

/-- A node of a schema graph. -/
structure Node where
  kind : Kind
  constraints : Constraints := {}
  /-- The items of an array. -/
  element : NodeId := .gap
  /-- The properties of an object, in order. -/
  shape : Option (List (String × NodeId)) := none
  /-- The values of undeclared properties. -/
  catchall : NodeId := .gap
  /-- The alternatives of a union. -/
  options : List NodeId := []
  left : NodeId := .gap
  right : NodeId := .gap
  /-- The leading items of a tuple. -/
  items : List NodeId := []
  /-- The items of a tuple behind the leading ones. -/
  rest : NodeId := .gap
  keyType : NodeId := .gap
  valueType : NodeId := .gap
  /-- The members of an enumeration, by label. -/
  entries : Option (List (String × Value)) := none
  /-- The values of a literal. -/
  values : List Value := []
  /-- The node inside a wrapper. -/
  inner : NodeId := .gap
  /-- The side of a pipe that takes values in. -/
  input : NodeId := .gap
  /-- The side of a pipe that hands values out. -/
  output : NodeId := .gap
  /-- The number of the getter of a lazy node. -/
  getter : Option Nat := none
  /-- The value of a default, or a function that makes it. -/
  defaultValue : Value := .null
  /-- The function that answers when a value is refused. -/
  fallbackValue : Value := .null
  /-- The pattern of a template literal. -/
  pattern : Option Pattern := none
  /-- The node that this one is a clone of. -/
  parent : NodeId := .gap
  /-- The function that makes the node's fragment in place of the rules for its kind. -/
  lowering : Value := .null
deriving DecidableEq, Repr, Inhabited

/-- The places of children in a node. -/
inductive Slot where
  | element
  | catchall
  | left
  | right
  | rest
  | keyType
  | valueType
  | inner
  | input
  | output
  | parent
  /-- One more alternative. -/
  | option
  /-- One more leading item. -/
  | item
  /-- A property; a name that is there already keeps its place. -/
  | property (name : String)
deriving DecidableEq, Repr, Inhabited

/-- The slots that hold one child each, by name. -/
def Slot.single : List (String × Slot) :=
  [("element", .element), ("catchall", .catchall), ("left", .left), ("right", .right),
    ("rest", .rest), ("key_type", .keyType), ("value_type", .valueType), ("inner", .inner),
    ("in_node", .input), ("out_node", .output), ("parent", .parent)]

/-- The slot of a name. -/
def Slot.named? (name : String) : Option Slot := (single.find? fun s => s.1 = name).map (·.2)

/-- The child in a slot; slots that hold several children have none of their own. -/
def Node.child (node : Node) : Slot → NodeId
  | .element => node.element
  | .catchall => node.catchall
  | .left => node.left
  | .right => node.right
  | .rest => node.rest
  | .keyType => node.keyType
  | .valueType => node.valueType
  | .inner => node.inner
  | .input => node.input
  | .output => node.output
  | .parent => node.parent
  | .option => .gap
  | .item => .gap
  | .property _ => .gap

/-- A property put into a shape. -/
def putProperty (name : String) (child : NodeId) :
    List (String × NodeId) → List (String × NodeId)
  | [] => [(name, child)]
  | (k, c) :: rest =>
    if k = name then (k, child) :: rest else (k, c) :: putProperty name child rest

/-- A node with one more child. -/
def Node.attach (node : Node) (slot : Slot) (child : NodeId) : Node :=
  match slot with
  | .element => { node with element := child }
  | .catchall => { node with catchall := child }
  | .left => { node with left := child }
  | .right => { node with right := child }
  | .rest => { node with rest := child }
  | .keyType => { node with keyType := child }
  | .valueType => { node with valueType := child }
  | .inner => { node with inner := child }
  | .input => { node with input := child }
  | .output => { node with output := child }
  | .parent => { node with parent := child }
  | .option => { node with options := node.options ++ [child] }
  | .item => { node with items := node.items ++ [child] }
  | .property name => { node with shape := some (putProperty name child (node.shape.getD [])) }

end SchemaGraph
