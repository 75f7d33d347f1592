import SchemaGraph.Store.Lazy

namespace SchemaGraph

/-!
# Optional properties

Whether a property may be absent is asked of its node, separately for either side.  Some
kinds know the answer; wrappers pass the question on to the node inside, clones to the
node that they were made from, and lazy nodes to the node that they stand for.

The question follows one link at a time.  On a cycle of such links it comes to no answer.
-/

/-- Who knows whether a node is optional. -/
inductive Optionality where
  | known (answer : Bool)
  /-- Another node; the gap is not optional. -/
  | sameAs (n : NodeId)
  /-- The node that this lazy node stands for. -/
  | asResolved
deriving DecidableEq, Repr

/-- Who knows whether a node is optional on the given side. -/
def Node.optionality (side : Side) (node : Node) : Optionality :=
  if node.parent ≠ .gap then .sameAs node.parent
  else
    match node.kind, side with
    | .optional, _ => .known true
    | .default, .input => .known true
    | .prefault, .input => .known true
    | .fallback, .input => .known true
    | .default, .output => .sameAs node.inner
    | .prefault, .output => .sameAs node.inner
    | .fallback, .output => .sameAs node.inner
    | .pipe, .input => .sameAs node.input
    | .pipe, .output => .sameAs node.output
    | .lazy, _ => .asResolved
    | .nullable, _ => .sameAs node.inner
    | .readonly, _ => .sameAs node.inner
    | .promise, _ => .sameAs node.inner
    | _, _ => .known false

namespace Store

/-- Whether a node is optional, if the answer is at most the given number of links away. -/
def isOptionalWithin (side : Side) : Nat → NodeId → Action Store Bool
  | 0, _ => fail .endless
  | links + 1, n => do
    let node ← fetch n
    match node.optionality side with
    | .known answer => pure answer
    | .sameAs m => if m = .gap then pure false else isOptionalWithin side links m
    -- The one link that may make nodes.
    | .asResolved =>
      match ← resolve n with
      | .node m => isOptionalWithin side links m
      | .value _ => fail .missingChild

/-- Whether a node is optional on the given side.  The question fails as endless when it
    has been passed on more often than there are nodes. -/
def isOptional (side : Side) (n : NodeId) : Action Store Bool := do
  isOptionalWithin side ((← get).extent + 1) n

/-- The names of the properties that are not optional. -/
def requiredNames (side : Side) : List (String × NodeId) → Action Store (List String)
  | [] => pure []
  | (name, child) :: rest => do
    let skip ← isOptional side child
    let names ← requiredNames side rest
    pure (if skip then names else name :: names)

end Store

end SchemaGraph
