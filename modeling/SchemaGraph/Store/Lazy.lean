import SchemaGraph.Store

namespace SchemaGraph

/-!
# Lazy nodes

A lazy node asks its getter once and keeps the answer; a getter that fails is asked again.

`Store.extent` bounds how deep a descent through the graph can go before it repeats itself:
every step down enters another node, and the nodes are those that exist and those that
lazy nodes have yet to make.  Copies of a lazy node share a getter and ask it separately.
-/

mutual

/-- The number of nodes that a blueprint makes, those of its lazy nodes included. -/
def Blueprint.size : Blueprint → Nat
  | .named _ => 1
  | .node _ children => sizeOfChildren children + 1
  | .concatenation parts => sizeOfParts parts + 1
  | .lazyNamed _ => 1
  | .lazyFresh result => result.size + 1
  | .lazyValue _ => 1
  | .lazyRaise _ => 1
  | .clone source => source.size + 1
  | .constrained source _ => source.size + 1
  | .annotated source _ _ => source.size + 1
  | .lowered source _ => source.size + 1
  | .aliased source _ => source.size + 1
  | .broken children _ => sizeOfChildren children + 1

/-- The number of nodes that the children of a blueprint make. -/
def Blueprint.sizeOfChildren : List (Slot × Blueprint) → Nat
  | [] => 0
  | (_, child) :: rest => child.size + sizeOfChildren rest

/-- The number of nodes that the parts of a concatenation make. -/
def Blueprint.sizeOfParts : List (Sum String Blueprint) → Nat
  | [] => 0
  | .inl _ :: rest => sizeOfParts rest
  | .inr part :: rest => part.size + sizeOfParts rest

end

/-- The number of nodes that a getter makes. -/
def Source.size : Source → Nat
  | .fresh blueprint => blueprint.size
  | _ => 0

namespace Store

/-- The number of lazy nodes that have a getter. -/
def lazyCount (s : Store) : Nat := (s.nodes.filter (·.getter.isSome)).length

/-- The number of nodes, and of those that lazy nodes can make. -/
def extent (s : Store) : Nat :=
  s.nodes.length + s.lazyCount * s.getters.foldl (fun n g => n + g.source.size) 0

/-- Counts a call of a getter. -/
def countCall (s : Store) (getter : Nat) : Store :=
  { s with getters := s.getters.modify getter fun g => { g with calls := g.calls + 1 } }

/-- What a getter answers. -/
def ask : Source → Action Store Resolved
  | .named name => do
    -- The name is looked up when the getter is called, not when it was made.
    match (← get).named? name with
    | some n => pure (.node n)
    | none => pure (.value .null)
  | .fresh blueprint => do pure (.node (← build blueprint))
  | .value v => pure (.value v)
  | .raises cause => fail (.ofRaised cause)

/-- What a lazy node stands for. -/
def resolve (n : NodeId) : Action Store Resolved := do
  let s ← get
  match s.resolved? n with
  | some answer => pure answer
  | none =>
    let node ← fetch n
    match node.getter.bind fun i => s.getters[i]?.map fun g => (i, g.source) with
    | none => fail (.noGetter node.kind)
    | some (i, source) =>
      -- A call counts even if it fails, and then no answer is kept.
      modify fun s => s.countCall i
      let answer ← ask source
      modify fun s => { s with resolved := s.resolved ++ [(n, answer)] }
      pure answer

end Store

end SchemaGraph
