import SchemaGraph.Blueprint
import SchemaGraph.Catalog
import SchemaGraph.Log

namespace SchemaGraph

/-!
# The store

Everything that outlives a single conversion: the nodes of the graph and their names,
what lazy nodes have answered, the catalogs, and the events so far.

Lists of annotations under the keyword `allOf` are kept apart, because a conversion may
extend them where they stand; annotations and fragments hold their numbers.

* `Action`       — an operation on a state that returns a value or fails
* `Store.build`  — makes the node that a blueprint describes
* `Store.annotate` — annotates a node in a catalog
-/

/-- An operation on a state.  What it has changed before it fails stays changed. -/
abbrev Action (σ : Type) := ExceptT Failure (StateM σ)

/-- The getter of a lazy node, shared by the node's copies. -/
structure Getter where
  /-- The lazy node that was made with the getter. -/
  owner : NodeId
  source : Source
  /-- How often the getter was asked. -/
  calls : Nat := 0

/-- What a lazy node stands for. -/
inductive Resolved where
  | node (n : NodeId)
  | value (v : Value)
deriving DecidableEq, Repr, Inhabited

/-- Everything that outlives a conversion. -/
structure Store where
  nodes : List Node := []
  getters : List Getter := []
  /-- The answers that lazy nodes keep. -/
  resolved : List (NodeId × Resolved) := []
  /-- The names of nodes, each once, in the order in which they were first given. -/
  names : List (String × NodeId) := []
  catalogs : List (String × Catalog) := []
  /-- Lists of annotations that fragments may extend. -/
  lists : List (List Value) := []
  /-- The fragments that surveys have left behind, by the number of the survey. -/
  archive : List (List (NodeId × Entries)) := []
  events : List Event := []

instance : Inhabited Store := ⟨{}⟩

namespace Store

/-! ### Views -/

/-- The node of that place. -/
def node? (s : Store) : NodeId → Option Node
  | .gap => none
  | .node i => s.nodes[i]?

/-- The node that bears a name. -/
def named? (s : Store) (name : String) : Option NodeId :=
  (s.names.find? fun e => e.1 = name).map (·.2)

/-- The first of the names that a node bears. -/
def nameOf? (s : Store) (n : NodeId) : Option String :=
  (s.names.find? fun e => e.2 = n).map (·.1)

/-- The catalog of a name; one that was never used is empty. -/
def catalog (s : Store) (name : String) : Catalog :=
  ((s.catalogs.find? fun e => e.1 = name).map (·.2)).getD {}

/-- The answer that a lazy node keeps. -/
def resolved? (s : Store) (n : NodeId) : Option Resolved :=
  (s.resolved.find? fun e => e.1 = n).map (·.2)

/-- The fragment of a node as a survey has left it. -/
def archived (s : Store) (survey : Nat) (n : NodeId) : Entries :=
  (((s.archive[survey]?.getD []).find? fun e => e.1 = n).map (·.2)).getD []

/-- A list of annotations. -/
def list (s : Store) (number : Nat) : List Value := s.lists[number]?.getD []

/-- How often the getter of a lazy node was asked; copies of the node do not count. -/
def callsOf (s : Store) (n : NodeId) : Nat :=
  ((s.getters.find? fun g => g.owner = n).map (·.calls)).getD 0

/-! ### Changes -/

/-- A catalog replaced, or added. -/
def setCatalog (s : Store) (name : String) (c : Catalog) : Store :=
  if s.catalogs.any fun e => e.1 = name then
    { s with catalogs := s.catalogs.map fun e => if e.1 = name then (name, c) else e }
  else { s with catalogs := s.catalogs ++ [(name, c)] }

/-- One more event. -/
def record (s : Store) (e : Event) : Store := { s with events := s.events ++ [e] }

/-- The place that the next node will have. -/
def nextId (s : Store) : NodeId := .node s.nodes.length

/-- One more node. -/
def push (s : Store) (node : Node) : Store := { s with nodes := s.nodes ++ [node] }

/-- Gives a name to a node; a name that another node bears passes on where it stands. -/
def bind (s : Store) (name : String) (n : NodeId) : Store :=
  -- Names keep the order in which they were first given.
  if s.names.any fun e => e.1 = name then
    { s with names := s.names.map fun e => if e.1 = name then (name, n) else e }
  else { s with names := s.names ++ [(name, n)] }

/-! ### Actions -/

/-- Records an event. -/
def log (e : Event) : Action Store Unit := modify fun s => s.record e

/-- Fails; a failure that concerns schemas leaves an event. -/
def fail {α : Type} (f : Failure) : Action Store α := do
  match f.event? with
  | some e => log e
  | none => pure ()
  throw f

/-- The node of a place; there is none at the gap. -/
def fetch (n : NodeId) : Action Store Node := do
  match (← get).node? n with
  | some node => pure node
  | none => fail .missingChild

/-- Adds a node and returns its place. -/
def addNode (node : Node) : Action Store NodeId := do
  let n := (← get).nextId
  modify fun s => s.push node
  pure n

/-- An annotation whose list of further schemas is kept apart under a number. -/
def detachList (s : Store) (notes : Entries) : Store × Entries :=
  match notes.get? "allOf" with
  | some (.items .list xs) => detach xs
  -- A list that is its own element is kept apart as one that holds itself.
  | some (.loop false) => detach [.shared s.lists.length]
  | _ => (s, notes)
where
  /-- One more list, in place of which its number stands. -/
  detach (xs : List Value) : Store × Entries :=
    ({ s with lists := s.lists ++ [xs] }, notes.set "allOf" (.shared s.lists.length))

/-- Annotates a node in a catalog. -/
def annotate (catalog : String) (n : NodeId) (notes : Entries) : Action Store Unit := do
  let s ← get
  let (s', kept) := s.detachList notes
  match (s.catalog catalog).add n kept with
  | .ok c => set (s'.setCatalog catalog c)
  | .error f => fail f

/-- Makes a lazy node with a getter of its own. -/
def addLazy (source : Source) : Action Store NodeId := do
  let s ← get
  let n := s.nextId
  let node : Node := { kind := .lazy, getter := some s.getters.length }
  let getter : Getter := { owner := n, source }
  modify fun s => { s with nodes := s.nodes ++ [node], getters := s.getters ++ [getter] }
  pure n

mutual

/-- Makes the node that a blueprint describes, after the nodes that it is made of. -/
def build : Blueprint → Action Store NodeId
  | .named name => do
    match (← get).named? name with
    | some n => pure n
    | none => fail (.raised (.because "KeyError" name))
  | .node base children => do
    let node ← buildChildren base children
    addNode node
  | .concatenation parts => do
    let parts ← buildParts parts
    addNode
      { kind := .templateLiteral, pattern := some (Blueprint.concatenationPattern parts) }
  | .lazyNamed name => addLazy (.named name)
  | .lazyFresh result => addLazy (.fresh result)
  | .lazyValue v => addLazy (.value v)
  | .lazyRaise cause => addLazy (.raises cause)
  | .clone source => do
    let n ← build source
    let node ← fetch n
    addNode { node with parent := n }
  | .constrained source changes => do
    let n ← build source
    let node ← fetch n
    let constraints := changes.foldl (fun c (name, v) => c.set name v) node.constraints
    -- What is changed is no clone: it is described by itself.
    addNode { node with constraints, parent := .gap }
  | .annotated source notes catalog => do
    let n ← build source
    let node ← fetch n
    let m ← addNode { node with parent := n }
    annotate catalog m notes
    pure m
  | .lowered source lowering => do
    let n ← build source
    let node ← fetch n
    -- Nor is what is lowered in another way.
    addNode { node with lowering, parent := .gap }
  | .aliased source name => do
    let n ← build source
    modify fun s => s.bind name n
    pure n
  | .broken children cause => do
    -- The children are made before the failure, and stay.
    let _ ← buildChildren { kind := .any } children
    fail cause

/-- Makes the children of a node and puts them into their slots. -/
def buildChildren (node : Node) : List (Slot × Blueprint) → Action Store Node
  | [] => pure node
  | (slot, child) :: rest => do
    let n ← build child
    buildChildren (node.attach slot n) rest

/-- Makes the nodes among the parts of a concatenation. -/
def buildParts : List (Sum String Blueprint) → Action Store (List (Sum String Node))
  | [] => pure []
  | .inl text :: rest => do
    let more ← buildParts rest
    pure (.inl text :: more)
  | .inr part :: rest => do
    let n ← build part
    let node ← fetch n
    let more ← buildParts rest
    pure (.inr node :: more)

end

/-- Makes a node and gives it a name. -/
def define (name : String) (blueprint : Blueprint) : Action Store NodeId := do
  let n ← build blueprint
  modify fun s => s.bind name n
  pure n

end Store

end SchemaGraph
