import SchemaGraph.Store.Optionality
import SchemaGraph.Survey.Recipe

namespace SchemaGraph

/-!
# The descent

Visits a node and everything below it, depth first.  A node is entered into the survey
before its children are visited; meeting it again counts the arrival, and meeting it
below itself marks a cycle.  Behind the steps of its recipe a node's annotation is
written over its fragment.

* `Conversion.lower`  — the fragment of a node, and the visits to its children
* `Conversion.arrive` — one arrival at a node
* `Conversion.visit`  — a descent from a root
-/

/-- What a descent goes by: settings, and the catalog with the annotations. -/
structure Guide where
  settings : LoweringSettings := {}
  catalog : String := "global"

namespace Conversion

/-- Writes a property of an object into its fragment. -/
def putProperty (name : String) (child : NodeId) (fragment : Entries) : Entries :=
  let properties : Entries := match fragment.get? "properties" with
    | some (.dict es) => es
    | _ => []
  fragment.set "properties" (.dict (properties.set (.str name) (.fragment child)))

/-- Changes the fragment of a node. -/
def onFragment (n : NodeId) (f : Entries → Entries) : Action Conversion Unit :=
  onVisit n fun v => { v with fragment := f v.fragment }

/-- Passes on the content of a node that was visited. -/
def passOn (n child : NodeId) : Action Conversion Unit :=
  onVisit n fun v => { v with target := some child }

/-- Performs a step of a node's recipe; `visit` arrives at a child. -/
def perform (side : Side) (visit : NodeId → Path → Action Conversion Unit) (n : NodeId) :
    Step → Action Conversion Unit
  | .write key value => onFragment n fun e => e.set (.str key) value
  | .merge entries => onFragment n fun e => e.update entries
  | .visit child path => visit child path
  | .property name child => onFragment n (putProperty name child)
  | .require shape => do
    let names ← onStore (Store.requiredNames side shape)
    onFragment n fun e => e.set "required" (.list (names.map Value.str))
  | .inherit child path => do
    visit child path
    passOn n child
  | .inheritResolved path => do
    match ← onStore (Store.resolve n) with
    | .node child =>
      visit child path
      passOn n child
    | .value v => fail (.missingInner v path)
  | .inheritSource child path => do
    -- The target is known before the visit: a source may be met again below itself.
    passOn n child
    visit child path
    -- Whatever else reaches the source, the override is not shown it any more.
    onVisit child fun v => { v with isSource := true }
  | .prefault v => onVisit n fun visit => { visit with prefault := v }
  | .fail f => fail f

/-- Performs the steps of a node's recipe in order. -/
def performAll (side : Side) (visit : NodeId → Path → Action Conversion Unit) (n : NodeId) :
    List Step → Action Conversion Unit
  | [] => pure ()
  | step :: rest => do
    perform side visit n step
    performAll side visit n rest

/-- The default of a fragment on the input side: a default found on the way stands in for
    one that is absent or `null`. -/
def settleDefault (kind : Kind) (v : Visit) : Visit :=
  let fragment :=
    -- Examples and defaults of a pipe describe what comes out of it.
    if kind = .pipe then (v.fragment.erase "examples").erase "default" else v.fragment
  let default := (fragment.get? "default").getD .null
  { v with
    fragment :=
      -- A default that is `null` counts as none.
      if v.prefault ≠ .undefined ∧ default = .null then fragment.set "default" v.prefault
      else fragment }

/-- Writes the annotation of a node over its fragment. -/
def annotate (catalog : String) (n : NodeId) : Action Conversion Unit := do
  match ((← get).store.catalog catalog).get? n with
  | some notes => onFragment n fun e => e.update notes
  | none => pure ()

/-- The event of a node met below itself. -/
def cycleEvent (path : Path) : Event :=
  ⟨.debug, "cycle_detected",
    [("component", .str "traversal_engine"), ("path", .str path.text)]⟩

/-- Counts an arrival at a node that was visited before. -/
def revisit (ancestors : List NodeId) (n : NodeId) (path : Path) : Action Conversion Unit := do
  onVisit n fun v => { v with count := v.count + 1 }
  if n ∈ ancestors then
    -- A later arrival from below writes over the path of an earlier one.
    onVisit n fun v => { v with cycle := some path }
    log (cycleEvent path)

/-- Lowers a node that was just entered: performs its recipe, which `visit`s its children,
    then annotates it and settles its default. -/
def lower (guide : Guide) (visit : NodeId → Path → Action Conversion Unit) (n : NodeId)
    (path : Path) : Action Conversion Unit := do
  let node ← onStore (Store.fetch n)
  -- The kind is all that the recipe asks of a child.
  let catchall := ((← get).store.node? node.catchall).map (·.kind)
  performAll guide.settings.side visit n (node.recipe guide.settings catchall path)
  annotate guide.catalog n
  if guide.settings.side = .input then onVisit n (settleDefault node.kind)

/-- Arrives at a node from its ancestors, no deeper than the given depth.  A node that is
    too deep is entered, but not lowered. -/
def arrive (guide : Guide) (depth : Nat) (ancestors : List NodeId) (n : NodeId)
    (path : Path) : Action Conversion Unit := do
  if (← get).survey.has n then revisit ancestors n path
  else
    -- Entered before it is lowered, so that it is found when it is met below itself.
    onSurvey fun s => s.enter n
    match depth with
    | 0 => fail .endless
    | depth + 1 => lower guide (arrive guide depth (n :: ancestors)) n path

/-- Visits a node and everything below it.  The depth allowed is the number of nodes that
    there can be. -/
def visit (guide : Guide) (n : NodeId) (ancestors : List NodeId) (path : Path) :
    Action Conversion Unit := do
  arrive guide ((← get).store.extent + 2) ancestors n path

end Conversion

end SchemaGraph
