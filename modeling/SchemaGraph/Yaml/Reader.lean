import SchemaGraph.Value.Datum
import SchemaGraph.Yaml.Node
import SchemaGraph.Yaml.Scalar

namespace SchemaGraph.Yaml

/-!
# Reading YAML

The tree of a document makes a datum.  Mappings may take over entries of other mappings
under the sign for merging; their own entries come behind them and count more.  A tree is
looked at level by level: what is wrong with an element is found before what is wrong
inside of it.

* `Node.merged` — the entries of a mapping with those that it takes over
* `Node.check`  — what is wrong with a tree
* `Node.datum`  — what a tree stands for
* `read`        — what a text stands for
-/

/-! ### Merging -/

/-- Whether a key is the sign for merging. -/
def Node.isMerge : Node → Bool
  | .scalar (.plain text) _ => text = mergeSign
  | _ => false

mutual

/-- Entries with those that they take over in front of them. -/
def mergedEntries : List (Node × Node) → Except Fault (List (Node × Node))
  | [] => .ok []
  | entries => do
    let (taken, own) ← splitEntries entries
    .ok (taken ++ own)

/-- The entries that are taken over, and the others. -/
def splitEntries :
    List (Node × Node) → Except Fault (List (Node × Node) × List (Node × Node))
  | [] => .ok ([], [])
  | (k, v) :: rest =>
    if k.isMerge then do
      -- Wherever the sign stands, what it takes over comes in front.
      let here ← takenFrom v
      let (taken, own) ← splitEntries rest
      .ok (here ++ taken, own)
    else do
      let (taken, own) ← splitEntries rest
      .ok (taken, (k, v) :: own)

/-- The entries that are taken over from a mapping, or from several: those of the first
    count most and come last. -/
def takenFrom : Node → Except Fault (List (Node × Node))
  | .mapping entries _ => mergedEntries entries
  | .sequence items _ => takenFromAll items
  | .scalar _ line => .error (.broken line)

/-- The entries that are taken over from several mappings. -/
def takenFromAll : List Node → Except Fault (List (Node × Node))
  | [] => .ok []
  | .mapping entries _ :: rest => do
    let here ← mergedEntries entries
    let behind ← takenFromAll rest
    -- The first of several mappings comes last, so that it counts most.
    .ok (behind ++ here)
  | other :: _ => .error (.broken other.line)

end

/-! ### Levels -/

/-- What a text stands for, or what is wrong with it. -/
def Content.atom (line : Nat) : Content → Except Fault Atom
  | .plain text => (resolve text line).map .value
  | .quoted codes => .ok (.ofCodes codes)

/-- What a text stands for as a key; the sign for the default value stands for itself here. -/
def Content.key (line : Nat) : Content → Except Fault Atom
  | .plain text =>
    if text = defaultSign then .ok (.value (.str text)) else (resolve text line).map .value
  | .quoted codes => .ok (.ofCodes codes)

/-- Looks at a node from outside: a text must stand for something; a collection is looked into
    later. -/
def Node.glance : Node → Except Fault (List Node)
  | .scalar content line => do
    let _ ← content.atom line
    .ok []
  | n => .ok [n]

/-- Looks at a key: it must be a text. -/
def Node.glanceKey : Node → Except Fault Unit
  | .scalar content line => do
    let _ ← content.key line
    .ok ()
  | n => .error (.broken n.line)

/-- Looks at nodes in order; returns the collections among them. -/
def glances : List Node → Except Fault (List Node)
  | [] => .ok []
  | n :: rest => do
    let here ← n.glance
    let behind ← glances rest
    .ok (here ++ behind)

/-- Looks at entries in order, at the key of each first. -/
def glanceEntries : List (Node × Node) → Except Fault (List Node)
  | [] => .ok []
  | (k, v) :: rest => do
    k.glanceKey
    let here ← v.glance
    let behind ← glanceEntries rest
    .ok (here ++ behind)

/-- Looks into a collection. -/
def Node.inside : Node → Except Fault (List Node)
  | .scalar .. => .ok []
  | .sequence items _ => glances items
  | .mapping entries _ => do glanceEntries (← mergedEntries entries)

/-- Looks into several collections in order. -/
def insides : List Node → Except Fault (List Node)
  | [] => .ok []
  | n :: rest => do
    let here ← n.inside
    let behind ← insides rest
    .ok (here ++ behind)

/-- Looks into collections, then into those inside of them, and so on. -/
def checkLevels : Nat → List Node → Except Fault Unit
  | 0, _ => .ok ()
  | _, [] => .ok ()
  | depth + 1, level => do checkLevels depth (← insides level)

mutual

/-- The number of collections around the innermost text. -/
def Node.depth : Node → Nat
  | .scalar .. => 0
  | .sequence items _ => depthOf items + 1
  | .mapping entries _ => depthOfEntries entries + 1

/-- The depth of the deepest node. -/
def depthOf : List Node → Nat
  | [] => 0
  | n :: rest => max n.depth (depthOf rest)

/-- The depth of the deepest node in entries. -/
def depthOfEntries : List (Node × Node) → Nat
  | [] => 0
  | (k, v) :: rest => max (max k.depth v.depth) (depthOfEntries rest)

end

/-- Looks at a whole tree. -/
def Node.check (n : Node) : Except Fault Unit := do
  checkLevels (n.depth + 1) (← n.glance)

/-! ### Data -/

/-- What a tree of at most the given depth stands for.  Of equal keys the last datum counts, at
    the place of the first. -/
def Node.datumWithin : Nat → Node → Except Fault Datum
  | _, .scalar content line => (content.atom line).map .atom
  | 0, n => .error (.broken n.line)
  | depth + 1, .sequence items _ => do .ok (.list (← items.mapM (datumWithin depth)))
  | depth + 1, .mapping entries _ => do
    let pairs ← (← mergedEntries entries).mapM fun (k, v) => do
      match k with
      | .scalar content line => .ok (← content.key line, ← v.datumWithin depth)
      | other => .error (.broken other.line)
    .ok (.dict (Options.ofList pairs))

/-- What a tree stands for. -/
def Node.datum (n : Node) : Except Fault Datum := do
  -- The check goes level by level, and finds faults in another order than the reading.
  n.check
  n.datumWithin n.depth

/-- What a text stands for; one without a document is `null`. -/
def read (text : String) : Except Fault Datum := do
  match ← Node.ofTokens (Token.ofText (unifyBreaks text.toList)) with
  | some n => n.datum
  | none => .ok (.value .null)

end SchemaGraph.Yaml
