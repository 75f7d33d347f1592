import SchemaGraph.Survey.Inheritance

namespace SchemaGraph

/-!
# Documents

A document is the definition of its root, with a table of the other definitions and the
address of its dialect.  Documents of several roots keep their tables in common.

A survey yields either one document that stands alone or, with addresses across documents,
one for each of its roots.  An emission that is refused changes nothing.

* `Emission.refusal?` — why an emission is refused
* `Emission.compose`  — the keywords of a document
* `Emission.document` — emits the document of a root
-/

namespace Emission

/-! ### Refusals -/

/-- The cycle to be rejected: that of the first node with one that has no address of its
    own. -/
def rejectedCycle? (e : Emission) (store : Store) (linkage : Option Linkage) :
    List (NodeId × Visit) → Option Path
  | [] => none
  | (n, v) :: rest =>
    match v.cycle with
    | some path =>
      if e.hasOwnAddress store linkage n then rejectedCycle? e store linkage rest
      else some path
    | none => rejectedCycle? e store linkage rest

/-- Why an emission is refused. -/
def refusal? (e : Emission) (c : Conversion) : Option Failure :=
  let kind := ((c.store.node? e.root).map (·.kind)).getD .any
  if c.survey.has e.root = false then some (.unprocessed kind)
  else if e.root ∈ c.survey.emitted then some (.reemitted kind)
  else if c.survey.standalone ∨ (c.linkage.isNone ∧ c.survey.emitted ≠ []) then
    some .sharedSurvey
  else if e.policy.cycles = .reject then
    (e.rejectedCycle? c.store c.linkage c.survey.visits).map .cycle
  else none

/-! ### Assembly -/

/-- The definitions with an id, added to a table.  An id that cannot be a key ends the
    listing. -/
def listed : List (NodeId × Visit) → List (Value × NodeId) →
    List (Value × NodeId) × Option Failure
  | [], table => (table, none)
  | (n, v) :: rest, table =>
    if v.definition.isSome ∧ v.definitionId.isTruthy then
      if v.definitionId.isHashable then
        listed rest (Catalog.assign v.definitionId n table)
      else (table, some .misuse)
    else listed rest table

/-- A table as a mapping from ids to the bodies of definitions. -/
def tableEntries (survey : Survey) (table : List (Value × NodeId)) : Entries :=
  table.map fun (id, n) => (id, .dict (survey.definition n))

/-- The keywords of a document. -/
def assemble (e : Emission) (survey : Survey) (table : List (Value × NodeId)) : Entries :=
  let body := survey.definition e.root
  let withTable :=
    if table.isEmpty then body
    else body.set (.str e.target.definitionsKeyword) (.dict (tableEntries survey table))
  withTable.set "$schema" (.str e.target.schemaUri)

/-- Lists the definitions: in the common table, if there is one, else in the document's
    own. -/
def listDefinitions (e : Emission) : Action Conversion Entries := do
  let c ← get
  let (table, stop) := listed c.survey.visits ((c.linkage.map (·.table)).getD [])
  modify fun c => { c with linkage := c.linkage.map fun l => { l with table } }
  match stop with
  | some f => Conversion.fail f
  | none => pure (e.assemble c.survey (if c.linkage.isSome then [] else table))

/-- Marks a root as emitted. -/
def claim (e : Emission) : Action Conversion Unit := do
  let alone := (← get).linkage.isNone
  Conversion.onSurvey fun s =>
    { s with emitted := s.emitted ++ [e.root], standalone := s.standalone || alone }

/-- The number of definitions with an id. -/
def definitionCount (survey : Survey) : Nat :=
  (survey.visits.filter fun p => p.2.definitionId.isTruthy).length

/-- The event of a document that was emitted. -/
def completed (e : Emission) : Action Conversion Unit := do
  let c ← get
  let kind := ((c.store.node? e.root).map (·.kind.name)).getD ""
  Conversion.log (e.event "emit_complete"
    [("root", .str kind), ("definitions", .int (definitionCount c.survey)),
      ("external", .bool c.linkage.isSome)])

/-- Puts together the keywords of the document of a root: makes the definitions, finishes
    all nodes, and lists the definitions. -/
def compose (e : Emission) : Action Conversion Entries := do
  e.claim
  e.hoist
  e.settleVisits
  e.listDefinitions

/-- Emits the document of a root that was visited. -/
def document (e : Emission) : Action Conversion Json := do
  match e.refusal? (← get) with
  | some f => Conversion.fail f
  | none =>
    let entries ← e.compose
    let json ← Conversion.finalize (.dict entries)
    e.completed
    pure json

end Emission

end SchemaGraph
