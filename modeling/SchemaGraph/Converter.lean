import SchemaGraph.Document

namespace SchemaGraph

/-!
# Converters

A converter visits roots into a survey and emits documents from it.  A node alone becomes
a document that holds all its definitions.  A catalog becomes one document for each of its
ids; the documents refer to each other by address, and what several of them need is listed
in a document of its own.

* `Converter.process`   — visits a root
* `Converter.emit`      — emits the document of a root
* `Converter.document`  — a node as a document
* `Converter.documents` — a catalog as documents
-/

/-- What a conversion goes by. -/
structure Converter where
  guide : Guide := {}
  override : Option Override := none

namespace Converter

/-- The event of a root that was visited. -/
def processedEvent (c : Converter) (kind : String) (records : Nat) : Event :=
  ⟨.debug, "schema_processed",
    [("component", .str "json_schema_generator"),
      ("target", .str (Choice.word c.guide.settings.target)), ("root", .str kind),
      ("records", .int records)]⟩

/-- Visits a root and everything below it. -/
def process (c : Converter) (root : NodeId) : Action Conversion Unit := do
  Conversion.visit c.guide root [] []
  let s ← get
  let kind := ((s.store.node? root).map (·.kind.name)).getD ""
  Conversion.log (c.processedEvent kind s.survey.size)

/-- Visits several roots in order. -/
def processAll (c : Converter) : List NodeId → Action Conversion Unit
  | [] => pure ()
  | root :: rest => do
    c.process root
    processAll c rest

/-- The emission of a root's document. -/
def emission (c : Converter) (policy : EmissionSettings) (root : NodeId) : Emission where
  root := root
  target := c.guide.settings.target
  catalog := c.guide.catalog
  policy := policy
  override := c.override

/-- Emits the document of a root that was visited. -/
def emit (c : Converter) (policy : EmissionSettings) (root : NodeId) : Action Conversion Json :=
  (c.emission policy root).document

/-- A node as a document that stands alone. -/
def document (c : Converter) (policy : EmissionSettings) (root : NodeId) :
    Action Conversion Json := do
  c.process root
  c.emit policy root

/-! ### Documents of a catalog -/

/-- A document put in the place of a former one with the same id, or at the end. -/
def putDocument (id : Value) (doc : Json) : List (Value × Json) → List (Value × Json)
  | [] => [(id, doc)]
  | (i, d) :: rest =>
    if i.canonical = id.canonical then (i, doc) :: rest else (i, d) :: putDocument id doc rest

/-- Emits the documents of ids in order. -/
def emitAll (c : Converter) (policy : EmissionSettings) :
    List (Value × NodeId) → Action Conversion (List (Value × Json))
  | [] => pure []
  | (id, root) :: rest => do
    -- All emissions go into one survey, and the first one does most of the work.
    let doc ← c.emit policy root
    let docs ← emitAll c policy rest
    pure ((id, doc) :: docs)

/-- The common definitions as a mapping. -/
def commonTable (c : Conversion) : Entries :=
  Emission.tableEntries c.survey ((c.linkage.map (·.table)).getD [])

/-- Every id of a catalog as a document, behind them the document of the definitions that
    they have in common. -/
def documents (c : Converter) (policy : EmissionSettings) (catalog : String)
    (addressing : Addressing) : Action Conversion (List (Value × Json)) := do
  -- The ids of the moment: what a lazy node registers during the descents has no document.
  let roots := ((← get).store.catalog catalog).ids
  c.processAll (roots.map (·.2))
  modify fun s => { s with linkage := some { catalog, addressing } }
  let docs ← c.emitAll policy roots
  let common := commonTable (← get)
  if common.isEmpty then pure docs
  else
    let table ← Conversion.finalize (.dict common)
    let shared := Json.obj [(c.guide.settings.target.definitionsKeyword, table)]
    -- A document of that very name is replaced where it stands.
    pure (putDocument (.str Emission.sharedDocument) shared docs)

end Converter

end SchemaGraph
