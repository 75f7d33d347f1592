import SchemaGraph.Override
import SchemaGraph.Survey.Descent

namespace SchemaGraph

/-!
# Definitions

Some nodes become definitions: their keywords move into a body of their own, and their
fragment becomes a bare reference to it.  These are the root, the nodes with an address,
the nodes marked by a cycle and, if asked for, the nodes that were reached several times.
A fragment that is a reference already stays as it is.

* `Emission.hasOwnAddress` — whether a node is addressed whatever the policies say
* `Emission.referenceFor`  — the reference to a definition, and its id
* `Emission.hoist`         — makes the definitions
-/

/-- What the emission of a document goes by. -/
structure Emission where
  root : NodeId
  target : Target := .draft2020
  /-- The catalog with the annotations. -/
  catalog : String := "global"
  policy : EmissionSettings := {}
  override : Option Override := none

namespace Emission

/-- The event of an emission. -/
def event (e : Emission) (name : String) (fields : List (String × Value)) : Event :=
  ⟨.debug, name,
    ("component", .str "emission_engine") :: ("target", .str (Choice.word e.target)) :: fields⟩

/-! ### Addresses -/

/-- The id that an annotation gives to a node; `null` if it gives none. -/
def annotatedId (store : Store) (catalog : String) (n : NodeId) : Value :=
  (((store.catalog catalog).get? n).map Catalog.idOf).getD .null

/-- The id under which a node is the root of a document of its own. -/
def documentId (store : Store) (linkage : Option Linkage) (n : NodeId) : Value :=
  match linkage with
  | some l => annotatedId store l.catalog n
  | none => .null

/-- Whether a node is addressed whatever the policies say. -/
def hasOwnAddress (e : Emission) (store : Store) (linkage : Option Linkage) (n : NodeId) :
    Bool :=
  n = e.root || (documentId store linkage n).isTruthy || (annotatedId store e.catalog n).isTruthy

/-- The reason to hoist a node that was visited. -/
def isHoisted (e : Emission) (store : Store) (linkage : Option Linkage) (n : NodeId)
    (v : Visit) : Bool :=
  v.cycle.isSome || e.hasOwnAddress store linkage n
    || (1 < v.count && e.policy.reused = .refer)

/-! ### References -/

/-- The address of a definition in a document's table. -/
def definitionAddress (target : Target) (document : String) (id : Value) : String :=
  document ++ "#/" ++ target.definitionsKeyword ++ "/" ++ id.plain

/-- The id of the document that holds what other documents share. -/
def sharedDocument : String := "__shared"

/-- Makes an id that was not made before. -/
def freshId (stem : String) : Action Conversion Value := do
  let s := (← get).survey
  Conversion.onSurvey fun s => { s with counter := s.counter + 1 }
  pure (.str (stem ++ toString s.counter))

/-- The first of two ids that is one, else a new one. -/
def chooseId (first second : Value) (stem : String) : Action Conversion Value :=
  if first.isTruthy then pure first
  else if second.isTruthy then pure second
  else freshId stem

/-- The id in a fragment. -/
def fragmentId (v : Visit) : Value := (v.fragment.get? "id").getD .null

/-- The reference to the definition of a node, and the id of the definition if it is
    listed in a table. -/
def referenceFor (e : Emission) (n : NodeId) (v : Visit) :
    Action Conversion (String × Option Value) := do
  let c ← get
  match c.linkage with
  | some linkage =>
    -- A node with a document of its own is referred to as that document.
    let external := documentId c.store c.linkage n
    if external.isTruthy then
      match linkage.addressing.address? external with
      | .ok ref => pure (ref, none)
      | .error f => Conversion.fail f
    else
      -- The others share a document; an id that was chosen for an earlier document is kept.
      let id ← chooseId v.definitionId (fragmentId v) "schema"
      Conversion.onVisit n fun v => { v with definitionId := id }
      pure (definitionAddress e.target (linkage.addressing.address sharedDocument) id, some id)
  | none =>
    -- Alone, a document is its own root and lists the rest in its table.
    if n = e.root then pure ("#", none)
    else
      let id ← chooseId .null (fragmentId v) "__schema"
      pure (definitionAddress e.target "" id, some id)

/-! ### Hoisting -/

/-- A visit whose keywords have become a definition. -/
def define (v : Visit) (ref : String) (id : Option Value) : Visit :=
  { v with
    -- The id stays with the visit when the keywords have moved away.
    definition := some v.fragment
    definitionId := id.getD v.definitionId
    fragment := [(Visit.refKey, .str ref)] }

/-- Makes a definition of a node's fragment, unless it is a reference. -/
def extract (e : Emission) (n : NodeId) : Action Conversion Unit := do
  let v ← Conversion.visitOf n
  -- What an earlier document has made a definition of is not made again.
  if v.isReference then pure ()
  else
    let (ref, id) ← e.referenceFor n v
    Conversion.onVisit n fun v => define v ref id
    Conversion.log (e.event "definition_hoisted"
      [("ref", .str ref), ("def_id", id.getD .null)])

/-- Makes the definitions of visited nodes in order.  A child that is not there has no
    address to ask for. -/
def hoistAll (e : Emission) : List NodeId → Action Conversion Unit
  | [] => pure ()
  | n :: rest => do
    let c ← get
    let v ← Conversion.visitOf n
    -- The root and a marked node are hoisted without a look at their addresses.
    if v.cycle.isNone ∧ n ≠ e.root ∧ n = .gap then Conversion.fail .misuse
    if e.isHoisted c.store c.linkage n v then e.extract n
    hoistAll e rest

/-- Makes the definitions of all visited nodes. -/
def hoist (e : Emission) : Action Conversion Unit := do
  e.hoistAll (← get).survey.order

end Emission

end SchemaGraph
