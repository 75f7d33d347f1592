import SchemaGraph.Survey.Definitions
import SchemaGraph.Survey.View

namespace SchemaGraph

/-!
# Content passed on

A node that passes on the content of another one takes over its keywords and keeps its own
where both have one.  A dialect that ignores all keywords beside a reference gets the
reference as one more element of `allOf`.  Targets are finished before the nodes that pass
them on, and every finished body is shown to the override.

* `Emission.inherit`  — a body with the content of its target
* `Emission.settle`   — finishes one node, its target first
* `Emission.settleAll` — finishes all nodes
-/

namespace Emission

/-- The keyword for what must hold besides. -/
def allOfKey : Value := .str "allOf"

/-- The content of a target below a node's own keywords. -/
def mergeBelow (own target : Entries) : Entries := (own.update target).update own

/-- Adds the fragment of a target to a list of annotations that stands apart. -/
def appendShared (number : Nat) (target : NodeId) : Action Conversion Unit := do
  -- The list outlives the survey, hence the number.
  let survey := (← get).survey.number
  Conversion.onStore (modify fun s =>
    { s with lists := s.lists.modify number fun xs => xs ++ [.borrowed survey target] })

/-- The body of a node with one more fragment that must hold besides. -/
def requireAlso (body : Entries) (target : NodeId) : Action Conversion Entries :=
  match body.get? allOfKey with
  | none => pure (body.set allOfKey (.list [.fragment target]))
  -- A list that nothing but the body holds is replaced by a longer one.
  | some (.items .list xs) => pure (body.set allOfKey (.list (xs ++ [.fragment target])))
  -- A list of annotations is changed where it stands, for all that hold it.
  | some (.shared number) => do
    appendShared number target
    pure body
  | some _ => Conversion.fail .missingChild

/-- The body of a node with the content of its target. -/
def inherit (e : Emission) (own : Entries) (target : NodeId) : Action Conversion Entries := do
  let wrapped := (← get).survey.fragment target
  if wrapped.has Visit.refKey ∧ e.target = .draft7 then requireAlso own target
  else pure (mergeBelow own wrapped)

/-- Shows the finished body of a node to the override. -/
def applyOverride (override : Override) (n : NodeId) : Action Conversion Unit := do
  let body := (← Conversion.visitOf n).body
  -- What was shown is kept, whatever becomes of the body.
  modify fun c => { c with shown := c.shown ++ [(n, body)] }
  let (changed, stop) := override (← get).store n body
  Conversion.onVisit n fun v => v.withBody changed
  match stop with
  | some f => Conversion.fail f
  | none => pure ()

/-- Finishes a node: its target first, no further than the given number of links away,
    then its own body.  A node is finished once. -/
def settle (e : Emission) : Nat → NodeId → Action Conversion Unit
  | 0, _ => pure ()
  | links + 1, n => do
    let v ← Conversion.visitOf n
    if v.merged then pure ()
    else
      -- Marked at once, so that content passed on in a circle comes to an end.
      Conversion.onVisit n fun v => { v with merged := true }
      match v.target with
      | none => pure ()
      | some target =>
        settle e links target
        -- The body as it was before the target was settled.
        let body ← e.inherit v.body target
        Conversion.onVisit n fun v => v.withBody body
      match e.override with
      -- The source of a clone is not shown; the clone is.
      | some override => if v.isSource then pure () else applyOverride override n
      | none => pure ()

/-- Finishes nodes in order. -/
def settleAll (e : Emission) (links : Nat) : List NodeId → Action Conversion Unit
  | [] => pure ()
  | n :: rest => do
    e.settle links n
    settleAll e links rest

/-- Finishes all visited nodes, the last one first. -/
def settleVisits (e : Emission) : Action Conversion Unit := do
  let s := (← get).survey
  e.settleAll (s.size + 1) s.order.reverse

end Emission

end SchemaGraph
