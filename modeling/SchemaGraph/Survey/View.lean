import SchemaGraph.Survey
import SchemaGraph.Value.Data

namespace SchemaGraph.Conversion

/-!
# Views of a survey

A value that points at fragments is finished by what the fragments hold at that moment.
Lists of annotations may hold fragments of surveys that are long over; these are looked up
among the ones left behind.

* `Conversion.view`     — the fragments and lists as they are now
* `Conversion.finalize` — a value as a document
* `Conversion.finalizeWithin` — the same, without integers that have too many digits
-/

/-- The fragment of a node in a survey. -/
def fragmentOf (c : Conversion) (survey : Nat) (n : NodeId) : Entries :=
  if survey = c.survey.number then c.survey.fragment n else c.store.archived survey n

/-- The fragments and lists as they are now. -/
def view (c : Conversion) : View where
  survey := c.survey.number
  fragment := c.fragmentOf
  list := c.store.list
  size := c.survey.size + c.store.lists.length
    + c.store.archive.foldl (fun n fragments => n + fragments.length) 0

/-- A value as a document, with what it points at now. -/
def finalize (v : Value) : Action Conversion Json := do
  match ((← get).view.settle v).document with
  | .ok json => pure json
  | .error f => fail f

end SchemaGraph.Conversion
