import SchemaGraph.Store

namespace SchemaGraph

/-!
# Overrides

An override looks at every finished fragment and may change it or fail.  The fragment of a
node is shown once, when all content that the node passes on has been merged in.

`Override.ofRules` makes an override of rules that are tried one after the other.
-/

/-- A last change to the fragment of a node; what has been changed before a failure stays
    changed. -/
abbrev Override := Store → NodeId → Entries → Entries × Option Failure

namespace Override

/-- When a rule applies: all conditions that are given must hold. -/
structure Condition where
  /-- The name of the node's kind. -/
  kind : Option Value := none
  /-- The name of the node. -/
  node : Option String := none
  /-- A keyword that the fragment has. -/
  keyword : Option Value := none

/-- A change to a fragment. -/
inductive Edit where
  | set (key value : Value)
  | erase (key : Value)
  | clear
  | raise (cause : Raised)

/-- Changes under a condition. -/
structure Rule where
  condition : Condition := {}
  edits : List Edit := []

namespace Condition

/-- Whether a condition holds. -/
def holds (c : Condition) (store : Store) (n : NodeId) (fragment : Entries) : Bool :=
  (match c.kind with
    | some kind => (store.node? n).any fun node => kind = .str node.kind.name
    | none => true)
  && (match c.node with
    | some name => store.nameOf? n = some name
    | none => true)
  && (match c.keyword with
    | some key => fragment.has key
    | none => true)

/-- Whether a condition cannot be looked at, because it asks for a keyword that can
    change; it comes to that only if the other conditions hold. -/
def fails (c : Condition) (store : Store) (n : NodeId) (fragment : Entries) : Bool :=
  c.keyword.any (!·.isHashable) && { c with keyword := none }.holds store n fragment

end Condition

/-- A change to a fragment, or why it fails.  What can change is no key. -/
def Edit.apply (edit : Edit) (e : Entries) : Except Failure Entries :=
  match edit with
  | .set key value => if key.isHashable then .ok (e.set key value) else .error .misuse
  | .erase key => if key.isHashable then .ok (e.erase key) else .error .misuse
  | .clear => .ok []
  | .raise cause => .error (.ofRaised cause)

/-- Changes made in order, up to one that fails. -/
def applyEdits : List Edit → Entries → Entries × Option Failure
  | [], e => (e, none)
  | edit :: rest, e =>
    match edit.apply e with
    | .ok changed => applyEdits rest changed
    | .error f => (e, some f)

/-- Rules tried in order; each sees the changes of those before it. -/
def ofRules : List Rule → Override
  | [], _, _, e => (e, none)
  | rule :: rest, store, n, e =>
    if rule.condition.fails store n e then (e, some .misuse)
    else if rule.condition.holds store n e then
      match applyEdits rule.edits e with
      | (changed, none) => ofRules rest store n changed
      | (changed, some f) => (changed, some f)
    else ofRules rest store n e

end Override

end SchemaGraph
