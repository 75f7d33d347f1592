import SchemaGraph.Store

namespace SchemaGraph

/-!
# Surveys

A survey holds what a conversion knows about the nodes that it has visited: one `Visit`
per node, in the order of first arrival.  Several roots may be visited into one survey
and emitted one after the other.

A fragment refers to the fragments of a node's children by the children's places, so that
a child's fragment may still grow, or be replaced by a reference, after its parent's
fragment is written.
-/

/-- What is known about a visited node. -/
structure Visit where
  /-- The keywords written for the node; a bare reference once the node has a
      definition. -/
  fragment : Entries := []
  /-- The body of the node's definition. -/
  definition : Option Entries := none
  /-- The id under which the definition is listed. -/
  definitionId : Value := .null
  /-- How often the node was reached. -/
  count : Nat := 1
  /-- The path on which the node was met below itself. -/
  cycle : Option Path := none
  /-- Whether the node was reached as the source of a clone. -/
  isSource : Bool := false
  /-- The node whose content this one passes on. -/
  target : Option NodeId := none
  /-- Whether the content of the target has been merged in. -/
  merged : Bool := false
  /-- A default for the input side that was found on the way. -/
  prefault : Value := .undefined
deriving DecidableEq, Repr, Inhabited

namespace Visit

/-- The keyword that refers to another place. -/
def refKey : Value := .str "$ref"

/-- Whether a fragment refers to another place. -/
def isReference (v : Visit) : Bool := v.fragment.has refKey

/-- The keywords that describe the node itself: those of its definition, if it has one. -/
def body (v : Visit) : Entries := v.definition.getD v.fragment

/-- A visit with other keywords for the node itself. -/
def withBody (v : Visit) (body : Entries) : Visit :=
  if v.definition.isSome then { v with definition := some body }
  else { v with fragment := body }

/-- A visit has the body that it was given. -/
@[simp] theorem body_withBody (v : Visit) (b : Entries) : (v.withBody b).body = b := by
  cases h : v.definition <;> simp [withBody, body, h]

end Visit

/-- The visits of a conversion and what has been emitted from them. -/
structure Survey where
  /-- Tells the survey from those before and behind it. -/
  number : Nat := 0
  visits : List (NodeId × Visit) := []
  /-- The number that the next generated id will have. -/
  counter : Nat := 0
  /-- The roots whose documents were emitted. -/
  emitted : List NodeId := []
  /-- Whether one of the documents stands alone. -/
  standalone : Bool := false
deriving DecidableEq, Repr, Inhabited

namespace Survey

/-- The visit of a node in a list of visits. -/
def find? (n : NodeId) : List (NodeId × Visit) → Option Visit
  | [] => none
  | (m, v) :: rest => if m = n then some v else find? n rest

/-- A list of visits with one of them changed. -/
def change (n : NodeId) (f : Visit → Visit) : List (NodeId × Visit) → List (NodeId × Visit)
  | [] => []
  | (m, v) :: rest => if m = n then (m, f v) :: rest else (m, v) :: change n f rest

/-- The visit of a node. -/
def visit? (s : Survey) (n : NodeId) : Option Visit := find? n s.visits

/-- Whether a node was visited. -/
def has (s : Survey) (n : NodeId) : Bool := (s.visit? n).isSome

/-- The visited nodes in order. -/
def order (s : Survey) : List NodeId := s.visits.map (·.1)

/-- The number of visited nodes. -/
def size (s : Survey) : Nat := s.visits.length

/-- The fragment of a node. -/
def fragment (s : Survey) (n : NodeId) : Entries := ((s.visit? n).map (·.fragment)).getD []

/-- The definition of a node. -/
def definition (s : Survey) (n : NodeId) : Entries :=
  ((s.visit? n).bind (·.definition)).getD []

/-- A survey with one visit changed. -/
def modify (s : Survey) (n : NodeId) (f : Visit → Visit) : Survey :=
  { s with visits := change n f s.visits }

/-- A survey with one visit more. -/
def enter (s : Survey) (n : NodeId) : Survey := { s with visits := s.visits ++ [(n, {})] }

/-- A change to one visit leaves the nodes and their order. -/
@[simp] theorem map_fst_change (n : NodeId) (f : Visit → Visit) (vs : List (NodeId × Visit)) :
    (change n f vs).map (·.1) = vs.map (·.1) := by
  induction vs with
  | nil => rfl
  | cons p rest ih =>
    obtain ⟨m, v⟩ := p
    by_cases h : m = n <;> simp [change, h, ih]

/-- A change to one visit leaves the order of the visits. -/
@[simp] theorem order_modify (s : Survey) (n : NodeId) (f : Visit → Visit) :
    (s.modify n f).order = s.order := map_fst_change n f s.visits

/-- The visit that is changed is found changed. -/
theorem find?_change_self (n : NodeId) (f : Visit → Visit) (vs : List (NodeId × Visit)) :
    find? n (change n f vs) = (find? n vs).map f := by
  induction vs with
  | nil => rfl
  | cons p rest ih =>
    obtain ⟨m, v⟩ := p
    by_cases h : m = n <;> simp [change, find?, h, ih]

/-- Other visits are found as they were. -/
theorem find?_change_of_ne {n m : NodeId} (h : m ≠ n) (f : Visit → Visit)
    (vs : List (NodeId × Visit)) : find? m (change n f vs) = find? m vs := by
  induction vs with
  | nil => rfl
  | cons p rest ih =>
    obtain ⟨k, v⟩ := p
    by_cases hk : k = n
    · subst hk; simp [change, find?, h.symm]
    · by_cases hm : k = m <;> simp [change, find?, hk, hm, ih, h]

/-- The visit of a node that is changed is found changed. -/
theorem visit?_modify_self (s : Survey) (n : NodeId) (f : Visit → Visit) :
    (s.modify n f).visit? n = (s.visit? n).map f := find?_change_self n f s.visits

/-- A visit that there is is found changed. -/
theorem visit?_modify_of_visit? {s : Survey} {n : NodeId} {v : Visit} (hv : s.visit? n = some v)
    (f : Visit → Visit) : (s.modify n f).visit? n = some (f v) := by
  rw [visit?_modify_self, hv]
  rfl

/-- The visits of other nodes are found as they were. -/
theorem visit?_modify_of_ne {n m : NodeId} (h : m ≠ n) (s : Survey) (f : Visit → Visit) :
    (s.modify n f).visit? m = s.visit? m := find?_change_of_ne h f s.visits

end Survey

/-! ### Documents of several roots -/

/-- How the id of a document becomes its address. -/
inductive Addressing where
  | template (template : UriTemplate)
  /-- Text before and behind the id. -/
  | surround (before after : String)
deriving Repr

/-- Addresses across documents: which catalog names them, how addresses are spelled, and
    the definitions that the documents share. -/
structure Linkage where
  catalog : String
  addressing : Addressing
  table : List (Value × NodeId) := []

namespace Addressing

/-- The address of a document. -/
def address (a : Addressing) (id : String) : String :=
  match a with
  | .template t => t.render id
  | .surround before after => before ++ id ++ after

/-- The address of a document whose id may be something else than a text. -/
def address? (a : Addressing) : Value → Except Failure String
  | .str id => .ok (a.address id)
  | _ => .error .misuse

end Addressing

/-! ### Conversions -/

/-- The state of a conversion. -/
structure Conversion where
  store : Store := {}
  survey : Survey := {}
  /-- Addresses of other documents, unless the document stands alone. -/
  linkage : Option Linkage := none
  /-- The nodes and fragments that were shown to the override, in order. -/
  shown : List (NodeId × Entries) := []

instance : Inhabited Conversion := ⟨{}⟩

namespace Conversion

/-- A conversion with a survey of its own. -/
def start (store : Store) : Conversion where
  store := { store with archive := store.archive ++ [[]], events := [] }
  survey := { number := store.archive.length }

/-- The store that a conversion leaves; it keeps the fragments, which lists of annotations
    may hold. -/
def leave (c : Conversion) : Store :=
  let fragments := c.survey.visits.map fun (n, v) => (n, v.fragment)
  { c.store with archive := c.store.archive.set c.survey.number fragments }

/-- An operation on the store. -/
def onStore {α : Type} (a : Action Store α) : Action Conversion α := fun c =>
  let (result, store) := a c.store
  (result, { c with store })

/-- Fails; a failure that concerns schemas leaves an event. -/
def fail {α : Type} (f : Failure) : Action Conversion α := onStore (Store.fail f)

/-- Records an event. -/
def log (e : Event) : Action Conversion Unit := onStore (Store.log e)

/-- Changes the survey. -/
def onSurvey (f : Survey → Survey) : Action Conversion Unit :=
  modify fun c => { c with survey := f c.survey }

/-- Changes one visit. -/
def onVisit (n : NodeId) (f : Visit → Visit) : Action Conversion Unit :=
  onSurvey fun s => s.modify n f

/-- The visit of a node. -/
def visitOf (n : NodeId) : Action Conversion Visit := do
  pure (((← get).survey.visit? n).getD {})

end Conversion

end SchemaGraph
