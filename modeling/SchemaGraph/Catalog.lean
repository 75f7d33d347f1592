import SchemaGraph.Failure

namespace SchemaGraph

/-!
# Catalogs

A catalog annotates nodes.  An annotation may carry an `id`; an id belongs to one node at
a time.

* `Catalog.add`    — annotates a node, taking over its former id
* `Catalog.remove` — forgets a node and its id
* `Catalog.ids`    — the ids and their nodes, in the order in which they were taken
-/

/-- Annotations of nodes, and the ids among them. -/
structure Catalog where
  entries : List (NodeId × Entries) := []
  ids : List (Value × NodeId) := []
deriving DecidableEq, Repr, Inhabited

namespace Catalog

/-- The id of an annotation. -/
def idOf (notes : Entries) : Value := (notes.get? "id").getD .null

/-- The annotation of a node in a list of annotations. -/
def find? (n : NodeId) : List (NodeId × Entries) → Option Entries
  | [] => none
  | (m, e) :: rest => if m = n then some e else find? n rest

/-- The annotation of a node. -/
def get? (c : Catalog) (n : NodeId) : Option Entries := find? n c.entries

/-- Whether a node is annotated. -/
def has (c : Catalog) (n : NodeId) : Bool := (c.get? n).isSome

/-- An annotation put in the place of a former one, or at the end. -/
def put (n : NodeId) (e : Entries) : List (NodeId × Entries) → List (NodeId × Entries)
  | [] => [(n, e)]
  -- A former annotation is replaced where it stands.
  | (m, old) :: rest => if m = n then (m, e) :: rest else (m, old) :: put n e rest

/-- The node that holds an id. -/
def holder? (id : Value) : List (Value × NodeId) → Option NodeId
  | [] => none
  | (i, n) :: rest => if i.canonical = id.canonical then some n else holder? id rest

/-- An id given to a node; an id that is there already keeps its place. -/
def assign (id : Value) (n : NodeId) : List (Value × NodeId) → List (Value × NodeId)
  | [] => [(id, n)]
  | (i, m) :: rest =>
    if i.canonical = id.canonical then (i, n) :: rest else (i, m) :: assign id n rest

/-- All ids but one. -/
def withdraw (id : Value) : List (Value × NodeId) → List (Value × NodeId)
  | [] => []
  | (i, m) :: rest =>
    if i.canonical = id.canonical then rest else (i, m) :: withdraw id rest

/-- The ids without the given one, if the node holds it. -/
def release (id : Value) (n : NodeId) (ids : List (Value × NodeId)) :
    List (Value × NodeId) :=
  if id ≠ .null ∧ holder? id ids = some n then withdraw id ids else ids

/-- Annotates a node.  An id that another node holds is refused, and so is an id that
    cannot be a key; either way nothing changes.  A former id of the node is given up
    unless the new one equals it. -/
def add (c : Catalog) (n : NodeId) (notes : Entries) : Except Failure Catalog :=
  let id := idOf notes
  if id ≠ .null ∧ id.isHashable = false then .error .misuse
  else if id ≠ .null ∧ (holder? id c.ids).any (· ≠ n) then .error (.idTaken id)
  else
    -- The former id is given up first, so that the new one may come last.
    let kept := match c.get? n with
      | some former =>
        if (idOf former).same id then c.ids else release (idOf former) n c.ids
      | none => c.ids
    .ok
      { entries := put n notes c.entries
        ids := if id = .null then kept else assign id n kept }

/-- Forgets a node and gives up its id. -/
def remove (c : Catalog) (n : NodeId) : Catalog :=
  match c.get? n with
  | none => c
  | some former =>
    { entries := c.entries.filter fun e => e.1 ≠ n
      ids := release (idOf former) n c.ids }

/-- A catalog of nothing. -/
def clear (_ : Catalog) : Catalog := {}

/-- The number of annotated nodes. -/
def size (c : Catalog) : Nat := c.entries.length

/-- An entry that was put in is found. -/
@[simp] theorem find?_put_self (n : NodeId) (e : Entries) (es : List (NodeId × Entries)) :
    find? n (put n e es) = some e := by
  induction es with
  | nil => simp [put, find?]
  | cons p rest ih =>
    obtain ⟨m, old⟩ := p
    by_cases h : m = n <;> simp [put, find?, h, ih]

/-- An entry that was put in makes no difference to other nodes. -/
theorem find?_put_of_ne {n m : NodeId} (h : m ≠ n) (e : Entries)
    (es : List (NodeId × Entries)) : find? m (put n e es) = find? m es := by
  induction es with
  | nil => simp [put, find?, h.symm]
  | cons p rest ih =>
    obtain ⟨k, old⟩ := p
    by_cases hk : k = n
    · subst hk; simp [put, find?, h.symm]
    · by_cases hm : k = m <;> simp [put, find?, hk, hm, ih, h]

/-- A node that takes an id holds it. -/
@[simp] theorem holder?_assign_self (id : Value) (n : NodeId) (ids : List (Value × NodeId)) :
    holder? id (assign id n ids) = some n := by
  induction ids with
  | nil => simp [assign, holder?]
  | cons p rest ih =>
    obtain ⟨i, m⟩ := p
    by_cases h : i.canonical = id.canonical <;> simp [assign, holder?, h, ih]

end Catalog

end SchemaGraph
