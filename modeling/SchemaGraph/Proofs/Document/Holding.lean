import SchemaGraph.Proofs.Document.Tree
import SchemaGraph.Proofs.Survey.Lowering
import SchemaGraph.Proofs.Value.Shown

namespace SchemaGraph

/-!
# What stands under keywords

Documents and nodes are read level by level: what stands under a keyword is read once it is known
what the schemas in it stand for.  Whether these stand for trees or for something else makes no
difference.

* `Holding`    — what stands under a keyword
* `Json.held`  — what stands under a keyword of a document
* `Value.held` — what stands under a keyword of a node
-/

/-- What stands in place of a schema. -/
inductive Occupant (σ : Type) where
  /-- What is no schema. -/
  | data (j : Json)
  | schema (s : σ)
  /-- What cannot be shown. -/
  | broken

/-- What stands under a keyword. -/
inductive Holding (σ : Type) where
  | one (p : Occupant σ)
  | many (ps : List (Occupant σ))
  /-- Schemas by name. -/
  | named (f : String → Option (Occupant σ))

variable {σ : Type}

/-- All schemas have a property, and nothing is broken. -/
def Occupant.All (P : σ → Prop) : Occupant σ → Prop
  | .data _ => True
  | .schema s => P s
  | .broken => False

/-- All schemas have a property, and nothing is broken. -/
def Holding.All (P : σ → Prop) : Holding σ → Prop
  | .one p => p.All P
  | .many ps => ∀ p ∈ ps, p.All P
  | .named f => ∀ name p, f name = some p → p.All P

namespace Json

/-- A schema where one may stand.  What is no object is data. -/
def placed (sub : List (String × Json) → σ) : Json → Occupant σ
  | .obj ms => .schema (sub ms)
  | j => .data j

/-- What stands under a keyword, when it is known what the schemas in it stand for. -/
def held (sub : List (String × Json) → σ) : Role → Json → Holding σ
  | .schemas, .arr xs => .many (xs.map (placed sub))
  | .schemas, j => .one (placed sub j)
  | .members, .obj ms => .named fun name => (lookup? name ms).map (placed sub)
  | _, j => .one (.data j)

/-- What stands in place of a schema has a property that all schemas have. -/
theorem all_placed {P : σ → Prop} {sub : List (String × Json) → σ} (h : ∀ ms, P (sub ms))
    (j : Json) : (placed sub j).All P := by
  cases j with
  | obj ms => exact h ms
  | _ => trivial

/-- What stands under a keyword has a property that all schemas have. -/
theorem all_held {P : σ → Prop} {sub : List (String × Json) → σ} (h : ∀ ms, P (sub ms))
    (role : Role) (j : Json) : (held sub role j).All P := by
  cases role with
  | data => cases j <;> trivial
  | schemas =>
    cases j with
    | arr xs =>
      intro p hp
      obtain ⟨y, -, rfl⟩ := List.mem_map.mp hp
      exact all_placed h y
    | obj ms => exact h ms
    | _ => trivial
  | members =>
    cases j with
    | obj ms =>
      intro name p hp
      obtain ⟨y, -, rfl⟩ := Option.map_eq_some_iff.mp hp
      exact all_placed h y
    | _ => trivial

/-- What has no reference is read the same way, if schemas without references are. -/
theorem held_congr {f g : List (String × Json) → σ} {role : Role} {j : Json}
    (hfg : ∀ ms, refFree .schemas (.obj ms) = true → f ms = g ms)
    (h : refFree role j = true) : held f role j = held g role j := by
  -- A single schema under a keyword: only a mapping is read at all.
  have hplaced : ∀ x, refFree .schemas x = true → placed f x = placed g x := by
    intro x hx
    cases x with
    | obj ms => exact congrArg Occupant.schema (hfg ms hx)
    | _ => rfl
  cases role with
  | data => cases j <;> rfl
  | schemas =>
    cases j with
    | arr xs =>
      have hall := refFreeList_iff.mp h
      simp only [held, Holding.many.injEq]
      exact List.map_congr_left fun x hx => hplaced x (hall x hx)
    | obj ms => exact congrArg Holding.one (hplaced _ h)
    | _ => rfl
  | members =>
    cases j with
    | obj ms =>
      have hall := refFreeMembers_iff.mp h
      simp only [held, Holding.named.injEq]
      funext name
      cases hname : lookup? name ms with
      | none => rfl
      | some x =>
        rw [Option.map_some, Option.map_some, hplaced x (hall _ (mem_of_lookup? hname))]
    | _ => rfl

end Json

namespace Value

/-- A schema where one may stand: that of a node, or data. -/
def placed (node : NodeId → σ) (plain : List (String × Json) → σ) : Value → Occupant σ
  | .fragment n => .schema (node n)
  | v =>
    match v.toJson with
    | .ok j => j.placed plain
    | .error _ => .broken

/-- What stands under a keyword, when it is known what nodes and data stand for. -/
def held (node : NodeId → σ) (plain : List (String × Json) → σ) (role : Role)
    (v : Value) : Holding σ :=
  match v.toJson with
  | .ok j => j.held plain role
  | .error _ =>
    match role, v with
    | .schemas, .items .list xs => .many (xs.map (placed node plain))
    | .schemas, v => .one (placed node plain v)
    | .members, .dict es => .named fun name => (Entries.get? (.str name) es).map (placed node plain)
    | _, _ => .one .broken

variable {node : NodeId → σ} {plain : List (String × Json) → σ}

/-- A list that starts with the fragment of a node is no data. -/
theorem held_list {xs : List Value} (hhead : ∀ x ∈ xs.head?, ∃ n, x = .fragment n) :
    (Value.list xs).held node plain .schemas = .many (xs.map (placed node plain)) := by
  cases xs with
  | nil => rfl
  | cons x rest =>
    obtain ⟨n, rfl⟩ := hhead x rfl
    rfl

/-- Fragments of nodes by name are no data. -/
theorem held_members {es : Entries} (ht : es.Texts) (hes : ∀ p ∈ es, ∃ n, p.2 = .fragment n) :
    (Value.dict es).held node plain .members
      = .named fun name => (Entries.get? (.str name) es).map (placed node plain) := by
  cases es with
  | nil => rfl
  | cons q rest =>
    obtain ⟨k, v⟩ := q
    obtain ⟨name, rfl⟩ := ht _ (List.mem_cons_self ..)
    obtain ⟨n, rfl⟩ := hes _ (List.mem_cons_self ..)
    rfl

end Value

/-! ### Trees -/

/-- What stands in place of a schema, as a tree. -/
def Occupant.tree : Occupant Tree → Tree
  | .data j => .data j
  | .schema t => t
  | .broken => .broken

/-- What stands under a keyword, as a tree. -/
def Holding.tree : Holding Tree → Tree
  | .one p => p.tree
  | .many ps => .list (ps.map Occupant.tree)
  | .named f => .members fun name => (f name).map Occupant.tree

/-- Where all schemas are whole, so is the tree in their place. -/
theorem Occupant.All.whole {p : Occupant Tree} (h : p.All Tree.Whole) : p.tree.Whole := by
  cases p with
  | data j => exact .data j
  | schema t => exact h
  | broken => exact h.elim

/-- Where all schemas are whole trees, so is what stands under the keyword. -/
theorem Holding.All.whole {c : Holding Tree} (h : c.All Tree.Whole) : c.tree.Whole := by
  cases c with
  | one p => exact Occupant.All.whole h
  | many ps =>
    refine .list fun x hx => ?_
    obtain ⟨p, hp, rfl⟩ := List.mem_map.mp hx
    exact Occupant.All.whole (h p hp)
  | named f =>
    refine .members fun name x hx => ?_
    obtain ⟨p, hp, rfl⟩ := Option.map_eq_some_iff.mp hx
    exact Occupant.All.whole (h name p hp)

/-- The tree of what a document has in place of a schema is read off at once. -/
theorem Json.tree_placed (sub : List (String × Json) → Tree) :
    Occupant.tree ∘ Json.placed sub = Json.place sub := by
  funext j
  cases j <;> rfl

/-- Reading what stands under a keyword as a tree is making a tree of what it holds. -/
theorem Json.tree_held (sub : List (String × Json) → Tree) (role : Role) (j : Json) :
    (j.held sub role).tree = j.read sub role := by
  cases role with
  | data => cases j <;> rfl
  | schemas =>
    cases j with
    | arr xs => rw [held, Holding.tree, List.map_map, tree_placed, read]
    | _ => rfl
  | members =>
    cases j with
    | obj ms => simp only [held, Holding.tree, Option.map_map, tree_placed, read]
    | _ => rfl

/-- The tree of what a value has in place of a schema is read off at once. -/
theorem Value.tree_placed (node : NodeId → Tree) (plain : List (String × Json) → Tree) :
    Occupant.tree ∘ Value.placed node plain = Value.place node plain := by
  funext v
  cases v with
  | fragment n => rfl
  | _ =>
    simp only [Function.comp_apply, placed, place]
    generalize toJson _ = result
    cases result with
    | ok j => exact congrFun (Json.tree_placed plain) j
    | error => rfl

/-- The tree of what a value holds under a keyword is read off at once. -/
theorem Value.tree_held (node : NodeId → Tree) (plain : List (String × Json) → Tree)
    (role : Role) (v : Value) : (v.held node plain role).tree = v.read node plain role := by
  have hplaced := fun v => congrFun (tree_placed node plain) v
  unfold held read
  cases hj : v.toJson with
  | ok j => exact Json.tree_held plain role j
  | error =>
    cases role with
    | data => rfl
    | schemas =>
      cases v with
      | items form xs =>
        cases form with
        | list => rw [Holding.tree, List.map_map, tree_placed]
        | _ => exact hplaced _
      | _ => exact hplaced _
    | members =>
      cases v with
      | dict es => simp only [Holding.tree, Option.map_map, tree_placed]
      | _ => rfl

end SchemaGraph
