import SchemaGraph.Proofs.Value.Entries
import SchemaGraph.Settings

namespace SchemaGraph

/-!
# Documents as trees

A document with references stands for a tree that may be infinite.  Down to any depth the
tree is made by putting in place of every reference the keywords that it names, below the
keywords that stand beside the reference.

* `Role.of`        — under which keywords further schemas stand
* `Json.unfold`    — the tree of a document with references, down to a depth
* `Json.tree`      — the tree of a document as it stands
* `Json.unfold_of_refFree` — the two agree where there is no reference
-/

/-- What stands under a keyword. -/
inductive Role where
  | data
  /-- A schema, or a list of schemas. -/
  | schemas
  /-- Schemas by name. -/
  | members
deriving DecidableEq, Repr

/-- What stands under a keyword. -/
def Role.of (keyword : String) : Role :=
  if keyword = "properties" then .members
  else if keyword ∈ ["items", "prefixItems", "additionalItems", "additionalProperties",
      "propertyNames", "anyOf", "allOf"] then .schemas
  else .data

/-- A tree of nested keywords.  The order of keywords does not count. -/
inductive Tree where
  /-- Deeper than was asked for. -/
  | cut
  /-- A reference that leads nowhere. -/
  | broken
  | data (j : Json)
  | list (xs : List Tree)
  | members (f : String → Option Tree)

namespace Tree

/-- Nothing in the tree is broken. -/
inductive Whole : Tree → Prop
  | cut : Whole .cut
  | data (j : Json) : Whole (.data j)
  | list {xs : List Tree} (h : ∀ x ∈ xs, Whole x) : Whole (.list xs)
  | members {f : String → Option Tree} (h : ∀ name x, f name = some x → Whole x) :
      Whole (.members f)

end Tree

namespace Json

/-! ### Trees -/

/-- A schema where one may stand.  What is no object is data. -/
def place (sub : List (String × Json) → Tree) : Json → Tree
  | .obj ms => sub ms
  | j => .data j

/-- What stands under a keyword, when it is known what the schemas in it stand for. -/
def read (sub : List (String × Json) → Tree) : Role → Json → Tree
  | .schemas, .arr xs => .list (xs.map (place sub))
  | .schemas, j => place sub j
  | .members, .obj ms => .members fun name => (lookup? name ms).map (place sub)
  | _, j => .data j

/-- The tree of a schema as it stands, down to a depth. -/
def tree : Nat → List (String × Json) → Tree
  | 0, _ => .cut
  | depth + 1, ms =>
    .members fun name => (lookup? name ms).map (read (tree depth) (Role.of name))

/-- The address to which a schema refers, and the keyword that holds it.  A dialect that
    ignores all keywords beside a reference has it as the only element of `allOf`. -/
def reference? (target : Target) (ms : List (String × Json)) : Option (String × String) :=
  match lookup? "$ref" ms with
  | some (.str address) => some (address, "$ref")
  | some _ => none
  | none =>
    match target, lookup? "allOf" ms with
    | .draft7, some (.arr [.obj [("$ref", .str address)]]) => some (address, "allOf")
    | _, _ => none

/-- The keywords of a schema: those beside its reference, and below them those of the body
    that `find` gives for it.  No more than the given number of references is followed. -/
def keywords (find : String → Option (List (String × Json))) (target : Target) :
    Nat → List (String × Json) → Option (String → Option Json)
  | links, ms =>
    match reference? target ms with
    | none => some fun name => lookup? name ms
    | some (address, keyword) =>
      match links with
      | 0 => none
      | links + 1 =>
        match find address with
        | none => none
        | some body =>
          match keywords find target links body with
          | none => none
          | some below =>
            some fun name => (if name = keyword then none else lookup? name ms).or (below name)

/-- The tree that a schema with references stands for, down to a depth. -/
def unfold (find : String → Option (List (String × Json))) (target : Target) (links : Nat) :
    Nat → List (String × Json) → Tree
  | 0, _ => .cut
  | depth + 1, ms =>
    match keywords find target links ms with
    | none => .broken
    | some found =>
      .members fun name =>
        (found name).map (read (unfold find target links depth) (Role.of name))

/-! ### Schemas without references -/

mutual

/-- Whether no schema in a document has a reference. -/
def refFree (role : Role) : Json → Bool
  | .arr xs =>
    match role with
    | .schemas => refFreeList xs
    | _ => true
  | .obj ms =>
    match role with
    | .schemas => (lookup? "$ref" ms).isNone && refFreeKeywords ms
    | .members => refFreeMembers ms
    | .data => true
  | _ => true

/-- Whether no schema of a list has a reference. -/
def refFreeList : List Json → Bool
  | [] => true
  | j :: rest => refFree .schemas j && refFreeList rest

/-- Whether no schema under one of the keywords has a reference. -/
def refFreeKeywords : List (String × Json) → Bool
  | [] => true
  | (name, j) :: rest => refFree (Role.of name) j && refFreeKeywords rest

/-- Whether none of the schemas by name has a reference. -/
def refFreeMembers : List (String × Json) → Bool
  | [] => true
  | (_, j) :: rest => refFree .schemas j && refFreeMembers rest

end

/-- A list is free of references if its schemas are. -/
theorem refFreeList_iff {xs : List Json} :
    refFreeList xs = true ↔ ∀ j ∈ xs, refFree .schemas j = true := by
  induction xs with
  | nil => simp [refFreeList]
  | cons j rest ih => simp [refFreeList, ih]

/-- Keywords are free of references if what stands under each of them is, in its role. -/
theorem refFreeKeywords_iff {ms : List (String × Json)} :
    refFreeKeywords ms = true ↔ ∀ m ∈ ms, refFree (Role.of m.1) m.2 = true := by
  induction ms with
  | nil => simp [refFreeKeywords]
  | cons m rest ih => simp [refFreeKeywords, ih]

/-- Members are free of references if their schemas are. -/
theorem refFreeMembers_iff {ms : List (String × Json)} :
    refFreeMembers ms = true ↔ ∀ m ∈ ms, refFree .schemas m.2 = true := by
  induction ms with
  | nil => simp [refFreeMembers]
  | cons m rest ih => simp [refFreeMembers, ih]

variable {find : String → Option (List (String × Json))} {target : Target} {links : Nat}

/-- A schema without references refers to nothing. -/
theorem reference?_of_refFree {ms : List (String × Json)}
    (h : refFree .schemas (.obj ms) = true) : reference? target ms = none := by
  obtain ⟨hnone, hkeywords⟩ := Bool.and_eq_true_iff.mp h
  rw [Option.isNone_iff_eq_none] at hnone
  unfold reference?
  rw [hnone]
  dsimp only
  split
  · rename_i _ _ address hall
    -- the only element of `allOf` would be a schema with a reference
    have hfree := refFreeKeywords_iff.mp hkeywords _ (mem_of_lookup? hall)
    simp [Role.of, refFree, refFreeList, lookup?] at hfree
  · rfl

/-- A schema that refers to nothing is read by its own keywords. -/
theorem keywords_of_reference?_none {ms : List (String × Json)}
    (h : reference? target ms = none) :
    keywords find target links ms = some fun name => lookup? name ms := by
  unfold keywords
  rw [h]

/-- Keywords that were found stay the same when more references may be followed. -/
theorem keywords_mono {links more : Nat} (hle : links ≤ more) {ms : List (String × Json)}
    {found : String → Option Json} (h : keywords find target links ms = some found) :
    keywords find target more ms = some found := by
  -- Induction on the links: each reference costs one on both sides.
  induction links generalizing more ms found with
  | zero =>
    unfold keywords at h ⊢
    cases hreference : reference? target ms with
    | none =>
      rw [hreference] at h
      exact h
    | some reference =>
      rw [hreference] at h
      cases h
  | succ links ih =>
    obtain ⟨more, rfl⟩ : ∃ k, more = k + 1 := ⟨more - 1, by omega⟩
    unfold keywords at h ⊢
    cases hreference : reference? target ms with
    | none =>
      rw [hreference] at h
      exact h
    | some reference =>
      obtain ⟨address, keyword⟩ := reference
      simp only [hreference] at h ⊢
      cases hfind : find address with
      | none => simp only [hfind] at h; cases h
      | some body =>
        simp only [hfind] at h ⊢
        cases hbelow : keywords find target links body with
        | none => simp only [hbelow] at h; cases h
        | some below =>
          simp only [hbelow] at h
          rw [ih (by omega) hbelow]
          exact h

/-- A schema whose reference leads nowhere is broken. -/
theorem unfold_of_find?_none {depth : Nat} {ms : List (String × Json)} {address : String}
    (href : lookup? "$ref" ms = some (.str address)) (hfind : find address = none) :
    unfold find target links (depth + 1) ms = .broken := by
  have hreference : reference? target ms = some (address, "$ref") := by
    unfold reference?
    rw [href]
  have hkeywords : keywords find target links ms = none := by
    unfold keywords
    rw [hreference]
    cases links with
    | zero => rfl
    | succ links => simp only [hfind]
  rw [unfold, hkeywords]

/-! ### Whole trees -/

/-- A tree where a schema may stand is whole if trees of schemas are. -/
theorem whole_place {f : List (String × Json) → Tree} (hf : ∀ ms, (f ms).Whole) (j : Json) :
    (place f j).Whole := by
  cases j with
  | obj ms => exact hf ms
  | _ => exact .data _

/-- What is read under a keyword is whole if trees of schemas are. -/
theorem whole_read {f : List (String × Json) → Tree} (hf : ∀ ms, (f ms).Whole) (role : Role)
    (j : Json) : (read f role j).Whole := by
  cases role with
  | data => exact .data j
  | schemas =>
    cases j with
    | arr xs =>
      refine .list fun x hx => ?_
      obtain ⟨y, -, rfl⟩ := List.mem_map.mp hx
      exact whole_place hf y
    | obj ms => exact hf ms
    | _ => exact .data _
  | members =>
    cases j with
    | obj ms =>
      refine .members fun name x hx => ?_
      obtain ⟨y, -, rfl⟩ := Option.map_eq_some_iff.mp hx
      exact whole_place hf y
    | _ => exact .data _

/-- A schema as it stands is whole. -/
theorem whole_tree (depth : Nat) (ms : List (String × Json)) : (tree depth ms).Whole := by
  induction depth generalizing ms with
  | zero => exact .cut
  | succ depth ih =>
    refine .members fun name x hx => ?_
    obtain ⟨y, -, rfl⟩ := Option.map_eq_some_iff.mp hx
    exact whole_read ih _ y

/-- What is free of references is read alike by readers that agree on such schemas. -/
theorem read_congr {f g : List (String × Json) → Tree} {role : Role} {j : Json}
    (hfg : ∀ ms, refFree .schemas (.obj ms) = true → f ms = g ms)
    (h : refFree role j = true) : read f role j = read g role j := by
  -- Only objects are read further; everything else is a leaf for both readings.
  have hplace : ∀ x, refFree .schemas x = true → place f x = place g x := by
    intro x hx
    cases x with
    | obj ms => exact hfg ms hx
    | _ => rfl
  cases role with
  | data => rfl
  | schemas =>
    cases j with
    | arr xs =>
      have hall := refFreeList_iff.mp h
      simp only [read, Tree.list.injEq]
      exact List.map_congr_left fun x hx => hplace x (hall x hx)
    | obj ms => exact hplace _ h
    | _ => rfl
  | members =>
    cases j with
    | obj ms =>
      have hall := refFreeMembers_iff.mp h
      simp only [read, Tree.members.injEq]
      funext name
      cases hname : lookup? name ms with
      | none => rfl
      | some x =>
        rw [Option.map_some, Option.map_some, hplace x (hall _ (mem_of_lookup? hname))]
    | _ => rfl

/-- **Schemas without references.** They are unfolded by taking them as they stand. -/
theorem unfold_of_refFree (find : String → Option (List (String × Json))) (target : Target)
    (links : Nat) {depth : Nat} {ms : List (String × Json)}
    (h : refFree .schemas (.obj ms) = true) :
    unfold find target links depth ms = tree depth ms := by
  induction depth generalizing ms with
  | zero => rfl
  | succ depth ih =>
    obtain ⟨-, hkeywords⟩ := Bool.and_eq_true_iff.mp h
    rw [unfold, tree, keywords_of_reference?_none (reference?_of_refFree h)]
    simp only [Tree.members.injEq]
    funext name
    cases hname : lookup? name ms with
    | none => rfl
    | some x =>
      have hx := refFreeKeywords_iff.mp hkeywords _ (mem_of_lookup? hname)
      rw [Option.map_some, Option.map_some, read_congr (fun ms hms => ih hms) hx]

end Json

end SchemaGraph
