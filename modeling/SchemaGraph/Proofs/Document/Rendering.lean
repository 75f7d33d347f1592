import Mathlib.Data.List.Perm.Subperm
import SchemaGraph.Proofs.Survey.Abreast
import SchemaGraph.Proofs.Value.Renaming
import SchemaGraph.Document

namespace SchemaGraph

open SchemaGraph.Action

/-!
# Documents in two dialects

Two views that hold the same in two dialects show documents that correspond position by position.
In the second dialect a reference is the only member of its schema: where it stood beside other
keywords, it has become an element of `allOf`.

* `Json.Reworded`         — a schema in two dialects
* `Json.RewordedDocument` — a document in two dialects
* `View.Reworded`         — views that hold the same in two dialects
* `View.Reworded.document` — what is finished with them corresponds, or fails in the same way
-/

/-! ### Documents -/

namespace Json

mutual

/-- A schema in two dialects: a reference, or keywords. -/
inductive Reworded (scope : Option Addressing) : Json → Json → Prop
  | reference {ref ref' : String} (h : Readdressed scope ref ref') :
    Reworded scope (.obj [("$ref", .str ref)]) (.obj [("$ref", .str ref')])
  | object {form : Spelling} {ms ms' : List (String × Json)} (h : RewordedMembers scope form ms ms')
    (hcomplete : form = .tuple → (lookup? "prefixItems" ms).isSome) :
    Reworded scope (.obj ms) (.obj ms')

/-- The keywords of a schema in two dialects, one by one. -/
inductive RewordedMembers (scope : Option Addressing) :
    Spelling → List (String × Json) → List (String × Json) → Prop
  | nil {form : Spelling} : RewordedMembers scope form [] []
  | cons {form : Spelling} {m m' : String × Json} {ms ms' : List (String × Json)}
    (h : RewordedMember scope form m m') (hrest : RewordedMembers scope form ms ms') :
    RewordedMembers scope form (m :: ms) (m' :: ms')

/-- A keyword in two dialects.  None of them is a reference in the second one. -/
inductive RewordedMember (scope : Option Addressing) :
    Spelling → String × Json → String × Json → Prop
  | same {form : Spelling} {name : String} (hname : name ∉ dialectKeywords) (j : Json) :
    RewordedMember scope form (name, j) (name, j)
  | schema {form : Spelling} {name : String} {a b : Json}
    (hname : name ∈ ["additionalProperties", "propertyNames"]) (h : Reworded scope a b) :
    RewordedMember scope form (name, a) (name, b)
  | alternatives {form : Spelling} {xs ys : List Json} (h : List.Forall₂ (Reworded scope) xs ys) :
    RewordedMember scope form ("anyOf", .arr xs) ("anyOf", .arr ys)
  | properties {form : Spelling} {ps qs : List (String × Json)}
    (h : List.Forall₂ (RewordedProperty scope) ps qs) :
    RewordedMember scope form ("properties", .obj ps) ("properties", .obj qs)
  | items {a b : Json} (h : Reworded scope a b) :
    RewordedMember scope .common ("items", a) ("items", b)
  | sides {xs ys : List Json} (h : List.Forall₂ (Reworded scope) xs ys) :
    RewordedMember scope .common ("allOf", .arr xs) ("allOf", .arr ys)
  | leading {xs ys : List Json} (h : List.Forall₂ (Reworded scope) xs ys) :
    RewordedMember scope .tuple ("prefixItems", .arr xs) ("items", .arr ys)
  | rest {a b : Json} (h : Reworded scope a b) :
    RewordedMember scope .tuple ("items", a) ("additionalItems", b)
  | besides {ref ref' : String} (h : Readdressed scope ref ref') :
    RewordedMember scope .wrapper ("$ref", .str ref) ("allOf", .arr [.obj [("$ref", .str ref')]])

/-- A schema under a name of its own in two dialects. -/
inductive RewordedProperty (scope : Option Addressing) : String × Json → String × Json → Prop
  | intro {name : String} {a b : Json} (h : Reworded scope a b) :
    RewordedProperty scope (name, a) (name, b)

end

/-- A member of a document: a keyword of its root, the table of definitions, or the dialect. -/
inductive DocumentMember (scope : Option Addressing) (form : Spelling) :
    String × Json → String × Json → Prop
  | keyword {m m' : String × Json} (h : RewordedMember scope form m m') :
    DocumentMember scope form m m'
  | table {ds ds' : List (String × Json)} (h : List.Forall₂ (RewordedProperty scope) ds ds') :
    DocumentMember scope form ("$defs", .obj ds) ("definitions", .obj ds')
  | dialect : DocumentMember scope form ("$schema", .str Target.draft2020.schemaUri)
      ("$schema", .str Target.draft7.schemaUri)

/-- A document in two dialects. -/
inductive RewordedDocument (scope : Option Addressing) : Json → Json → Prop
  | intro {form : Spelling} {ms ms' : List (String × Json)}
    (h : List.Forall₂ (DocumentMember scope form) ms ms')
    (hcomplete : form = .tuple → (lookup? "prefixItems" ms).isSome) :
    RewordedDocument scope (.obj ms) (.obj ms')

variable {scope : Option Addressing} {form : Spelling} {ms ms' : List (String × Json)}

/-- Keywords are reworded one by one. -/
theorem rewordedMembers_iff :
    RewordedMembers scope form ms ms' ↔ List.Forall₂ (RewordedMember scope form) ms ms' := by
  constructor
  · intro h
    induction ms generalizing ms' with
    | nil =>
      cases h
      exact .nil
    | cons m rest ih =>
      cases h with
      | cons h hrest => exact .cons h (ih hrest)
  · intro h
    induction h with
    | nil => exact .nil
    | cons h _ ih => exact .cons h ih

/-! ### Members that stand once -/

/-- Members of which the names correspond: equal ones to equal ones. -/
def Paired (M : String × Json → String × Json → Prop) : Prop :=
  ∀ p q p' q', M p q → M p' q' → (p.1 = p'.1 ↔ q.1 = q'.1)

/-- Members stay related when later ones replace earlier ones of their names, if names correspond.
    -/
theorem forall₂_ofMembers {M : String × Json → String × Json → Prop} (hM : Paired M)
    (h : List.Forall₂ M ms ms') : List.Forall₂ M (ofMembers ms) (ofMembers ms') := by
  -- A name stands at the same place on both sides, or on neither.
  have hinsert : ∀ {acc acc' : List (String × Json)} {m m' : String × Json},
      List.Forall₂ M acc acc' → M m m' →
      List.Forall₂ M (insert m.1 m.2 acc) (insert m'.1 m'.2 acc') := by
    intro acc acc' m m' hacc hm
    induction hacc with
    | nil => exact .cons hm .nil
    | @cons p q rest rest' hp hrest ih =>
      have hiff := hM _ _ _ _ hp hm
      unfold insert
      by_cases hname : p.1 = m.1
      · rw [if_pos hname, if_pos (hiff.mp hname), hname, hiff.mp hname]
        exact .cons hm hrest
      · rw [if_neg hname, if_neg (mt hiff.mpr hname)]
        exact .cons hp ih
  have hfold : ∀ {acc acc' : List (String × Json)}, List.Forall₂ M acc acc' →
      List.Forall₂ M (ms.foldl (fun acc m => insert m.1 m.2 acc) acc)
        (ms'.foldl (fun acc m => insert m.1 m.2 acc) acc') := by
    induction h with
    | nil => exact id
    | cons hm _ ih => exact fun hacc => ih (hinsert hacc hm)
  exact hfold .nil

/-- A name among members is not lost. -/
theorem isSome_lookup?_ofMembers {name : String} {j : Json} (h : (name, j) ∈ ms) :
    (lookup? name (ofMembers ms)).isSome := by
  have hkeep : ∀ {acc : List (String × Json)} (m : String × Json), (lookup? name acc).isSome →
      (lookup? name (insert m.1 m.2 acc)).isSome := by
    intro acc m hacc
    by_cases hm : name = m.1
    · rw [hm, lookup?_insert_self]
      rfl
    · rwa [lookup?_insert_of_ne hm]
  -- A name is found at the end if it was found on the way or is still to come.
  have hfold : ∀ {acc : List (String × Json)},
      (lookup? name acc).isSome ∨ (∃ j, (name, j) ∈ ms) →
      (lookup? name (ms.foldl (fun acc m => insert m.1 m.2 acc) acc)).isSome := by
    clear h
    induction ms with
    | nil => exact fun h => h.resolve_right nofun
    | cons m rest ih =>
      intro acc h
      refine ih ?_
      rcases h with hacc | ⟨j, hmem⟩
      · exact .inl (hkeep m hacc)
      · rcases List.mem_cons.mp hmem with rfl | hmem
        · exact .inl (by rw [lookup?_insert_self]; rfl)
        · exact .inr ⟨j, hmem⟩
  exact hfold (.inr ⟨j, h⟩)

/-- Names correspond if they are the same, but for a few keywords that are renamed one to one. -/
theorem paired_of_names {M : String × Json → String × Json → Prop}
    (renamed : List (String × String))
    (hrenamed : ∀ a ∈ renamed, a.1 ∈ dialectKeywords ∧ a.2 ∈ dialectKeywords ∧
      ∀ b ∈ renamed, (a.1 = b.1 ↔ a.2 = b.2))
    (hM : ∀ p q, M p q → (q.1 = p.1 ∧ p.1 ∉ dialectKeywords) ∨ (p.1, q.1) ∈ renamed) :
    Paired M := by
  intro p q p' q' h h'
  rcases hM p q h with ⟨hsame, hname⟩ | hspecial <;>
    rcases hM p' q' h' with ⟨hsame', hname'⟩ | hspecial'
  · rw [hsame, hsame']
  · obtain ⟨hleft, hright, -⟩ := hrenamed _ hspecial'
    rw [hsame]
    exact ⟨fun heq => absurd (heq ▸ hleft) hname, fun heq => absurd (heq ▸ hright) hname⟩
  · obtain ⟨hleft, hright, -⟩ := hrenamed _ hspecial
    rw [hsame']
    exact ⟨fun heq => absurd (heq ▸ hleft) hname', fun heq => absurd (heq ▸ hright) hname'⟩
  · exact (hrenamed _ hspecial).2.2 _ hspecial'

/-- The special keywords in both dialects. -/
def renamed : Spelling → List (String × String)
  | .neutral => []
  | .common => [("items", "items"), ("allOf", "allOf")]
  | .tuple => [("prefixItems", "items"), ("items", "additionalItems")]
  | .wrapper => [("$ref", "allOf")]

/-- A keyword keeps its name in the second dialect, or is one of those that are renamed. -/
theorem RewordedMember.names {m m' : String × Json} (h : RewordedMember scope form m m') :
    (m'.1 = m.1 ∧ m.1 ∉ dialectKeywords) ∨ (m.1, m'.1) ∈ renamed form := by
  have hschema : ∀ name ∈ ["additionalProperties", "propertyNames"], name ∉ dialectKeywords := by
    decide
  cases h with
  | same hname _ => exact .inl ⟨rfl, hname⟩
  | schema hname _ => exact .inl ⟨rfl, hschema _ hname⟩
  | alternatives _ => exact .inl ⟨rfl, by simp [dialectKeywords]⟩
  | properties _ => exact .inl ⟨rfl, by simp [dialectKeywords]⟩
  | _ => exact .inr (by simp [renamed])

/-- The names of reworded keywords correspond. -/
theorem paired_member (form : Spelling) : Paired (RewordedMember scope form) :=
  paired_of_names (renamed form) (by cases form <;> decide) fun _ _ h => h.names

/-- The names of reworded properties correspond. -/
theorem paired_property : Paired (RewordedProperty scope) := by
  rintro _ _ _ _ ⟨_⟩ ⟨_⟩
  exact Iff.rfl

/-- The names of the members of reworded documents correspond. -/
theorem paired_document (form : Spelling) : Paired (DocumentMember scope form) := by
  refine paired_of_names (renamed form ++ [("$defs", "definitions"), ("$schema", "$schema")])
    (by cases form <;> decide) fun m m' h => ?_
  cases h with
  | keyword h => exact h.names.imp id (List.mem_append_left _)
  | table _ => exact .inr (by simp)
  | dialect => exact .inr (by simp)

end Json

/-! ### Values without pointers -/

namespace Value

/-- An entry as a member of an object. -/
def member (key v : Value) : Except NotData (String × Json) := do
  let name ← keyName key
  let value ← toJson v
  .ok (name, value)

/-- A mapping is written entry by entry. -/
theorem toJsonMembers_member (key v : Value) (rest : List (Value × Value)) :
    toJsonMembers ((key, v) :: rest) = (do
      let m ← member key v
      let ms ← toJsonMembers rest
      .ok (m :: ms)) := by
  rw [toJsonMembers, member]
  cases keyName key with
  | error f => rfl
  | ok name => cases toJson v <;> rfl

variable {enter enter' : Place → Value} {survey : Nat} {es fs : Entries}

/-- Entries that agree one by one become members that do. -/
theorem agree_members {E : Value × Value → Value × Value → Prop}
    {M : String × Json → String × Json → Prop} (h : List.Forall₂ E es fs)
    (hE : ∀ p q, E p q → Corresponds M (member p.1 (p.2.expand enter survey))
      (member q.1 (q.2.expand enter' survey))) :
    Corresponds (List.Forall₂ M) (toJsonMembers (expandEntries enter survey es))
      (toJsonMembers (expandEntries enter' survey fs)) := by
  induction h with
  | nil => exact .ok .nil
  | @cons p q es fs hp hrest ih =>
    show Corresponds _ (toJsonMembers ((p.1, _) :: _)) (toJsonMembers ((q.1, _) :: _))
    rw [toJsonMembers_member, toJsonMembers_member]
    exact (hE p q hp).bind fun m m' hm => ih.bind fun ms ms' hms => .ok (.cons hm hms)

/-- Elements that agree one by one become elements that do. -/
theorem agree_elements {R : Json → Json → Prop} {xs : List Value}
    (h : ∀ x ∈ xs, Corresponds R (x.expand enter survey).toJson (x.expand enter' survey).toJson) :
    Corresponds (List.Forall₂ R) (toJsonList (expandList enter survey xs))
      (toJsonList (expandList enter' survey xs)) := by
  induction xs with
  | nil => exact .ok .nil
  | cons x rest ih =>
    obtain ⟨hx, hrest⟩ := List.forall_mem_cons.mp h
    exact hx.bind fun a b hab => (ih hrest).bind fun as bs hall => .ok (.cons hab hall)

/-- A value under a key that is taken over. -/
theorem agree_member {key v w : Value} {R : Json → Json → Prop}
    {M : String × Json → String × Json → Prop} (h : Corresponds R v.toJson w.toJson)
    (hM : ∀ name a b, keyName key = .ok name → R a b → M (name, a) (name, b)) :
    Corresponds M (member key v) (member key w) := by
  unfold member
  cases hkey : keyName key with
  | error f => exact .error f
  | ok name => exact h.bind fun a b hab => .ok (hM name a b hkey hab)

/-! ### One layer in two dialects -/

/-- A list in two dialects. -/
theorem agree_list {R : Json → Json → Prop} {xs ys : List Value}
    (h : Corresponds (List.Forall₂ R) (toJsonList xs) (toJsonList ys)) :
    Corresponds (fun a b => ∃ as bs, a = .arr as ∧ b = .arr bs ∧ List.Forall₂ R as bs)
      (Value.list xs).toJson (Value.list ys).toJson := by
  unfold toJson
  exact h.bind fun as bs hall => .ok ⟨as, bs, rfl, rfl, hall⟩

/-- A mapping in two dialects. -/
theorem agree_dict {M : String × Json → String × Json → Prop} (hM : Json.Paired M)
    (h : Corresponds (List.Forall₂ M) (toJsonMembers es) (toJsonMembers fs)) :
    Corresponds (fun a b => ∃ ms ms', a = .obj ms ∧ b = .obj ms' ∧ List.Forall₂ M ms ms')
      (Value.dict es).toJson (Value.dict fs).toJson := by
  unfold toJson
  exact h.bind fun ms ms' hall => .ok ⟨_, _, rfl, rfl, Json.forall₂_ofMembers hM hall⟩

/-- A mapping that holds a text as key becomes an object with a member of that name. -/
theorem isSome_lookup?_toJson {name : String} (h : es.has (.str name) = true)
    {ms : List (String × Json)}
    (hms : (Value.dict (expandEntries enter survey es)).toJson = .ok (.obj ms)) :
    (Json.lookup? name ms).isSome := by
  obtain ⟨members, hmembers, hobj⟩ := toJson_dict.mp hms
  cases hobj
  obtain ⟨v, hv⟩ := Option.isSome_iff_exists.mp h
  have hmem := Entries.mem_of_get?_str hv
  -- What is left to show is about the members alone, which go along with the entries.
  clear h hv hms
  suffices hname : ∃ j, (name, j) ∈ members by
    obtain ⟨j, hj⟩ := hname
    exact Json.isSome_lookup?_ofMembers hj
  induction es generalizing members with
  | nil => cases hmem
  | cons p rest ih =>
    obtain ⟨key, x⟩ := p
    rw [expandEntries, toJsonMembers_cons] at hmembers
    obtain ⟨other, j, more, hkey, -, hmore, rfl⟩ := hmembers
    rcases List.mem_cons.mp hmem with heq | hmem
    · obtain ⟨rfl, rfl⟩ := Prod.mk.inj heq
      cases hkey
      exact ⟨j, List.mem_cons_self ..⟩
    · obtain ⟨j', hj'⟩ := ih more hmore hmem
      exact ⟨j', List.mem_cons_of_mem _ hj'⟩

/-- An entry of a table of definitions in two dialects. -/
def RewordedEntry (scope : Option Addressing) (refers : NodeId → String → Prop)
    (p q : Value × Value) : Prop :=
  q.1 = p.1 ∧ ∃ es fs : Entries, p.2 = .dict es ∧ q.2 = .dict fs ∧ es.RewordedBody scope refers fs

/-- An entry of a document: one of its root, the table of definitions, or the dialect. -/
inductive RewordedPart (scope : Option Addressing) (refers : NodeId → String → Prop)
    (form : Spelling) : Value × Value → Value × Value → Prop
  | keyword {p q : Value × Value} (h : Reworded scope refers form p q) :
    RewordedPart scope refers form p q
  | table {ds ds' : Entries} (h : List.Forall₂ (RewordedEntry scope refers) ds ds') :
    RewordedPart scope refers form ("$defs", .dict ds) ("definitions", .dict ds')
  | dialect : RewordedPart scope refers form ("$schema", .str Target.draft2020.schemaUri)
      ("$schema", .str Target.draft7.schemaUri)

section Layer

variable {scope : Option Addressing} {refers : NodeId → String → Prop} {form : Spelling}
  {p q : Value × Value}
  (hnode : ∀ n, Corresponds (Json.Reworded scope) (enter (.fragment survey n)).toJson
    (enter' (.fragment survey n)).toJson)
include hnode

/-- Where a schema or data stands, both dialects show the same. -/
theorem agree_schematic {x : Value} (h : x.Schematic) :
    Corresponds (Json.Reworded scope) (x.expand enter survey).toJson
      (x.expand enter' survey).toJson := by
  cases h with
  | fragment n => exact hnode n
  | null =>
    rw [expand_of_plain enter survey _ rfl, expand_of_plain enter' survey _ rfl]
    have hmembers : Json.RewordedMembers scope .neutral [("type", .str "null")]
        [("type", .str "null")] :=
      .cons (.same (by decide) _) .nil
    exact .ok (.object hmembers nofun)

/-- Both dialects show the same fragments, one by one. -/
theorem agree_fragments (ns : List NodeId) :
    Corresponds (fun a b => ∃ as bs, a = .arr as ∧ b = .arr bs ∧
        List.Forall₂ (Json.Reworded scope) as bs)
      ((fragments ns).expand enter survey).toJson ((fragments ns).expand enter' survey).toJson := by
  refine agree_list (agree_elements fun x hx => ?_)
  obtain ⟨n, -, rfl⟩ := List.mem_map.mp hx
  exact hnode n

/-- What stands under a key that is taken over. -/
theorem agree_held {key v : Value} (hkey : key.Neutral) (hv : Held key v) :
    Corresponds (Json.RewordedMember scope form) (member key (v.expand enter survey))
      (member key (v.expand enter' survey)) := by
  cases hv with
  | data _ hplain =>
    rw [expand_of_plain enter survey _ hplain, expand_of_plain enter' survey _ hplain]
    have hsame : Corresponds Eq v.toJson v.toJson := by
      cases v.toJson with
      | error f => exact .error f
      | ok j => exact .ok rfl
    exact agree_member hsame fun name a b hname hab => hab ▸ .same (hkey name hname) a
  | schema n hschema =>
    refine agree_member (hnode n) fun name a b hname hab => ?_
    cases hname
    exact .schema hschema hab
  | alternatives hall =>
    refine agree_member (agree_list (agree_elements fun x hx => agree_schematic hnode (hall x hx)))
      fun name a b hname hab => ?_
    obtain ⟨as, bs, rfl, rfl, hall⟩ := hab
    cases hname
    exact .alternatives hall
  -- Properties are compared name by name, and each of them stands for a node.
  | @properties es hall =>
    have hmembers : Corresponds (List.Forall₂ (Json.RewordedProperty scope))
        (toJsonMembers (expandEntries enter survey es))
        (toJsonMembers (expandEntries enter' survey es)) := by
      refine agree_members (E := fun p q => p = q ∧ ∃ n, p.2 = .fragment n)
        (List.forall₂_same.mpr fun p hp => ⟨rfl, hall p hp⟩) ?_
      rintro ⟨key, _⟩ _ ⟨rfl, n, rfl⟩
      exact agree_member (hnode n) fun name a b _ hab => .intro hab
    refine agree_member (agree_dict Json.paired_property hmembers) fun name a b hname hab => ?_
    obtain ⟨ms, ms', rfl, rfl, hall⟩ := hab
    cases hname
    exact .properties hall

variable (hrefers : ∀ n ref, refers n ref →
  enter' (.fragment survey n) = .dict [(Visit.refKey, .str ref)])
include hrefers

/-- An entry in two dialects. -/
theorem agree_entry (h : Value.Reworded scope refers form p q) :
    Corresponds (Json.RewordedMember scope form) (member p.1 (p.2.expand enter survey))
      (member q.1 (q.2.expand enter' survey)) := by
  cases h with
  | same hkey hv => exact agree_held hnode hkey hv
  | items n => exact (hnode n).bind fun a b hab => .ok (.items hab)
  | sides ns =>
    exact (agree_fragments hnode ns).bind fun a b ⟨as, bs, ha, hb, hall⟩ => by
      rw [ha, hb]
      exact .ok (.sides hall)
  | leading ns =>
    exact (agree_fragments hnode ns).bind fun a b ⟨as, bs, ha, hb, hall⟩ => by
      rw [ha, hb]
      exact .ok (.leading hall)
  | rest n => exact (hnode n).bind fun a b hab => .ok (.rest hab)
  -- The reference itself on one side, a list with a fragment that is one on the other.
  | @besides target ref ref' haddress ht =>
    have hwrapped : ((Value.list [.fragment target]).expand enter' survey).toJson =
        .ok (.arr [.obj [("$ref", .str ref')]]) := by
      show (Value.list [enter' (.fragment survey target)]).toJson = _
      rw [hrefers target ref' ht]
      rfl
    show Corresponds _ (member (.str "$ref") (.str ref)) (member (.str "allOf") _)
    unfold member
    rw [hwrapped]
    exact .ok (.besides haddress)

/-- The keywords of a schema in two dialects. -/
theorem agree_body (h : es.Reworded scope refers form fs)
    (hcomplete : form = .tuple → es.has (.str "prefixItems") = true) :
    Corresponds (Json.Reworded scope) (Value.dict (expandEntries enter survey es)).toJson
      (Value.dict (expandEntries enter' survey fs)).toJson := by
  have hmembers := agree_members h fun p q hp => agree_entry hnode hrefers hp
  have hobjects := agree_dict (Json.paired_member form) hmembers
  generalize hx : (Value.dict (expandEntries enter survey es)).toJson = x at hobjects ⊢
  generalize (Value.dict (expandEntries enter' survey fs)).toJson = y at hobjects ⊢
  cases hobjects with
  | error f => exact .error f
  | ok hab =>
    obtain ⟨ms, ms', rfl, rfl, hall⟩ := hab
    refine .ok (.object (Json.rewordedMembers_iff.mpr hall) fun hform => ?_)
    exact isSome_lookup?_toJson (hcomplete hform) hx

/-- A table of definitions in two dialects. -/
theorem agree_table {ds ds' : Entries} (h : List.Forall₂ (RewordedEntry scope refers) ds ds') :
    Corresponds (fun a b => ∃ ps qs, a = .obj ps ∧ b = .obj qs ∧
        List.Forall₂ (Json.RewordedProperty scope) ps qs)
      (Value.dict (expandEntries enter survey ds)).toJson
      (Value.dict (expandEntries enter' survey ds')).toJson := by
  refine agree_dict Json.paired_property (agree_members h ?_)
  rintro ⟨key, _⟩ ⟨_, _⟩ ⟨rfl, es, fs, rfl, rfl, form, hbody, hcomplete⟩
  exact agree_member (agree_body hnode hrefers hbody hcomplete) fun name a b _ hab => .intro hab

/-- An entry of a document in two dialects. -/
theorem agree_part (h : RewordedPart scope refers form p q) :
    Corresponds (Json.DocumentMember scope form) (member p.1 (p.2.expand enter survey))
      (member q.1 (q.2.expand enter' survey)) := by
  cases h with
  | keyword h => exact (agree_entry hnode hrefers h).imp fun _ _ => .keyword
  | table h =>
    exact (agree_table hnode hrefers h).bind fun a b ⟨ps, qs, ha, hb, hall⟩ => by
      rw [ha, hb]
      exact .ok (.table hall)
  | dialect => exact .ok .dialect

end Layer

end Value

/-! ### Views -/

/-- Views that hold the same in two dialects.  Only the nodes among the given ones hold
    something. -/
structure View.Reworded (scope : Option Addressing) (refers : NodeId → String → Prop)
    (among : List NodeId) (view other : View) : Prop where
  survey : other.survey = view.survey
  size : other.size = view.size
  fragment : ∀ n, Entries.RewordedFragment scope refers (view.fragment view.survey n)
    (other.fragment view.survey n)
  reference : ∀ n ref, refers n ref →
    n ∈ among ∧ other.fragment view.survey n = [(Visit.refKey, .str ref)]
  blank : ∀ n, n ∉ among → view.fragment view.survey n = []
  room : among.length ≤ view.size

namespace View.Reworded

variable {scope : Option Addressing} {refers : NodeId → String → Prop} {among : List NodeId}
  {view other : View}

/-- What is entered agrees, and what a node refers to is entered as a reference.  The nodes on the
    path hold something, and are no references; so below them there is room for a reference. -/
theorem agree_enter (h : View.Reworded scope refers among view other) (depth : Nat)
    (path : List NodeId)
    (hsub : path ⊆ among) (hnodup : path.Nodup)
    (hpath : ∀ m ∈ path, ∀ ref, ¬ refers m ref) (hdepth : among.length < depth + path.length) :
    (∀ n, Corresponds (Json.Reworded scope)
      (view.enter (fun _ => false) depth (path.map (.fragment view.survey))
        (.fragment view.survey n)).toJson
      (other.enter (fun _ => false) depth (path.map (.fragment view.survey))
        (.fragment view.survey n)).toJson) ∧
    ∀ n ref, refers n ref →
      other.enter (fun _ => false) depth (path.map (.fragment view.survey))
        (.fragment view.survey n) = .dict [(Visit.refKey, .str ref)] := by
  -- Induction on the depth, which is enough for all nodes off the path.
  induction depth generalizing path with
  | zero =>
    have hlength := (hnodup.subperm hsub).length_le
    omega
  | succ depth ih =>
    have hplace : ∀ {n}, n ∉ path →
        ¬ (Place.fragment view.survey n ∈ path.map (.fragment view.survey) || false) = true := by
      intro n hn
      simpa using hn
    constructor
    · intro n
      unfold View.enter
      -- A node on the path leads back to itself, in both dialects.
      by_cases hmem : n ∈ path
      · rw [if_pos (by simpa using hmem), if_pos (by simpa using hmem)]
        exact .error NotData.circular
      rw [if_neg (hplace hmem), if_neg (hplace hmem), content, content]
      have hn := h.fragment n
      generalize hes : view.fragment view.survey n = es at hn
      generalize hfs : other.fragment view.survey n = fs at hn
      cases hn with
      | reference haddress => exact .ok (.reference haddress)
      | body hbody =>
        obtain ⟨form, hbody, hcomplete⟩ := hbody
        rcases es with _ | ⟨p, es⟩
        · cases hbody
          have hmembers : Json.RewordedMembers scope .neutral [] [] := .nil
          exact .ok (.object hmembers fun htuple => by cases htuple)
        have hn : n ∈ among := by
          by_contra hn
          rw [h.blank n hn] at hes
          cases hes
        -- A body is no reference, so its node may join the path.
        have hno : ∀ ref, ¬ refers n ref := by
          intro ref href
          have hnone := hbody.get?_ref
          rw [← hfs, (h.reference n ref href).2] at hnone
          cases hnone
        have hdepth' : among.length < depth + (n :: path).length := by
          rw [List.length_cons]
          omega
        obtain ⟨hbelow, hrefers⟩ := ih (n :: path) (List.cons_subset.mpr ⟨hn, hsub⟩)
          (List.nodup_cons.mpr ⟨hmem, hnodup⟩) (List.forall_mem_cons.mpr ⟨hno, hpath⟩) hdepth'
        exact Value.agree_body hbelow hrefers hbody hcomplete
    · intro m ref hm
      have hout : m ∉ path := fun hmem => hpath m hmem ref hm
      unfold View.enter
      rw [if_neg (hplace hout), content, (h.reference m ref hm).2]
      rfl

end View.Reworded

/-! ### Documents as a whole -/

/-- An emission in another dialect. -/
def Emission.inDialect (e : Emission) (target : Target) : Emission := { e with target }

/-- The table of definitions and the dialect come behind the keywords of a root that has neither. -/
theorem Emission.assemble_eq {e : Emission} {s : Survey} {table : List (Value × NodeId)}
    (htable : (s.definition e.root).get? (.str e.target.definitionsKeyword) = none)
    (hschema : (s.definition e.root).get? "$schema" = none) :
    e.assemble s table = s.definition e.root ++
      (if table.isEmpty then []
        else [(.str e.target.definitionsKeyword, .dict (tableEntries s table))]) ++
      [(.str "$schema", .str e.target.schemaUri)] := by
  unfold assemble
  dsimp only
  split
  · rw [Entries.set_of_get?_none hschema, List.append_nil]
  · have hapart : "$schema" ≠ e.target.definitionsKeyword := by
      cases e.target <;> decide
    rw [Entries.set_of_get?_none (by rw [Entries.get?_set_str, if_neg hapart, hschema]),
      Entries.set_of_get?_none htable]

namespace View.Reworded

variable {scope : Option Addressing} {refers : NodeId → String → Prop} {among : List NodeId}
  {view other : View}
  {e : Emission} {s t : Survey}

/-- A table of definitions in two dialects. -/
theorem tableEntries_reworded (table : List (Value × NodeId))
    (hbodies : ∀ n, (s.definition n).RewordedBody scope refers (t.definition n)) :
    List.Forall₂ (Value.RewordedEntry scope refers) (Emission.tableEntries s table)
      (Emission.tableEntries t table) := by
  refine List.forall₂_map_left_iff.mpr (List.forall₂_map_right_iff.mpr ?_)
  exact List.forall₂_same.mpr fun p _ => ⟨rfl, _, _, rfl, rfl, hbodies p.2⟩

/-- The keywords of a document in two dialects. -/
theorem assemble_reworded (table : List (Value × NodeId)) (htarget : e.target = .draft2020)
    (hbodies : ∀ n, (s.definition n).RewordedBody scope refers (t.definition n)) :
    ∃ form, List.Forall₂ (Value.RewordedPart scope refers form) (e.assemble s table)
        ((e.inDialect .draft7).assemble t table) ∧
      (form = .tuple → (e.assemble s table).has (.str "prefixItems") = true) := by
  obtain ⟨form, hbody, hcomplete⟩ := hbodies e.root
  -- No body has a key of the document, so the document has each of them once.
  have hnone : ∀ name ∈ ["$defs", "definitions", "$schema"],
      (s.definition e.root).get? (.str name) = none ∧
        (t.definition e.root).get? (.str name) = none := fun _ => hbody.get?_documentKey
  have hleft : (s.definition e.root).get? (.str e.target.definitionsKeyword) = none := by
    rw [htarget]
    exact (hnone "$defs" (by decide)).1
  refine ⟨form, ?_, fun hform => Entries.has_set ?_ _ _⟩
  · rw [Emission.assemble_eq hleft (hnone "$schema" (by decide)).1,
      Emission.assemble_eq (e := e.inDialect .draft7) (hnone "definitions" (by decide)).2
        (hnone "$schema" (by decide)).2, htarget]
    refine List.rel_append (List.rel_append (List.Forall₂.imp (fun _ _ => .keyword) hbody) ?_)
      (.cons .dialect .nil)
    split
    · exact .nil
    · exact .cons (.table (tableEntries_reworded table hbodies)) .nil
  · split
    · exact hcomplete hform
    · exact Entries.has_set (hcomplete hform) _ _

/-- What is entered from outside agrees, and what a node refers to is entered as a reference. -/
theorem agree_outside (h : View.Reworded scope refers among view other) :
    (∀ n, Corresponds (Json.Reworded scope)
      (view.enter (fun _ => false) (view.size + 1) [] (.fragment view.survey n)).toJson
      (other.enter (fun _ => false) (view.size + 1) [] (.fragment view.survey n)).toJson) ∧
    ∀ n ref, refers n ref →
      other.enter (fun _ => false) (view.size + 1) [] (.fragment view.survey n) =
        .dict [(Visit.refKey, .str ref)] := by
  have hall := h.agree_enter (view.size + 1) [] nofun .nil nofun (Nat.lt_succ_of_le h.room)
  rwa [List.map_nil] at hall

/-- **Documents.** What is put together for a root shows documents that correspond, or fails to in
    the same way. -/
theorem agree_document (h : View.Reworded scope refers among view other)
    (table : List (Value × NodeId)) (htarget : e.target = .draft2020)
    (hbodies : ∀ n, (s.definition n).RewordedBody scope refers (t.definition n)) :
    Corresponds (Json.RewordedDocument scope) (view.settle (.dict (e.assemble s table))).toJson
      (other.settle (.dict ((e.inDialect .draft7).assemble t table))).toJson := by
  obtain ⟨form, hparts, hcomplete⟩ := assemble_reworded table htarget hbodies
  obtain ⟨hnode, hrefers⟩ := h.agree_outside
  show Corresponds _ (Value.dict (Value.expandEntries (view.enter _ _ _) _ _)).toJson
    (Value.dict (Value.expandEntries (other.enter _ _ _) _ _)).toJson
  rw [h.survey, h.size]
  have hmembers := Value.agree_members hparts fun p q => Value.agree_part hnode hrefers
  have hobjects := Value.agree_dict (Json.paired_document form) hmembers
  generalize hx : (Value.dict _).toJson = x at hobjects ⊢
  generalize (Value.dict _).toJson = y at hobjects ⊢
  cases hobjects with
  | error f => exact .error f
  | ok hab =>
    obtain ⟨ms, ms', rfl, rfl, hall⟩ := hab
    exact .ok (.intro hall fun hform => Value.isSome_lookup?_toJson (hcomplete hform) hx)

/-- **Tables.** The common definitions show tables that correspond, or fail to in the same way. -/
theorem agree_common (h : View.Reworded scope refers among view other)
    (table : List (Value × NodeId))
    (hbodies : ∀ n, (s.definition n).RewordedBody scope refers (t.definition n)) :
    Corresponds (fun a b => ∃ ps qs, a = .obj ps ∧ b = .obj qs ∧
        List.Forall₂ (Json.RewordedProperty scope) ps qs)
      (view.settle (.dict (Emission.tableEntries s table))).toJson
      (other.settle (.dict (Emission.tableEntries t table))).toJson := by
  obtain ⟨hnode, hrefers⟩ := h.agree_outside
  show Corresponds _ (Value.dict (Value.expandEntries (view.enter _ _ _) _ _)).toJson
    (Value.dict (Value.expandEntries (other.enter _ _ _) _ _)).toJson
  rw [h.survey, h.size]
  exact Value.agree_table hnode hrefers (tableEntries_reworded table hbodies)

end View.Reworded

end SchemaGraph
