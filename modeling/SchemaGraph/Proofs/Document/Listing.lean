import SchemaGraph.Document
import SchemaGraph.Proofs.Document.Meaning

namespace SchemaGraph

/-!
# Tables of definitions

A document that stands alone lists its definitions in a table.  The address of a definition is
a pointer into the document: the names of the members that lead to it.  Followed in the
finished document, it leads to the members that show the body of the definition.

* `Json.pointer?` — the names of the members along which an address leads
* `Json.inside?`  — the body to which a reference inside a document leads
* `Survey.Told`, `Survey.Addressable` — the ids of definitions can be told apart, and stand in
  pointers as they are
* `Emission.inside?_listed` — the address of a listed definition leads to its body
-/

namespace Json

/-! ### Pointers -/

/-- A name in a pointer, with the signs that stand for `/` and `~` replaced. -/
def unescape : List Char → List Char
  | '~' :: '1' :: rest => '/' :: unescape rest
  | '~' :: '0' :: rest => '~' :: unescape rest
  | c :: rest => c :: unescape rest
  | [] => []

/-- The names of the members along which an address leads from the document that it is in. -/
def pointer? (address : String) : Option (List String) :=
  match address.toList.splitOn '/' with
  | ['#'] :: tokens => some (tokens.map fun token => String.ofList (unescape token))
  | _ => none

/-- What members of members lead to. -/
def along? : List String → Json → Option Json
  | [], j => some j
  | name :: rest, j => (j.member? name).bind (along? rest)

/-- The members of a document that describe its root: all but its dialect and its table. -/
def content (target : Target) : Json → List (String × Json)
  | .obj ms => ms.filter fun m => m.1 ≠ "$schema" && m.1 ≠ target.definitionsKeyword
  | _ => []

/-- The object to which an address inside a document leads. -/
def object? (doc : Json) (address : String) : Option (List (String × Json)) :=
  match (pointer? address).bind (along? · doc) with
  | some (.obj ms) => some ms
  | _ => none

/-- The body to which a reference inside a document leads: the document itself, or an object in
    it. -/
def inside? (target : Target) (doc : Json) (address : String) :
    Option (List (String × Json)) :=
  match pointer? address with
  | some [] => some (doc.content target)
  | _ => doc.object? address

/-- Nothing is replaced in a name without `~`. -/
theorem unescape_of_not_mem {cs : List Char} (h : '~' ∉ cs) : unescape cs = cs := by
  induction cs with
  | nil => rfl
  | cons c rest ih =>
    obtain ⟨hc, hrest⟩ := not_or.mp (mt List.mem_cons.mpr h)
    unfold unescape
    split <;> simp_all

/-- The address of an entry in the table of a document leads through the table to the entry. -/
theorem pointer?_definitionAddress (target : Target) {id : String} (hslash : '/' ∉ id.toList)
    (htilde : '~' ∉ id.toList) :
    pointer? (Emission.definitionAddress target "" (.str id))
      = some [target.definitionsKeyword, id] := by
  have hkeyword : '/' ∉ target.definitionsKeyword.toList ∧
      '~' ∉ target.definitionsKeyword.toList := by
    cases target <;> decide
  have hlist : (Emission.definitionAddress target "" (.str id)).toList
      = ['#'] ++ '/' :: (target.definitionsKeyword.toList ++ '/' :: id.toList) := by
    simp [Emission.definitionAddress, Value.plain]
  have hsplit : (Emission.definitionAddress target "" (.str id)).toList.splitOn '/'
      = [['#'], target.definitionsKeyword.toList, id.toList] := by
    rw [hlist, List.splitOn_append_cons_self_of_not_mem (by decide),
      List.splitOn_append_cons_self_of_not_mem hkeyword.1, List.splitOn_eq_singleton hslash]
  unfold pointer?
  rw [hsplit]
  simp [unescape_of_not_mem hkeyword.2, unescape_of_not_mem htilde]

/-- The address of an entry in a table leads to the entry. -/
theorem object?_definitionAddress {target : Target} {ds ms body : List (String × Json)}
    {id : String} (hslash : '/' ∉ id.toList) (htilde : '~' ∉ id.toList)
    (htable : lookup? target.definitionsKeyword ds = some (.obj ms))
    (hbody : lookup? id ms = some (.obj body)) :
    object? (.obj ds) (Emission.definitionAddress target "" (.str id)) = some body := by
  have halong : along? [target.definitionsKeyword, id] (.obj ds) = some (.obj body) := by
    simp [along?, member?, htable, hbody]
  unfold object?
  rw [pointer?_definitionAddress target hslash htilde, Option.bind_some, halong]

/-- A member that is kept is found among those that are kept. -/
theorem lookup?_filter {keep : String × Json → Bool} {name : String}
    (hkeep : ∀ j, keep (name, j) = true) (ms : List (String × Json)) :
    lookup? name (ms.filter keep) = lookup? name ms := by
  induction ms with
  | nil => rfl
  | cons m rest ih =>
    obtain ⟨k, v⟩ := m
    by_cases hk : k = name
    · subst hk
      rw [List.filter_cons_of_pos (hkeep v), lookup?, lookup?, if_pos rfl, if_pos rfl]
    · rw [List.filter_cons, lookup?, if_neg hk, ← ih]
      split
      · rw [lookup?, if_neg hk]
      · rfl

/-- A member that is dropped is not found. -/
theorem lookup?_filter_eq_none {keep : String × Json → Bool} {name : String}
    (hdrop : ∀ j, keep (name, j) = false) (ms : List (String × Json)) :
    lookup? name (ms.filter keep) = none := by
  refine lookup?_eq_none fun m hm hname => ?_
  have hkept := (List.mem_filter.mp hm).2
  obtain ⟨k, j⟩ := m
  obtain rfl : k = name := hname
  rw [hdrop] at hkept
  cases hkept

/-- What describes the root keeps every member but the dialect and the table. -/
theorem lookup?_content {target : Target} {name : String} {ms : List (String × Json)}
    (hschema : name ≠ "$schema") (htable : name ≠ target.definitionsKeyword) :
    lookup? name (content target (.obj ms)) = lookup? name ms :=
  lookup?_filter (fun _ => by simp [hschema, htable]) ms

/-- What describes the root holds neither the dialect nor the table. -/
theorem lookup?_content_eq_none {target : Target} {name : String} {ms : List (String × Json)}
    (h : name = "$schema" ∨ name = target.definitionsKeyword) :
    lookup? name (content target (.obj ms)) = none := by
  refine lookup?_filter_eq_none (fun _ => ?_) ms
  rcases h with rfl | rfl <;> simp

end Json

/-! ### Ids -/

/-- The ids of definitions are texts, and no two definitions have the same one. -/
structure Survey.Told (s : Survey) : Prop where
  text : ∀ p ∈ s.visits, p.2.definitionId.isTruthy → ∃ id, p.2.definitionId = .str id
  distinct : ∀ p ∈ s.visits, ∀ q ∈ s.visits, p.2.definitionId.isTruthy →
    q.2.definitionId = p.2.definitionId → q.1 = p.1

/-- The ids of definitions are texts that can stand in a pointer as they are, and no two
    definitions have the same one. -/
structure Survey.Addressable (s : Survey) : Prop where
  text : ∀ p ∈ s.visits, p.2.definitionId.isTruthy →
    ∃ id, p.2.definitionId = .str id ∧ '/' ∉ id.toList ∧ '~' ∉ id.toList
  distinct : ∀ p ∈ s.visits, ∀ q ∈ s.visits, p.2.definitionId.isTruthy →
    q.2.definitionId = p.2.definitionId → q.1 = p.1

/-- Ids that can be addressed are told apart. -/
theorem Survey.Addressable.told {s : Survey} (h : s.Addressable) : s.Told where
  text p hp htruthy := by
    obtain ⟨id, hid, -⟩ := h.text p hp htruthy
    exact ⟨id, hid⟩
  distinct := h.distinct

/-- A visit that is found stands in the table of visits. -/
theorem Survey.mem_visits {s : Survey} {n : NodeId} {v : Visit} (h : s.visit? n = some v) :
    (n, v) ∈ s.visits := by
  unfold visit? at h
  generalize s.visits = visits at h ⊢
  induction visits with
  | nil => cases h
  | cons p rest ih =>
    obtain ⟨m, w⟩ := p
    unfold find? at h
    split at h
    · rename_i hm
      cases h
      exact hm ▸ List.mem_cons_self ..
    · exact List.mem_cons_of_mem _ (ih h)

namespace Emission

variable {survey : Survey} {visits : List (NodeId × Visit)} {table : List (Value × NodeId)}

/-! ### Tables -/

/-- An id that is given to a node takes the body of its definition. -/
theorem tableEntries_assign (id : Value) (n : NodeId) :
    tableEntries survey (Catalog.assign id n table)
      = (tableEntries survey table).set id (.dict (survey.definition n)) := by
  induction table with
  | nil => rfl
  | cons p rest ih =>
    obtain ⟨i, m⟩ := p
    by_cases h : i.canonical = id.canonical
    · simp [tableEntries, Catalog.assign, Entries.set, h]
    · simpa [tableEntries, Catalog.assign, Entries.set, h] using ih

/-- What listing does with its first visit: it gives the id to the node, stops at an id that cannot
    be a key, or passes over what is no definition with an id. -/
theorem listed_cases (n : NodeId) (v : Visit) (rest : List (NodeId × Visit))
    (table : List (Value × NodeId)) :
    ((v.definition.isSome ∧ v.definitionId.isTruthy) ∧
      listed ((n, v) :: rest) table = listed rest (Catalog.assign v.definitionId n table)) ∨
    (v.definitionId.isHashable = false ∧
      listed ((n, v) :: rest) table = (table, some .misuse)) ∨
    (¬(v.definition.isSome ∧ v.definitionId.isTruthy) ∧
      listed ((n, v) :: rest) table = listed rest table) := by
  by_cases hlists : v.definition.isSome ∧ v.definitionId.isTruthy
  · by_cases hkey : v.definitionId.isHashable
    · refine .inl ⟨hlists, ?_⟩
      conv_lhs => unfold listed
      rw [if_pos hlists, if_pos hkey]
    · refine .inr (.inl ⟨Bool.eq_false_iff.mpr hkey, ?_⟩)
      unfold listed
      rw [if_pos hlists, if_neg hkey]
  · refine .inr (.inr ⟨hlists, ?_⟩)
    conv_lhs => unfold listed
    rw [if_neg hlists]

/-- A property of tables that no definition breaks holds of the whole listing. -/
theorem tableEntries_listed {P : Entries → Prop}
    (hset : ∀ p ∈ visits, p.2.definitionId.isTruthy → ∀ e,
      P e → P (e.set p.2.definitionId (.dict (survey.definition p.1))))
    (htable : P (tableEntries survey table)) :
    P (tableEntries survey (listed visits table).1) := by
  induction visits generalizing table with
  | nil => exact htable
  | cons p rest ih =>
    obtain ⟨n, v⟩ := p
    have hrest := fun q hq => hset q (List.mem_cons_of_mem _ hq)
    obtain ⟨hlists, h⟩ | ⟨-, h⟩ | ⟨-, h⟩ := listed_cases n v rest table
    · rw [h]
      refine ih hrest ?_
      rw [tableEntries_assign]
      exact hset _ (List.mem_cons_self ..) hlists.2 _ htable
    · rw [h]
      exact htable
    · rw [h]
      exact ih hrest htable

/-- What is listed under an id before stays, if no other node has the id. -/
theorem get?_tableEntries_of_held {n : NodeId} {id : String}
    (htext : ∀ p ∈ visits, p.2.definitionId.isTruthy → ∃ id, p.2.definitionId = .str id)
    (hone : ∀ p ∈ visits, p.2.definitionId = .str id → p.1 = n)
    (hheld : (tableEntries survey table).get? (.str id) = some (.dict (survey.definition n))) :
    (tableEntries survey (listed visits table).1).get? (.str id)
      = some (.dict (survey.definition n)) := by
  refine tableEntries_listed
    (P := fun e => e.get? (.str id) = some (.dict (survey.definition n)))
    (fun p hp htruthy e he => ?_) hheld
  obtain ⟨other, hother⟩ := htext p hp htruthy
  rw [hother, Entries.get?_set_str]
  split
  · rename_i hid
    rw [hone p hp (hid ▸ hother)]
  · exact he

/-- In a listing that was not broken off, every definition stands under its id, if no other node
    has the same. -/
theorem get?_tableEntries_listed (hstop : (listed visits table).2 = none)
    (htext : ∀ p ∈ visits, p.2.definitionId.isTruthy → ∃ id, p.2.definitionId = .str id)
    {n : NodeId} {v : Visit} {id : String} (hmem : (n, v) ∈ visits)
    (hdefined : v.definition.isSome) (hid : v.definitionId = .str id) (htruthy : id ≠ "")
    (hone : ∀ p ∈ visits, p.2.definitionId = .str id → p.1 = n) :
    (tableEntries survey (listed visits table).1).get? (.str id)
      = some (.dict (survey.definition n)) := by
  induction visits generalizing table with
  | nil => cases hmem
  | cons p rest ih =>
    obtain ⟨m, w⟩ := p
    have htext' := fun q hq => htext q (List.mem_cons_of_mem _ hq)
    have hone' := fun q hq => hone q (List.mem_cons_of_mem _ hq)
    have hlisted : v.definitionId.isTruthy = true := by
      rw [hid]
      simpa [Value.isTruthy] using htruthy
    obtain ⟨-, hlist⟩ | ⟨-, hlist⟩ | ⟨hother, hlist⟩ := listed_cases m w rest table
    · rw [hlist] at hstop ⊢
      -- Either `n` comes first, and keeps its place, or it is listed later.
      rcases List.mem_cons.mp hmem with h | h
      · cases h
        refine get?_tableEntries_of_held htext' hone' ?_
        rw [tableEntries_assign, hid, Entries.get?_set_self]
      · exact ih hstop htext' h hone'
    · rw [hlist] at hstop
      cases hstop
    · rw [hlist] at hstop ⊢
      refine ih hstop htext' ((List.mem_cons.mp hmem).resolve_left fun h => hother ?_) hone'
      cases h
      exact ⟨hdefined, hlisted⟩

/-- A table lists the definitions of a survey: each one that has an id stands under it. -/
structure Tabled (survey : Survey) (table : List (Value × NodeId)) : Prop where
  texts : (tableEntries survey table).Texts
  distinct : (tableEntries survey table).Distinct
  entry : ∀ {n v id}, survey.visit? n = some v → v.definition.isSome →
    v.definitionId = .str id → (Value.str id).isTruthy = true →
    (tableEntries survey table).get? (.str id) = some (.dict (survey.definition n))
  origin : ∀ p ∈ table, ∃ v, (p.2, v) ∈ survey.visits ∧ v.definition.isSome

/-- Assigning an id adds at most the node to a table. -/
theorem mem_assign {id : Value} {n : NodeId} {p : Value × NodeId}
    (h : p ∈ Catalog.assign id n table) : p.2 = n ∨ p ∈ table := by
  induction table with
  | nil =>
    rw [List.mem_singleton.mp h]
    exact .inl rfl
  | cons q rest ih =>
    obtain ⟨i, m⟩ := q
    unfold Catalog.assign at h
    split at h
    · rcases List.mem_cons.mp h with rfl | h
      · exact .inl rfl
      · exact .inr (List.mem_cons_of_mem _ h)
    · rcases List.mem_cons.mp h with rfl | h
      · exact .inr (List.mem_cons_self ..)
      · exact (ih h).imp_right (List.mem_cons_of_mem _)

/-- A listing adds nothing but definitions with an id. -/
theorem mem_listed {p : Value × NodeId} (h : p ∈ (listed visits table).1) :
    p ∈ table ∨ ∃ v, (p.2, v) ∈ visits ∧ v.definition.isSome ∧ v.definitionId.isTruthy := by
  induction visits generalizing table with
  | nil => exact .inl h
  | cons q rest ih =>
    obtain ⟨n, v⟩ := q
    have hrest : (∃ v, (p.2, v) ∈ rest ∧ v.definition.isSome ∧ v.definitionId.isTruthy) →
        ∃ w, (p.2, w) ∈ (n, v) :: rest ∧ w.definition.isSome ∧ w.definitionId.isTruthy :=
      fun ⟨w, hw, hlisted⟩ => ⟨w, List.mem_cons_of_mem _ hw, hlisted⟩
    obtain ⟨hlists, hlist⟩ | ⟨-, hlist⟩ | ⟨-, hlist⟩ := listed_cases n v rest table
    · rw [hlist] at h
      rcases ih h with h | h
      · -- What was assigned is the pair of this node, or stood in the table.
        rcases mem_assign h with hn | h
        · exact .inr ⟨v, hn ▸ List.mem_cons_self .., hlists⟩
        · exact .inl h
      · exact .inr (hrest h)
    · rw [hlist] at h
      exact .inl h
    · rw [hlist] at h
      exact (ih h).imp_right hrest

/-- A listing leaves out no definition that has an id. -/
theorem listed_ne_nil {visits : List (NodeId × Visit)} {table : List (Value × NodeId)}
    (h : table ≠ [] ∨ ∃ q ∈ visits, q.2.definition.isSome ∧ q.2.definitionId.isTruthy)
    (hstop : (listed visits table).2 = none) : (listed visits table).1 ≠ [] := by
  induction visits generalizing table with
  | nil =>
    rcases h with h | ⟨q, hq, -⟩
    · exact h
    · cases hq
  | cons q rest ih =>
    obtain ⟨n, v⟩ := q
    obtain ⟨-, hlist⟩ | ⟨-, hlist⟩ | ⟨hother, hlist⟩ := listed_cases n v rest table
    · rw [hlist] at hstop ⊢
      -- Assigning an id leaves no empty table.
      refine ih (.inl ?_) hstop
      unfold Catalog.assign
      split
      · exact List.cons_ne_nil _ _
      · split <;> exact List.cons_ne_nil _ _
    · rw [hlist] at hstop
      cases hstop
    · rw [hlist] at hstop ⊢
      refine ih (h.imp_right ?_) hstop
      rintro ⟨q, hq, hdefined⟩
      rcases List.mem_cons.mp hq with rfl | hq
      · exact absurd hdefined hother
      · exact ⟨q, hq, hdefined⟩

/-- What a listing makes of a table that is well formed lists all definitions. -/
theorem tabled_listed (htold : survey.Told)
    (hstop : (listed survey.visits table).2 = none) (ht : (tableEntries survey table).Texts)
    (hd : (tableEntries survey table).Distinct)
    (horigin : ∀ p ∈ table, ∃ v, (p.2, v) ∈ survey.visits ∧ v.definition.isSome) :
    Tabled survey (listed survey.visits table).1 := by
  refine ⟨?_, ?_, fun {n v id} hn hdefined hid htruthy => ?_,
    fun p hp => (mem_listed hp).elim (horigin p) fun ⟨v, hv, hdefined, _⟩ => ⟨v, hv, hdefined⟩⟩
  · refine tableEntries_listed (fun p hp hp' es hes => ?_) ht
    obtain ⟨s, hs⟩ := htold.text p hp hp'
    rw [hs]
    exact hes.set s _
  · exact tableEntries_listed (fun p _ _ es hes => hes.set _ _) hd
  · have hmem := Survey.mem_visits hn
    have hne : id ≠ "" := by
      rintro rfl
      cases htruthy
    refine get?_tableEntries_listed hstop htold.text hmem hdefined hid hne fun p hp hp' => ?_
    exact htold.distinct _ hmem p hp (hid ▸ htruthy) (hp'.trans hid.symm)

/-- Under the id of a definition, what shows a table has the members that show its body. -/
theorem Tabled.lookup? (h : Tabled survey table) {view : View} {ms : List (String × Json)}
    (hms : view.ShowsEntries (tableEntries survey table) ms) {n : NodeId} {id : String}
    (hget : (tableEntries survey table).get? (.str id) = some (.dict (survey.definition n)))
    (ht : (survey.definition n).Texts) (hd : (survey.definition n).Distinct) :
    ∃ body, Json.lookup? id (Json.ofMembers ms) = some (.obj body) ∧
      view.Matches (survey.definition n) body := by
  obtain ⟨_, hlookup, hshows⟩ :=
    View.Matches.lookup? (fun name => hms.rel h.texts h.distinct name) hget
  obtain ⟨body, hbody, rfl⟩ := View.shows_dict hshows
  exact ⟨_, hlookup, fun name => hbody.rel ht hd name⟩

/-! ### Documents -/

variable {e : Emission} {view : View} {doc : Json}

/-- The keywords of a document are those of its root, its table and its dialect. -/
theorem get?_assemble (name : String) :
    (e.assemble survey table).get? (.str name) =
      if name = "$schema" then some (.str e.target.schemaUri)
      else if name = e.target.definitionsKeyword ∧ table ≠ [] then
        some (.dict (tableEntries survey table))
      else (survey.definition e.root).get? (.str name) := by
  unfold assemble
  dsimp only
  rw [Entries.get?_set_str]
  by_cases hname : name = "$schema"
  · rw [if_pos hname, if_pos hname]
  · rw [if_neg hname, if_neg hname]
    cases table with
    | nil => simp
    | cons p rest => simp [Entries.get?_set_str]

/-- The members of a document show the keywords of the document. -/
theorem matches_assemble (ht : (survey.definition e.root).Texts)
    (hd : (survey.definition e.root).Distinct)
    (h : view.Shows (.dict (e.assemble survey table)) doc) :
    ∃ ds, doc = .obj ds ∧ view.Matches (e.assemble survey table) ds := by
  obtain ⟨ms, hms, rfl⟩ := View.shows_dict h
  have hformed : (e.assemble survey table).Texts ∧ (e.assemble survey table).Distinct := by
    unfold assemble
    dsimp only
    split
    · exact ⟨ht.set "$schema" _, hd.set _ _⟩
    · exact ⟨(ht.set e.target.definitionsKeyword _).set "$schema" _, (hd.set _ _).set _ _⟩
  exact ⟨_, rfl, fun name => hms.rel hformed.1 hformed.2 name⟩

/-- **Root.** Behind its dialect and its table a document shows the body of its root. -/
theorem matches_content (ht : (survey.definition e.root).Texts)
    (hd : (survey.definition e.root).Distinct)
    (hschema : (survey.definition e.root).get? "$schema" = none)
    (htable : (survey.definition e.root).get? e.target.definitionsKeyword = none)
    (h : view.Shows (.dict (e.assemble survey table)) doc) :
    view.Matches (survey.definition e.root) (doc.content e.target) := by
  obtain ⟨ds, rfl, hds⟩ := matches_assemble ht hd h
  intro name
  by_cases hreserved : name = "$schema" ∨ name = e.target.definitionsKeyword
  · rw [Json.lookup?_content_eq_none hreserved]
    rcases hreserved with rfl | rfl
    · rw [hschema]
      exact .none
    · rw [htable]
      exact .none
  · obtain ⟨hne, hne'⟩ := not_or.mp hreserved
    rw [Json.lookup?_content hne hne']
    have hrel := hds name
    rw [get?_assemble, if_neg hne, if_neg fun h => hne' h.1] at hrel
    exact hrel

/-- **Table.** Where a table is shown under its keyword, the address of a definition that is listed
    leads to the members that show its body. -/
theorem Tabled.object? (htable : Tabled survey table) {target : Target}
    {ds : List (String × Json)} {common : Json}
    (hcommon : Json.lookup? target.definitionsKeyword ds = some common)
    (hshows : view.Shows (.dict (tableEntries survey table)) common)
    {n : NodeId} {v : Visit} (hn : survey.visit? n = some v) (hdefined : v.definition.isSome)
    {id : String} (hid : v.definitionId = .str id) (htruthy : v.definitionId.isTruthy = true)
    (hslash : '/' ∉ id.toList) (htilde : '~' ∉ id.toList) (hbt : (survey.definition n).Texts)
    (hbd : (survey.definition n).Distinct) :
    ∃ body, (Json.obj ds).object? (definitionAddress target "" v.definitionId) = some body ∧
      view.Matches (survey.definition n) body := by
  have hget := htable.entry hn hdefined hid (hid ▸ htruthy)
  obtain ⟨ms, hms, rfl⟩ := View.shows_dict hshows
  obtain ⟨body, hlookup, hbody⟩ := htable.lookup? hms hget hbt hbd
  refine ⟨body, ?_, hbody⟩
  rw [hid]
  exact Json.object?_definitionAddress hslash htilde hcommon hlookup

/-- The address of a definition that is listed in a document leads to its body. -/
theorem object?_listed (ht : (survey.definition e.root).Texts)
    (hd : (survey.definition e.root).Distinct) (htable : Tabled survey table)
    (h : view.Shows (.dict (e.assemble survey table)) doc)
    {n : NodeId} {v : Visit} (hn : survey.visit? n = some v) (hdefined : v.definition.isSome)
    {id : String} (hid : v.definitionId = .str id) (htruthy : v.definitionId.isTruthy = true)
    (hslash : '/' ∉ id.toList) (htilde : '~' ∉ id.toList) (hbt : (survey.definition n).Texts)
    (hbd : (survey.definition n).Distinct) :
    ∃ ds, doc.object? (definitionAddress e.target "" v.definitionId) = some ds ∧
      view.Matches (survey.definition n) ds := by
  obtain ⟨ds, rfl, hds⟩ := matches_assemble ht hd h
  have hne : table ≠ [] := by
    rintro rfl
    cases htable.entry hn hdefined hid (hid ▸ htruthy)
  have hkeyword : (e.assemble survey table).get? (.str e.target.definitionsKeyword)
      = some (.dict (tableEntries survey table)) := by
    rw [get?_assemble, if_neg, if_pos ⟨rfl, hne⟩]
    cases e.target <;> decide
  obtain ⟨common, hcommon, hshows⟩ := hds.lookup? hkeyword
  exact htable.object? hcommon hshows hn hdefined hid htruthy hslash htilde hbt hbd

/-- The same, for a reference that may also lead to the document itself. -/
theorem inside?_listed (ht : (survey.definition e.root).Texts)
    (hd : (survey.definition e.root).Distinct) (htable : Tabled survey table)
    (haddressable : survey.Addressable)
    (h : view.Shows (.dict (e.assemble survey table)) doc)
    {n : NodeId} {v : Visit} (hn : survey.visit? n = some v) (hdefined : v.definition.isSome)
    (hid : v.definitionId.isTruthy = true) (hbt : (survey.definition n).Texts)
    (hbd : (survey.definition n).Distinct) :
    ∃ ds, doc.inside? e.target (definitionAddress e.target "" v.definitionId) = some ds ∧
      view.Matches (survey.definition n) ds := by
  obtain ⟨id, hv, hslash, htilde⟩ := haddressable.text _ (Survey.mem_visits hn) hid
  obtain ⟨ds, hds, hmatches⟩ :=
    object?_listed ht hd htable h hn hdefined hv hid hslash htilde hbt hbd
  refine ⟨ds, ?_, hmatches⟩
  unfold Json.inside?
  rw [hv] at hds ⊢
  rw [Json.pointer?_definitionAddress e.target hslash htilde]
  exact hds

end Emission

end SchemaGraph
