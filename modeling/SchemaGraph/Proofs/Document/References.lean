import SchemaGraph.Proofs.Document.Meaning

namespace SchemaGraph

/-!
# References that documents hold

Every reference in a finished document comes from a definition: it stands in place of the
fragment of a node, or in a body that passes the content of a node on.  Data holds none.

* `Json.Cites`     — an address stands in a document where a schema refers to it
* `Value.Sits`     — what may stand where schemas do
* `Linked.refers_of_cites` — an address in a document is the reference to a definition
-/

namespace Json

/-- An address stands in a document where a schema refers to it. -/
inductive Cites (address : String) : Role → Json → Prop
  | here {ms : List (String × Json)} (h : lookup? "$ref" ms = some (.str address)) :
    Cites address .schemas (.obj ms)
  | keyword {ms : List (String × Json)} {name : String} {j : Json}
      (h : lookup? name ms = some j) (hj : Cites address (.of name) j) :
    Cites address .schemas (.obj ms)
  | element {xs : List Json} {j : Json} (h : j ∈ xs) (hj : Cites address .schemas j) :
    Cites address .schemas (.arr xs)
  | member {ms : List (String × Json)} {name : String} {j : Json}
      (h : lookup? name ms = some j) (hj : Cites address .schemas j) :
    Cites address .members (.obj ms)

/-- A document without references holds no address. -/
theorem Cites.not_refFree {address : String} {role : Role} {j : Json} (h : Cites address role j) :
    j.refFree role ≠ true := by
  intro hfree
  induction h with
  | here h =>
    obtain ⟨hnone, -⟩ := Bool.and_eq_true_iff.mp hfree
    rw [h] at hnone
    cases hnone
  | keyword h _ ih =>
    obtain ⟨-, hkeywords⟩ := Bool.and_eq_true_iff.mp hfree
    exact ih (refFreeKeywords_iff.mp hkeywords _ (mem_of_lookup? h))
  | element h _ ih => exact ih (refFreeList_iff.mp hfree _ h)
  | member h _ ih => exact ih (refFreeMembers_iff.mp hfree _ (mem_of_lookup? h))

/-- Texts hold no address of their own. -/
theorem not_cites_str {address s : String} {role : Role} : ¬ Cites address role (.str s) := nofun

end Json

/-- What may stand in place of schemas: fragments of nodes, lists and mappings of them, and data
    without references. -/
inductive Value.Sits (reach : NodeId → Prop) : Role → Value → Prop
  | fragment {n : NodeId} (h : reach n) : Sits reach .schemas (.fragment n)
  | data {role : Role} {v : Value} (hp : v.isPlain = true)
      (hfree : ∀ j, v.toJson = .ok j → j.refFree role = true) : Sits reach role v
  | list {xs : List Value} (h : ∀ x ∈ xs, Sits reach .schemas x) : Sits reach .schemas (.list xs)
  | members {es : Entries} (ht : es.Texts) (hd : es.Distinct)
      (h : ∀ p ∈ es, Sits reach .schemas p.2) : Sits reach .members (.dict es)

/-- An element sits where schemas stand. -/
theorem Value.Element.sits {reach : NodeId → Prop} {v : Value} (h : v.Element reach) :
    v.Sits reach .schemas := by
  cases h with
  | fragment h => exact .fragment h
  | data hp hfree => exact .data hp hfree

/-- A value that fits a keyword sits in the role of it. -/
theorem Value.Fits.sits {reach : NodeId → Prop} {key : String} {v : Value}
    (h : v.Fits reach key) : v.Sits reach (.of key) := by
  cases h with
  | data hp hfree => exact .data hp hfree
  | fragment hrole _ h =>
    rw [hrole]
    exact .fragment h
  | list hrole _ _ h =>
    rw [hrole]
    exact .list fun x hx => (h x hx).sits
  | members hrole ht hd h =>
    rw [hrole]
    refine .members ht hd fun p hp => ?_
    obtain ⟨n, hn, hreach⟩ := h p hp
    rw [hn]
    exact .fragment hreach

namespace Linked

variable {guide : Guide} {s : Store} {links bound : Nat} {p c : Survey} {view : View}
  {find : String → Option (List (String × Json))}

/-- What a body holds under a keyword: the reference to a definition, or what may stand there. -/
theorem sits_body (h : Linked guide s links bound p c view find) {n : NodeId}
    (hn : p.has n = true) {name : String} {v : Value}
    (hv : (c.body n).get? (.str name) = some v) :
    (name = "$ref" ∧ ∃ m ref, p.has m = true ∧ c.Refers m ref ∧ v = .str ref) ∨
      (name ≠ "$ref" ∧ v.Sits (fun m => p.has m = true) (.of name)) := by
  obtain ⟨es, hes⟩ := h.keywords n hn
  have hshaped : es.Shaped fun m => p.has m = true :=
    Store.keywords?_shaped h.grounded.suited h.grounded.edge hn hes
  have hown : es.get? (.str name) = some v →
      name ≠ "$ref" ∧ v.Sits (fun m => p.has m = true) (.of name) := by
    intro hget
    obtain ⟨hkey, hfits⟩ := hshaped.fits hget
    refine ⟨?_, hfits.sits⟩
    rintro rfl
    exact hkey (by decide)
  obtain ⟨-, -, hmeans⟩ := h.grounded.means_body hn hes
  cases hmeans with
  | direct _ _ hsame => exact .inr (hown ((hsame name).trans hv))
  | @refers _ _ _ below m ref keyword hvisited hm hkeyword hbelow hsame =>
    -- Under the keyword that refers stands the reference, under any other what the node has itself.
    by_cases hname : name = keyword
    · subst hname
      cases hkeyword with
      | ref _ href =>
        exact .inl ⟨rfl, m, ref, hvisited, hm, Option.some.inj (hv.symm.trans href)⟩
      | allOf _ _ hall =>
        rw [Option.some.inj (hv.symm.trans hall)]
        refine .inr ⟨by decide, .list fun x hx => ?_⟩
        rw [List.mem_singleton.mp hx]
        exact .fragment hvisited
    · have hget := hsame name
      rw [if_neg hname, hv] at hget
      exact .inr (hown hget)

/-- What stands under a keyword of members that stand for a node. -/
theorem sits_of_stands (h : Linked guide s links bound p c view find) {n : NodeId}
    (hn : p.has n = true) {ds : List (String × Json)} (hds : Stands view c n ds) {name : String}
    {j : Json} (hj : Json.lookup? name ds = some j) :
    (name = "$ref" ∧ ∃ m ref, p.has m = true ∧ c.Refers m ref ∧ j = .str ref) ∨
      (name ≠ "$ref" ∧ ∃ v, v.Sits (fun m => p.has m = true) (.of name) ∧ view.Shows v j) := by
  -- What a member shows stands under its key in the entries.
  have hheld : ∀ {es : Entries}, view.Matches es ds →
      ∃ v, es.get? (.str name) = some v ∧ view.Shows v j := by
    intro es hes
    have hrel := hes name
    rw [hj] at hrel
    cases hget : es.get? (.str name) with
    | none => rw [hget] at hrel; cases hrel
    | some v =>
      rw [hget] at hrel
      exact ⟨v, rfl, View.shows_of_rel hrel⟩
  have hbody (hes : view.Matches (c.body n) ds) :
      (name = "$ref" ∧ ∃ m ref, p.has m = true ∧ c.Refers m ref ∧ j = .str ref) ∨
        (name ≠ "$ref" ∧ ∃ v, v.Sits (fun m => p.has m = true) (.of name) ∧ view.Shows v j) := by
    obtain ⟨v, hv, hshows⟩ := hheld hes
    rcases h.sits_body hn hv with ⟨hname, m, ref, hm, href, rfl⟩ | ⟨hname, hsits⟩
    · exact .inl ⟨hname, m, ref, hm, href, View.shows_str hshows⟩
    · exact .inr ⟨hname, v, hsits, hshows⟩
  rcases hds with hes | hes
  · exact hbody hes
  · rcases Survey.Compiled.fragment_cases h.grounded.compiled hn with hsame | ⟨ref, href, hbare⟩
    · exact hbody (hsame ▸ hes)
    · -- a bare reference holds nothing but the reference
      rw [hbare] at hes
      obtain ⟨v, hv, hshows⟩ := hheld hes
      have hmem := Entries.mem_of_get?_str hv
      obtain ⟨hname, rfl⟩ := Prod.mk.inj (List.mem_singleton.mp hmem)
      exact .inl ⟨Value.str.inj hname, n, ref, hn, href, View.shows_str hshows⟩

/-- **References.** Every address in what stands for a node, or in place of a schema, is the
    reference to the definition of a node that was visited. -/
theorem refers_of_cites (h : Linked guide s links bound p c view find) {address : String}
    {role : Role} {j : Json} (hc : j.Cites address role) :
    (∀ n ms, p.has n = true → j = .obj ms → role = .schemas → Stands view c n ms →
      ∃ m, p.has m = true ∧ c.Refers m address) ∧
    (∀ v, v.Sits (fun m => p.has m = true) role → view.Shows v j →
      ∃ m, p.has m = true ∧ c.Refers m address) := by
  -- an object in place of a schema stands for a node, or is data
  have hobject {ms : List (String × Json)} (hcites : Json.Cites address .schemas (.obj ms))
      (hnode : ∀ n, p.has n = true → Stands view c n ms →
        ∃ m, p.has m = true ∧ c.Refers m address) :
      (∀ n ms', p.has n = true → Json.obj ms = .obj ms' → Role.schemas = .schemas →
        Stands view c n ms' → ∃ m, p.has m = true ∧ c.Refers m address) ∧
      (∀ v, v.Sits (fun m => p.has m = true) .schemas → view.Shows v (.obj ms) →
        ∃ m, p.has m = true ∧ c.Refers m address) := by
    refine ⟨fun n ms' hn hsame _ hstands => ?_, fun v hv hshows => ?_⟩
    · cases hsame
      exact hnode n hn hstands
    · cases hv with
      | fragment hn =>
        obtain ⟨ds, hds, hstands⟩ := h.stands_of_shows hn hshows
        cases hds
        exact hnode _ hn hstands
      | data hp hfree =>
        exact absurd (hfree _ (View.shows_of_plain hp hshows)) hcites.not_refFree
      | list =>
        obtain ⟨js, -, hjs⟩ := View.shows_list hshows
        cases hjs
  induction hc with
  | here hms =>
    refine hobject (.here hms) fun n hn hds => ?_
    rcases h.sits_of_stands hn hds hms with ⟨-, m, ref, hm, href, haddress⟩ | ⟨hname, -⟩
    · rw [Json.str.inj haddress]
      exact ⟨m, hm, href⟩
    · exact absurd rfl hname
  | keyword hms hj ih =>
    refine hobject (.keyword hms hj) fun n hn hds => ?_
    rcases h.sits_of_stands hn hds hms with ⟨-, m, ref, -, -, rfl⟩ | ⟨-, v, hv, hshows⟩
    · exact absurd hj Json.not_cites_str
    · exact ih.2 v hv hshows
  | element hmem hj ih =>
    refine ⟨fun _ _ _ hsame => Json.noConfusion hsame, fun v hv hshows => ?_⟩
    cases hv with
    | fragment hn =>
      obtain ⟨ds, hds, -⟩ := h.stands_of_shows hn hshows
      cases hds
    | data hp hfree =>
      have hcites := Json.Cites.element hmem hj
      exact absurd (hfree _ (View.shows_of_plain hp hshows)) hcites.not_refFree
    | list helements =>
      obtain ⟨js, hjs, hsame⟩ := View.shows_list hshows
      cases hsame
      obtain ⟨x, hx, hshows'⟩ := View.exists_of_mem_right hjs hmem
      exact ih.2 x (helements x hx) hshows'
  | @member _ name _ hms hj ih =>
    refine ⟨fun _ _ _ _ hrole => Role.noConfusion hrole, fun v hv hshows => ?_⟩
    cases hv with
    | data hp hfree =>
      have hcites := Json.Cites.member hms hj
      exact absurd (hfree _ (View.shows_of_plain hp hshows)) hcites.not_refFree
    | members ht hd hes =>
      obtain ⟨ms', hms', hsame⟩ := View.shows_dict hshows
      cases hsame
      have hrel := hms'.rel ht hd name
      rw [hms] at hrel
      cases hget : Entries.get? (.str name) _ with
      | none => rw [hget] at hrel; cases hrel
      | some x =>
        rw [hget] at hrel
        exact ih.2 x (hes _ (Entries.mem_of_get?_str hget)) (View.shows_of_rel hrel)

end Linked

end SchemaGraph
