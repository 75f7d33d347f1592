import SchemaGraph.Proofs.Document.Composing
import SchemaGraph.Proofs.Document.Upkeep
import SchemaGraph.Proofs.Survey.Pointing
import SchemaGraph.Proofs.Value.Twins

namespace SchemaGraph

open SchemaGraph.Action Conversion

/-!
# Where conversions point at

Hoisting and settling put nothing into visits but references, and the content and the fragments of
nodes that content is passed on from.  So what a conversion holds points where it did before, and so
does the document that is composed from it.

* `Conversion.Reaches`       — what a conversion holds points at some nodes, and at earlier surveys
* `Emission.compose_reaches` — so does what is composed from it
* `Conversion.view_ample`    — the view of a conversion has room for all that holds pointers
* `Conversion.twins`         — the views of two conversions show the same
-/

/-- What a visit holds, and where its content comes from. -/
structure Visit.Reaches (reach : NodeId → Prop) (count : Nat) (v : Visit) : Prop where
  fragment : v.fragment.Each (Value.Reaches reach count)
  body : v.body.Each (Value.Reaches reach count)
  target : ∀ t, v.target = some t → reach t

/-- What a conversion holds points at some nodes of its survey, and at surveys before some number. -/
def Conversion.Reaches (reach : NodeId → Prop) (count : Nat) (c : Conversion) : Prop :=
  ∀ n v, c.survey.visit? n = some v → v.Reaches reach count

variable {reach : NodeId → Prop} {count : Nat}

/-- That a value reaches some nodes and earlier surveys spreads. -/
theorem Value.spreads_reaches {less : NodeId → Prop} (hsub : ∀ n, less n → reach n) (count : Nat) :
    Value.Spreads less (Value.Reaches reach count) :=
  ⟨fun {n} hn => reaches_fragment (hsub n hn), reaches_of_plain, reaches_items, reaches_dict⟩

/-- What a conversion reaches includes what its fragments point at. -/
theorem Conversion.Reaches.fragment {c : Conversion} (h : c.Reaches reach count) (n : NodeId) :
    (c.survey.fragment n).Each (Value.Reaches reach count) := by
  unfold Survey.fragment
  cases hv : c.survey.visit? n with
  | none => exact .nil
  | some v => exact (h n v hv).fragment

/-- What a conversion reaches includes what its definitions point at. -/
theorem Conversion.Reaches.definition {c : Conversion} (h : c.Reaches reach count) (n : NodeId) :
    (c.survey.definition n).Each (Value.Reaches reach count) := by
  unfold Survey.definition
  cases hv : c.survey.visit? n with
  | none => exact .nil
  | some v =>
    cases hdefinition : v.definition with
    | none => simp [hdefinition, Entries.Each]
    | some body =>
      have hbody := (h n v hv).body
      rw [Visit.body, hdefinition] at hbody
      simpa [hdefinition] using hbody

/-- Before the first document, what was visited points where the visited nodes lead to, and where
    what is supplied for them does. -/
theorem Survey.Intact.reaches {guide : Guide} {s : Store} {p : Conversion}
    (hp : p.survey.Intact guide s)
    (hplain : ∀ n node, p.survey.has n = true → s.node? n = some node → node.Plain)
    (hsupplied : ∀ n es, p.survey.has n = true → s.Supplied guide.catalog n es →
      es.Each (Value.Reaches reach count))
    (hedge : ∀ n m, p.survey.has n = true → s.Edge guide.settings.side n m → reach m) :
    p.Reaches reach count := by
  intro n v hv
  have hn := Survey.has_of_visit? hv
  obtain ⟨links, w, hw, hfragment, -⟩ := hp.contents hv
  have heach : v.fragment.Each (Value.Reaches reach count) := by
    rw [← hfragment]
    exact Store.contents?_each (Value.spreads_reaches (fun m => hedge n m hn) count)
      (fun node => hplain n node hn) (fun es => hsupplied n es hn) hw
  refine ⟨heach, ?_, fun t ht => hedge n t hn (hp.passes hv ht).edge⟩
  rw [Visit.body, hp.definition hv]
  exact heach

namespace Emission

variable {e : Emission} {c d : Conversion}

/-- Hoisting points at nothing else. -/
theorem hoist_reaches (hc : c.Reaches reach count) : (e.hoist c).2.Reaches reach count := by
  intro n w hw
  have hhoists := (hoist_hoists (e := e) c).state_of_and
  obtain ⟨v, hv, rfl | ⟨ref, id, -, rfl⟩⟩ := hhoists.cases hw
  · exact hc n w hv
  · refine ⟨fun p hp => ?_, (hc n v hv).fragment, (hc n v hv).target⟩
    rw [List.mem_singleton.mp hp]
    exact Value.reaches_of_plain rfl

/-- What takes content over points at its target besides. -/
theorem Takes.reaches {target : Target} {own below body : Entries} {t : NodeId}
    (h : Takes target own t below body) (ht : reach t)
    (hown : own.Each (Value.Reaches reach count))
    (hbelow : below.Each (Value.Reaches reach count)) :
    body.Each (Value.Reaches reach count) := by
  unfold Takes at h
  split at h
  · split at h
    · rw [h]
      exact hown.set _ (Value.reaches_items.mpr fun v hv =>
        List.mem_singleton.mp hv ▸ Value.reaches_fragment ht)
    · rename_i xs hxs
      rw [h]
      refine hown.set _ (Value.reaches_items.mpr fun v hv => ?_)
      rcases List.mem_append.mp hv with hv | hv
      · exact Value.reaches_items.mp (hown.get? hxs) v hv
      · exact List.mem_singleton.mp hv ▸ Value.reaches_fragment ht
    · rw [h]
      exact hown
  · rw [h]
    exact (hown.update hbelow).update hown

/-- Every action of an emission preserves what is reached. -/
theorem reaches_preserved (target : Target) (reach : NodeId → Prop) (count : Nat) :
    Preserved target (Conversion.Reaches reach count) where
  events _ hsame hc n v hv := hc n v (by rw [← hsame]; exact hv)
  append _ _ _ _ hc := hc
  mark n hc := forall_visit?_modify hc fun v hv =>
    ⟨(hc n v hv).fragment, (hc n v hv).body, (hc n v hv).target⟩
  body {c d n v t body} hc hv _ htarget hd hself htakes := by
    refine forall_visit?_modify hd fun u hu => ?_
    obtain rfl := Option.some.inj (hself.symm.trans hu)
    have hown := hc n v hv
    have hbody := htakes.reaches (hown.target t htarget) hown.body (hd.fragment t)
    refine ⟨?_, by rw [Visit.body_withBody]; exact hbody, fun m hm => ?_⟩
    · unfold Visit.withBody
      split
      · exact hown.fragment
      · exact hbody
    · rw [Visit.target_withBody] at hm
      exact hown.target m hm

/-- The definitions of a survey, listed in a table, point at nothing else. -/
theorem reaches_tableEntries (hc : c.Reaches reach count) (table : List (Value × NodeId)) :
    (Value.dict (tableEntries c.survey table)).Reaches reach count := by
  refine Value.reaches_dict.mpr fun q hq => ?_
  obtain ⟨p, -, rfl⟩ := List.mem_map.mp hq
  exact Value.reaches_dict.mpr (hc.definition p.2)

/-- A document that is assembled points at no more than the conversion does. -/
theorem reaches_assemble (hc : c.Reaches reach count) (table : List (Value × NodeId)) :
    (Value.dict (e.assemble c.survey table)).Reaches reach count := by
  refine Value.reaches_dict.mpr (Entries.Each.set ?_ _ (Value.reaches_of_plain rfl))
  split
  · exact hc.definition e.root
  · exact (hc.definition e.root).set _ (reaches_tableEntries hc table)

/-- **Composing.** The keywords that are composed point at nothing else. -/
theorem compose_reaches (hoverride : e.override = none) {entries : Entries}
    (hc : c.Reaches reach count) (h : Returns e.compose c entries d) :
    (Value.dict entries).Reaches reach count := by
  obtain ⟨c₁, c₃, hclaim, hstages, hlist⟩ := compose_returns h
  obtain ⟨_, c₂, hhoist, hsettle⟩ := returns_bind.mp hstages
  have h₁ : c₁.Reaches reach count := fun n v hv =>
    hc n v ((Survey.visit?_of_visits (claim_returns hclaim).2 n).symm.trans hv)
  have h₂ : c₂.Reaches reach count := by
    have hreaches := hoist_reaches (e := e) h₁
    rwa [show e.hoist c₁ = (.ok (), c₂) from hhoist] at hreaches
  have h₃ := (reaches_preserved e.target reach count).settleVisits hoverride hsettle h₂
  rw [(listDefinitions_returns hlist).2.2]
  exact reaches_assemble h₃ _

end Emission

/-! ### Room -/

namespace Conversion

/-- The places that may hold something: fragments of visited nodes, lists of annotations, and the
    fragments that surveys have left behind. -/
def places (c : Conversion) : List Place :=
  c.survey.order.map (.fragment c.survey.number) ++ (List.range c.store.lists.length).map .list ++
    (List.range c.store.archive.length).flatMap fun k =>
      (c.store.archive[k]?.getD []).map fun p => .fragment k p.1

/-- As many places may hold something as a view has. -/
theorem length_places (c : Conversion) : c.places.length = c.view.size := by
  -- The size of a view adds up the archive as a loop; induction on the archive.
  have hsum : ∀ (archive : List (List (NodeId × Entries))) (n : Nat),
      archive.foldl (fun n fragments => n + fragments.length) n =
        n + (archive.map List.length).sum := by
    intro archive
    induction archive with
    | nil => exact fun n => rfl
    | cons fragments rest ih =>
      intro n
      rw [List.foldl_cons, ih, List.map_cons, List.sum_cons]
      omega
  have harchive : (List.range c.store.archive.length).map
      (fun k => (c.store.archive[k]?.getD []).length) = c.store.archive.map List.length := by
    refine List.ext_getElem (by simp) fun k hk hk' => ?_
    rw [List.length_map, List.length_range] at hk
    simp [List.getElem?_eq_getElem hk]
  have horder : c.survey.order.length = c.survey.size := List.length_map _
  show _ = c.survey.size + c.store.lists.length +
    c.store.archive.foldl (fun n fragments => n + fragments.length) 0
  rw [places, List.length_append, List.length_append, List.length_map, List.length_map,
    List.length_range, List.length_flatMap, horder, hsum, Nat.zero_add, ← harchive]
  simp only [List.length_map]

/-- **Room.** All places that hold pointers are among those that the view counts. -/
theorem view_ample (c : Conversion) : c.view.Ample := by
  refine ⟨c.places, Nat.le_of_eq c.length_places, fun p hp => ?_⟩
  cases p with
  | fragment k n =>
    have hfragment : c.fragmentOf k n ≠ [] := fun hnone => hp (congrArg (Value.entryPlaces k) hnone)
    unfold fragmentOf at hfragment
    split at hfragment
    · rename_i hk
      subst hk
      refine List.mem_append_left _ (List.mem_append_left _ (List.mem_map_of_mem ?_))
      rw [← Survey.has_iff]
      unfold Survey.fragment at hfragment
      cases hv : c.survey.visit? n with
      | none => exact absurd (by rw [hv]; rfl) hfragment
      | some v => exact Survey.has_of_visit? hv
    -- A fragment that a former survey has left behind, if there is such a survey.
    · refine List.mem_append_right _ (List.mem_flatMap.mpr ⟨k, ?_, ?_⟩)
      all_goals
        unfold Store.archived at hfragment
        cases hk : c.store.archive[k]? with
        | none => exact absurd (by rw [hk]; rfl) hfragment
        | some fragments => ?_
      · exact List.mem_range.mpr (List.getElem?_eq_some_iff.mp hk).1
      · rw [hk, Option.getD_some] at hfragment
        rw [Option.getD_some]
        cases hfind : fragments.find? fun p => p.1 = n with
        | none => exact absurd (by rw [hfind]; rfl) hfragment
        | some q =>
          obtain rfl : q.1 = n := by simpa using List.find?_some hfind
          exact List.mem_map_of_mem (List.mem_of_find?_eq_some hfind)
  -- A list that is not there is empty and points at nothing.
  | list k =>
    refine List.mem_append_left _ (List.mem_append_right _ (List.mem_map_of_mem ?_))
    refine List.mem_range.mpr (Nat.lt_of_not_le fun hle => hp ?_)
    show Value.listPlaces _ (c.store.list k) = []
    unfold Store.list
    rw [List.getElem?_eq_none hle]
    rfl

end Conversion

/-! ### Twins -/

namespace Store

variable {s t : Store} {P : Value → Prop} {k : Nat}

/-- A survey has left of a node what is among the fragments that it has left. -/
theorem archived_each (h : ∀ fragments, s.archive[k]? = some fragments →
    ∀ p ∈ fragments, p.2.Each P) (n : NodeId) : (s.archived k n).Each P := by
  unfold archived
  cases hstack : s.archive[k]? with
  | none => exact .nil
  | some fragments =>
    rw [Option.getD_some]
    cases hfind : fragments.find? fun p => p.1 = n with
    | none => exact .nil
    | some p => exact h fragments hstack p (List.mem_of_find?_eq_some hfind)

/-- Surveys that have left the same fragments have left the same of every node. -/
theorem archived_congr (h : t.archive[k]? = s.archive[k]?) (n : NodeId) :
    t.archived k n = s.archived k n := by
  unfold archived
  rw [h]

/-- A list of annotations holds what lists of annotations hold. -/
theorem forall_mem_list (h : ∀ xs ∈ s.lists, ∀ v ∈ xs, P v) (k : Nat) : ∀ v ∈ s.list k, P v := by
  intro v hv
  unfold list at hv
  cases hget : s.lists[k]? with
  | none =>
    rw [hget] at hv
    cases hv
  | some xs =>
    rw [hget] at hv
    exact h xs (List.mem_of_getElem? hget) v hv

end Store

namespace Conversion

variable {c d : Conversion}

/-- Of its own survey a conversion shows the fragments as they are. -/
theorem view_own (c : Conversion) (n : NodeId) :
    c.view.fragment c.view.survey n = c.survey.fragment n := if_pos rfl

/-- Of surveys before its own a conversion shows what they have left. -/
theorem view_past {k : Nat} (hk : k < c.survey.number) (n : NodeId) :
    c.view.fragment k n = c.store.archived k n := if_neg (Nat.ne_of_lt hk)

/-- **Twins.** Conversions with the same fragments of some nodes, and the same lists and fragments
    left behind, show the same, if what they hold points at nothing else. -/
theorem twins (hbefore : count ≤ c.survey.number) (hbehind : count ≤ d.survey.number)
    (hown : ∀ n, reach n → d.survey.fragment n = c.survey.fragment n)
    (harchive : ∀ k < count, d.store.archive[k]? = c.store.archive[k]?)
    (hlists : d.store.lists = c.store.lists) (hc : c.Reaches reach count)
    (hpast : ∀ k < count, ∀ fragments, c.store.archive[k]? = some fragments → ∀ p ∈ fragments,
      p.2.Each (Value.Past count))
    (hlist : ∀ xs ∈ c.store.lists, ∀ v ∈ xs, v.Reaches reach count) :
    View.Twins reach count c.view d.view where
  before := hbefore
  behind := hbehind
  own n hn := by rw [view_own, view_own, hown n hn]
  past k hk n := by
    rw [view_past (Nat.lt_of_lt_of_le hk hbehind), view_past (Nat.lt_of_lt_of_le hk hbefore)]
    exact Store.archived_congr (harchive k hk) n
  list k := by
    show d.store.list k = c.store.list k
    unfold Store.list
    rw [hlists]
  ownReaches n _ := by
    rw [view_own]
    exact hc.fragment n
  pastReaches k hk n := by
    rw [view_past (Nat.lt_of_lt_of_le hk hbefore)]
    exact Store.archived_each (hpast k hk) n
  listReaches := Store.forall_mem_list hlist

end Conversion

end SchemaGraph
