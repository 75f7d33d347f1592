import Mathlib.Data.Option.Defs
import SchemaGraph.Proofs.Document.Lockstep
import SchemaGraph.Proofs.Document.Progress
import SchemaGraph.Proofs.Document.Rendering
import SchemaGraph.Proofs.Document.Upkeep
import SchemaGraph.Proofs.Survey.Rewording

namespace SchemaGraph

open SchemaGraph.Action Conversion

/-!
# Surveys in two dialects

While documents are emitted from two surveys in two dialects, their visits say the same: the same
nodes become definitions under the same ids, and what remains of them are references to the same
definitions.  Where the first dialect writes a reference among the keywords of a node that takes
over content, the second one asks for the referring node in `allOf`.

* `Visit.Bilingual`  — visits that say the same
* `Survey.Bilingual` — surveys that do
* `Emission.hoist_abreast`, `Emission.settleVisits_abreast` — what hoisting and settling preserve
-/

/-! ### Visits -/

/-- Visits that say the same in two dialects.  As long as a visit is not finished, it holds no
    reference among other keywords; if it takes over content, it holds none of the special ones. -/
structure Visit.Bilingual (scope : Option Addressing) (refers : NodeId → String → Prop)
    (v w : Visit) : Prop where
  count : w.count = v.count
  cycle : w.cycle = v.cycle
  target : w.target = v.target
  merged : w.merged = v.merged
  id : w.definitionId = v.definitionId
  hoisted : w.definition.isSome = v.definition.isSome
  body : v.body.RewordedBody scope refers w.body
  distinct : v.body.Distinct
  reference : v.definition.isSome = true → ∃ ref ref', Readdressed scope ref ref' ∧
    v.fragment = [(Visit.refKey, .str ref)] ∧ w.fragment = [(Visit.refKey, .str ref')]
  own : v.merged = false → ∃ form, v.body.Reworded none refersNowhere form w.body ∧
    (v.target.isSome = true → form = .neutral)

namespace Visit

/-- The body of a visit that is no definition is its fragment. -/
theorem body_of_definition_none {v : Visit} (h : v.definition.isSome = false) :
    v.body = v.fragment := by
  rw [body, Option.isNone_iff_eq_none.mp (Option.isSome_eq_false_iff.mp h)]
  rfl

/-- The body of a definition is what it defines. -/
theorem body_of_definition_some {v : Visit} (h : v.definition.isSome = true) :
    v.definition = some v.body := by
  obtain ⟨b, hb⟩ := Option.isSome_iff_exists.mp h
  rw [body, hb]
  rfl

namespace Bilingual

variable {scope : Option Addressing} {refers refers' : NodeId → String → Prop} {v w : Visit}

/-- Visits that say the same do so if more nodes are known to hold references. -/
theorem mono (hsub : ∀ n ref, refers n ref → refers' n ref) (h : v.Bilingual scope refers w) :
    v.Bilingual scope refers' w := { h with body := h.body.mono hsub }

/-- What is not a definition has the same keywords in both dialects. -/
theorem plain (h : v.Bilingual scope refers w) (hd : v.definition.isSome = false) :
    v.fragment.RewordedBody scope refers w.fragment := by
  have hbody := h.body
  rwa [body_of_definition_none hd, body_of_definition_none (h.hoisted.trans hd)] at hbody

/-- The fragments say the same, whether they are references or not. -/
theorem fragment (h : v.Bilingual scope refers w) :
    Entries.RewordedFragment scope refers v.fragment w.fragment := by
  cases hd : v.definition.isSome with
  | true =>
    obtain ⟨ref, ref', haddress, hv, hw⟩ := h.reference hd
    rw [hv, hw]
    exact .reference haddress
  | false => exact .body (h.plain hd)

/-- Before a visit is finished, only definitions leave references. -/
theorem isReference_eq (h : v.Bilingual scope refers w) (hmerged : v.merged = false) :
    v.isReference = v.definition.isSome := by
  cases hd : v.definition.isSome with
  | true =>
    obtain ⟨ref, ref', -, hv, -⟩ := h.reference hd
    rw [isReference, hv]
    rfl
  | false =>
    obtain ⟨form, hbody, -⟩ := h.own hmerged
    rw [body_of_definition_none hd] at hbody
    unfold isReference Entries.has
    rw [hbody.get?_ref_left nofun]
    rfl

/-- A visit that knows nothing. -/
theorem blank : Visit.Bilingual scope refers {} {} where
  count := rfl
  cycle := rfl
  target := rfl
  merged := rfl
  id := rfl
  hoisted := rfl
  body := ⟨.neutral, .nil, nofun⟩
  distinct := .nil
  reference := nofun
  own _ := ⟨.neutral, .nil, fun _ => rfl⟩

/-- In the second dialect references stand alone, and only definitions leave them. -/
theorem isReference_iff (h : v.Bilingual scope refers w) :
    w.fragment.has refKey = true ↔ v.definition.isSome = true := by
  cases hd : v.definition.isSome with
  | true =>
    obtain ⟨ref, ref', -, -, hw⟩ := h.reference hd
    rw [hw]
    exact ⟨fun _ => rfl, fun _ => rfl⟩
  | false =>
    obtain ⟨form, hbody, -⟩ := h.plain hd
    unfold Entries.has
    rw [hbody.get?_ref]
    exact ⟨nofun, nofun⟩

end Bilingual

end Visit

/-! ### Surveys -/

namespace Survey

/-- What is left of a node refers to an address. -/
def LeavesReference (s : Survey) (n : NodeId) (ref : String) : Prop :=
  s.fragment n = [(Visit.refKey, .str ref)]

/-- Surveys that say the same in two dialects: node by node their visits do. -/
structure Bilingual (scope : Option Addressing) (s t : Survey) : Prop where
  number : t.number = s.number
  counter : t.counter = s.counter
  emitted : t.emitted = s.emitted
  standalone : t.standalone = s.standalone
  visits : List.Forall₂ (fun p q => q.1 = p.1 ∧ p.2.Bilingual scope t.LeavesReference q.2)
    s.visits t.visits

variable {P Q : Visit → Visit → Prop} {vs ws : List (NodeId × Visit)} {n : NodeId}
  {f g : Visit → Visit}

/-- In two tables with related entries, a node is found in both or in neither. -/
theorem rel_find? (h : List.Forall₂ (fun p q => q.1 = p.1 ∧ P p.2 q.2) vs ws) (n : NodeId) :
    Option.Rel P (find? n vs) (find? n ws) := by
  induction h with
  | nil => exact .none
  | @cons p q vs ws hpq _ ih =>
    unfold find?
    rw [hpq.1]
    split
    · exact .some hpq.2
    · exact ih

/-- A change of the same node keeps two tables related. -/
theorem forall₂_change (h : List.Forall₂ (fun p q => q.1 = p.1 ∧ P p.2 q.2) vs ws)
    (hother : ∀ v w, P v w → Q v w)
    (hchange : ∀ v w, find? n vs = some v → find? n ws = some w → P v w → Q (f v) (g w)) :
    List.Forall₂ (fun p q => q.1 = p.1 ∧ Q p.2 q.2) (change n f vs) (change n g ws) := by
  induction h with
  | nil => exact .nil
  | @cons p q vs ws hpq hrest ih =>
    obtain ⟨m, v⟩ := p
    obtain ⟨k, w⟩ := q
    obtain ⟨rfl, hvw⟩ := hpq
    unfold change
    by_cases hk : k = n
    · rw [if_pos hk, if_pos hk]
      refine .cons ⟨rfl, hchange v w (if_pos hk) (if_pos hk) hvw⟩ ?_
      exact List.Forall₂.imp (fun _ _ hpq => ⟨hpq.1, hother _ _ hpq.2⟩) hrest
    · rw [if_neg hk, if_neg hk]
      unfold find? at hchange
      rw [if_neg hk, if_neg hk] at hchange
      exact .cons ⟨rfl, hother v w hvw⟩ (ih hchange)

namespace Bilingual

variable {scope : Option Addressing} {s t : Survey}

/-- Each node was visited in both surveys or in neither, and its visits say the same. -/
theorem visit? (h : s.Bilingual scope t) (n : NodeId) :
    Option.Rel (Visit.Bilingual scope t.LeavesReference) (s.visit? n) (t.visit? n) :=
  rel_find? h.visits n

/-- A visit of the first survey has its counterpart in the second one. -/
theorem exists_visit? (h : s.Bilingual scope t) {v : Visit} (hv : s.visit? n = some v) :
    ∃ w, t.visit? n = some w ∧ v.Bilingual scope t.LeavesReference w := by
  have hn := h.visit? n
  rw [hv] at hn
  generalize t.visit? n = y at hn ⊢
  cases hn with
  | some hvw => exact ⟨_, rfl, hvw⟩

/-- The visits of a node say the same, empty ones included. -/
theorem visit_getD (h : s.Bilingual scope t) (n : NodeId) :
    ((s.visit? n).getD {}).Bilingual scope t.LeavesReference ((t.visit? n).getD {}) := by
  have hn := h.visit? n
  generalize s.visit? n = x at hn ⊢
  generalize t.visit? n = y at hn ⊢
  cases hn with
  | none => exact .blank
  | some hvw => exact hvw

/-- The nodes were visited in the same order. -/
theorem order (h : s.Bilingual scope t) : t.order = s.order := by
  have hvisits := h.visits
  unfold Survey.order
  generalize s.visits = vs at hvisits
  generalize t.visits = ws at hvisits
  generalize t.LeavesReference = refers at hvisits
  induction hvisits with
  | nil => rfl
  | cons hpq _ ih => rw [List.map_cons, List.map_cons, hpq.1, ih]

/-- As many nodes were visited. -/
theorem size (h : s.Bilingual scope t) : t.size = s.size := h.visits.length_eq.symm

/-- The fragments of a node say the same. -/
theorem fragment (h : s.Bilingual scope t) (n : NodeId) :
    Entries.RewordedFragment scope t.LeavesReference (s.fragment n) (t.fragment n) := by
  unfold Survey.fragment
  have hn := h.visit? n
  generalize s.visit? n = x at hn
  generalize t.visit? n = y at hn
  cases hn with
  | none => exact .body ⟨.neutral, .nil, nofun⟩
  | some hvw => exact hvw.fragment

/-- The definitions of a node say the same. -/
theorem definition (h : s.Bilingual scope t) (n : NodeId) :
    (s.definition n).RewordedBody scope t.LeavesReference (t.definition n) := by
  unfold Survey.definition
  have hn := h.visit? n
  generalize s.visit? n = x at hn
  generalize t.visit? n = y at hn
  cases hn with
  | none => exact ⟨.neutral, .nil, nofun⟩
  | @some v w hvw =>
    -- Both are definitions or neither is; a node that is none has an empty one.
    cases hd : v.definition.isSome with
    | false =>
      have hd' := hvw.hoisted.trans hd
      rw [Option.bind_some, Option.bind_some,
        Option.isNone_iff_eq_none.mp (Option.isSome_eq_false_iff.mp hd),
        Option.isNone_iff_eq_none.mp (Option.isSome_eq_false_iff.mp hd')]
      exact ⟨.neutral, .nil, nofun⟩
    | true =>
      rw [Option.bind_some, Option.bind_some, Visit.body_of_definition_some hd,
        Visit.body_of_definition_some (hvw.hoisted.trans hd)]
      exact hvw.body

/-- A change of both visits of a node that leaves references alone. -/
theorem modify (h : s.Bilingual scope t) {f g : Visit → Visit}
    (hrefers : ∀ v w ref, s.visit? n = some v → t.visit? n = some w →
      v.Bilingual scope t.LeavesReference w →
      w.fragment = [(Visit.refKey, .str ref)] → (g w).fragment = [(Visit.refKey, .str ref)])
    (hchange : ∀ v w, s.visit? n = some v → t.visit? n = some w →
      v.Bilingual scope t.LeavesReference w →
      (∀ m ref, t.LeavesReference m ref → (t.modify n g).LeavesReference m ref) →
      (f v).Bilingual scope (t.modify n g).LeavesReference (g w)) :
    (s.modify n f).Bilingual scope (t.modify n g) := by
  -- A reference that a visit leaves is still left behind the change.
  have hsub : ∀ m ref, t.LeavesReference m ref → (t.modify n g).LeavesReference m ref := by
    intro m ref hm
    unfold LeavesReference Survey.fragment at hm ⊢
    by_cases hmn : m = n
    · subst hmn
      rw [visit?_modify_self]
      have hrel := h.visit? m
      generalize hv : s.visit? m = x at hrel
      generalize hw : t.visit? m = y at hrel hm ⊢
      cases hrel with
      | none => cases hm
      | @some v w hvw => exact hrefers v w ref hv hw hvw hm
    · rwa [visit?_modify_of_ne hmn]
  exact
    { number := h.number
      counter := h.counter
      emitted := h.emitted
      standalone := h.standalone
      visits := forall₂_change h.visits (fun v w hvw => hvw.mono hsub)
        fun v w hv hw hvw => hchange v w hv hw hvw hsub }

end Bilingual

end Survey

/-- Conversions that say the same in two dialects. -/
abbrev Conversion.Bilingual (scope : Option Addressing) : Conversion → Conversion → Prop :=
  Alongside (Survey.Bilingual scope) scope

/-! ### Views -/

/-- Conversions of which the surveys say the same show views that do. -/
theorem Conversion.Bilingual.view {scope : Option Addressing} {c d : Conversion}
    (h : c.Bilingual scope d) :
    View.Reworded scope d.survey.LeavesReference c.survey.order c.view d.view := by
  obtain ⟨events, hevents⟩ := h.store.exists_eq
  have hleft : ∀ n, c.view.fragment c.view.survey n = c.survey.fragment n := fun n => if_pos rfl
  have hright : ∀ n, d.view.fragment c.view.survey n = d.survey.fragment n := fun n =>
    if_pos h.survey.number.symm
  -- A node that was not visited shows nothing.
  have hblank : ∀ {s : Survey} {n}, n ∉ s.order → s.fragment n = [] := by
    intro s n hn
    unfold Survey.fragment
    cases hv : s.visit? n with
    | none => rfl
    | some v => exact absurd ((Survey.has_iff _ _).mp (Survey.has_of_visit? hv)) hn
  refine ⟨h.survey.number, ?_, fun n => ?_, fun n ref hn => ⟨?_, ?_⟩, fun n hn => ?_, ?_⟩
  · unfold Conversion.view
    rw [hevents, h.survey.size]
  · rw [hleft, hright]
    exact h.survey.fragment n
  · by_contra hout
    rw [← h.survey.order] at hout
    unfold Survey.LeavesReference at hn
    rw [hblank hout] at hn
    cases hn
  · rw [hright]
    exact hn
  · rw [hleft, hblank hn]
  · have hlength : c.survey.order.length = c.survey.size := List.length_map _
    have hsize : c.view.size = c.survey.size + c.store.lists.length + _ := rfl
    omega

/-! ### Hoisting -/

/-- Surveys that say the same in two dialects, in which a node is no definition yet. -/
def Survey.Naming (scope : Option Addressing) (n : NodeId) (s t : Survey) : Prop :=
  s.Bilingual scope t ∧ ∀ v, s.visit? n = some v → v.definition.isSome = false

/-- Visits say the same when their keywords have become definitions. -/
theorem Visit.Bilingual.define {scope : Option Addressing} {refers refers' : NodeId → String → Prop}
    {v w : Visit} {ref ref' : String} (hsub : ∀ n ref, refers n ref → refers' n ref)
    (h : v.Bilingual scope refers w) (hplain : v.definition.isSome = false)
    (haddress : Readdressed scope ref ref') (id : Option Value) :
    (Emission.define v ref id).Bilingual scope refers' (Emission.define w ref' id) where
  count := h.count
  cycle := h.cycle
  target := h.target
  merged := h.merged
  id := by
    show id.getD _ = id.getD _
    rw [h.id]
  hoisted := rfl
  body := (h.plain hplain).mono hsub
  distinct := by
    have hdistinct := h.distinct
    rwa [Visit.body_of_definition_none hplain] at hdistinct
  reference _ := ⟨ref, ref', haddress, rfl, rfl⟩
  own hmerged := by
    obtain ⟨form, hbody, hneutral⟩ := h.own hmerged
    rw [Visit.body_of_definition_none hplain,
      Visit.body_of_definition_none (h.hoisted.trans hplain)] at hbody
    exact ⟨form, hbody, hneutral⟩

namespace Emission

variable {e : Emission} {scope : Option Addressing} {c d : Conversion} {n : NodeId} {v w : Visit}

/-- Both dialects choose the same id, if the relation allows the next number. -/
theorem chooseId_abreast {S : Survey → Survey → Prop}
    (hcount : ∀ s t, S s t → t.counter = s.counter ∧
      S { s with counter := s.counter + 1 } { t with counter := t.counter + 1 })
    (first second : Value) (stem : String) :
    Abreast (Alongside S scope) Eq (chooseId first second stem) (chooseId first second stem) := by
  unfold chooseId
  split
  · exact abreast_pure rfl
  · split
    · exact abreast_pure rfl
    · refine abreast_read fun c d h => ?_
      dsimp only
      rw [(hcount _ _ h.survey).1]
      exact (abreast_onSurvey fun s t hst => (hcount s t hst).2).bind fun _ _ _ => abreast_pure rfl

/-- **Names.** A definition gets corresponding addresses in both dialects, and the same id. -/
theorem referenceFor_abreast (htarget : e.target = .draft2020)
    (hid : w.definitionId = v.definitionId)
    (hfragment : fragmentId w = fragmentId v) (n : NodeId) :
    Abreast (Alongside (Survey.Naming scope n) scope)
      (fun p q => Readdressed scope p.1 q.1 ∧ q.2 = p.2) (e.referenceFor n v)
      ((e.inDialect .draft7).referenceFor n w) := by
  -- Numbers are given out alike.
  have hcount : ∀ s t, Survey.Naming scope n s t → t.counter = s.counter ∧
      Survey.Naming scope n { s with counter := s.counter + 1 }
        { t with counter := t.counter + 1 } := by
    rintro s t ⟨hst, hraw⟩
    refine ⟨hst.counter, { hst with counter := ?_ }, hraw⟩
    show t.counter + 1 = s.counter + 1
    rw [hst.counter]
  refine abreast_read fun c d h => ?_
  -- The id of a document is told from the store, which differs in events alone.
  have hdocument : documentId d.store d.linkage n = documentId c.store c.linkage n := by
    obtain ⟨events, hevents⟩ := h.store.exists_eq
    rw [h.linkage, hevents]
    rfl
  have hscope := h.scope
  dsimp only
  rw [hdocument, h.linkage, htarget, hid, hfragment]
  cases hl : c.linkage with
  | none =>
    rw [hl] at hscope
    obtain rfl : none = scope := hscope
    dsimp only
    show Abreast _ _ (if n = e.root then _ else _) (if n = e.root then _ else _)
    split
    · exact abreast_pure ⟨.root, rfl⟩
    · refine (chooseId_abreast hcount _ _ _).bind fun id _ hsame => ?_
      cases hsame
      exact abreast_pure ⟨.definition none id, rfl⟩
  | some l =>
    rw [hl] at hscope
    obtain rfl : some l.addressing = scope := hscope
    dsimp only
    split
    · cases hanswer : l.addressing.address? (documentId c.store (some l) n) with
      | error f => exact abreast_fail f
      | ok ref =>
        refine abreast_pure ⟨?_, rfl⟩
        unfold Addressing.address? at hanswer
        split at hanswer
        · cases hanswer
          exact .document _ _
        · cases hanswer
    · refine (chooseId_abreast hcount _ _ _).bind fun id _ hsame => ?_
      cases hsame
      -- Across documents the id is noted in the visit, on both sides.
      refine (abreast_onSurvey fun s t hst => ?_).bind fun _ _ _ =>
        abreast_pure ⟨.definition (some l.addressing) id, rfl⟩
      obtain ⟨hst, hraw⟩ := hst
      refine ⟨hst.modify (fun _ _ _ _ _ _ href => href) fun v w _ _ hvw hsub =>
        { hvw.mono hsub with id := rfl }, fun v hv => ?_⟩
      rw [Survey.visit?_modify_self] at hv
      obtain ⟨u, hu, rfl⟩ := Option.map_eq_some_iff.mp hv
      exact hraw u hu

/-- Unless it is finished without having become one, a node is a reference in either dialect if and
    only if it is a definition. -/
theorem isReference_bilingual (h : c.Bilingual scope d)
    (hready : ∀ v, c.survey.visit? n = some v → v.merged = true → v.definition.isSome = true) :
    ((c.survey.visit? n).getD {}).isReference =
        ((c.survey.visit? n).getD {}).definition.isSome ∧
      ((d.survey.visit? n).getD {}).isReference =
        ((c.survey.visit? n).getD {}).definition.isSome := by
  have hvw := h.survey.visit_getD n
  refine ⟨?_, Bool.eq_iff_iff.mpr hvw.isReference_iff⟩
  cases hv : c.survey.visit? n with
  | none => rfl
  | some v =>
    rw [hv] at hvw
    change v.Bilingual _ _ _ at hvw
    show v.isReference = v.definition.isSome
    cases hmerged : v.merged with
    | false => exact hvw.isReference_eq hmerged
    | true =>
      have hdefined := hready v hv hmerged
      obtain ⟨ref, ref', -, hfragment, -⟩ := hvw.reference hdefined
      rw [hdefined, Visit.isReference, hfragment]
      rfl

/-- The keywords of a node become a definition in both dialects, unless it is finished without
    having become one. -/
theorem extract_abreastAt (htarget : e.target = .draft2020) (h : c.Bilingual scope d)
    (hready : ∀ v, c.survey.visit? n = some v → v.merged = true → v.definition.isSome = true) :
    AbreastAt (Conversion.Bilingual scope) (fun _ _ => True) (e.extract n)
      ((e.inDialect .draft7).extract n) c d := by
  have hvw := h.survey.visit_getD n
  obtain ⟨hreference, hreference'⟩ := isReference_bilingual h hready
  unfold AbreastAt extract
  rw [run_bind, run_visitOf, run_bind, run_visitOf]
  dsimp only
  rw [hreference, hreference']
  by_cases hdefined : ((c.survey.visit? n).getD {}).definition.isSome = true
  · rw [if_pos hdefined, if_pos hdefined]
    exact ⟨.ok trivial, h⟩
  rw [if_neg hdefined, if_neg hdefined]
  have hplain : ((c.survey.visit? n).getD {}).definition.isSome = false := by simpa using hdefined
  have hfragment : fragmentId ((d.survey.visit? n).getD {}) =
      fragmentId ((c.survey.visit? n).getD {}) := by
    unfold fragmentId
    obtain ⟨form, hbody, -⟩ := hvw.plain hplain
    rw [hbody.get? (Value.neutral_str.mpr (by decide))]
  have hraw : Alongside (Survey.Naming scope n) scope c d := by
    refine ⟨h.store, ⟨h.survey, fun v hv => ?_⟩, h.linkage, h.scope⟩
    rwa [hv] at hplain
  refine AbreastAt.bindOf (referenceFor_abreast htarget hvw.id hfragment n c d hraw)
    (fun _ _ h => ⟨h.store, h.survey.1, h.linkage, h.scope⟩) ?_
  rintro ⟨ref, id⟩ ⟨ref', id'⟩ c' d' - - ⟨haddress, hid⟩ h'
  obtain rfl : id' = id := hid
  obtain ⟨hsurvey, hraw'⟩ := h'.survey
  have hnext : Conversion.Bilingual scope
      { c' with survey := c'.survey.modify n fun v => define v ref id' }
      { d' with survey := d'.survey.modify n fun v => define v ref' id' } := by
    refine ⟨h'.store, hsurvey.modify (fun v w address hv _ hvw href => ?_)
      fun v w hv _ hvw hsub => hvw.define hsub (hraw' v hv) haddress id', h'.linkage, h'.scope⟩
    -- a visit that holds a reference is a definition already
    have hsome := hvw.isReference_iff.mp (by rw [href]; rfl)
    rw [hraw' v hv] at hsome
    cases hsome
  exact abreast_log _ _ _ _ hnext

/-- Addresses do not depend on dialects. -/
theorem hasOwnAddress_alongside {S : Survey → Survey → Prop} (h : Alongside S scope c d)
    (target : Target) (n : NodeId) : (e.inDialect target).hasOwnAddress d.store d.linkage n =
      e.hasOwnAddress c.store c.linkage n := by
  obtain ⟨events, hevents⟩ := h.store.exists_eq
  rw [h.linkage, hevents]
  rfl

/-- The same visits are to be hoisted in both dialects. -/
theorem isHoisted_alongside {S : Survey → Survey → Prop} {refers : NodeId → String → Prop}
    (h : Alongside S scope c d) (target : Target) (hvw : v.Bilingual scope refers w) :
    (e.inDialect target).isHoisted d.store d.linkage n w =
      e.isHoisted c.store c.linkage n v := by
  unfold isHoisted
  rw [hasOwnAddress_alongside h, hvw.cycle, hvw.count]
  rfl

/-- What an emission hoists is a definition already, as far as it is finished. -/
def Ready (e : Emission) (c : Conversion) : Prop :=
  ∀ n v, c.survey.visit? n = some v → v.merged = true →
    e.isHoisted c.store c.linkage n v = true → v.definition.isSome = true

/-- Hoisting on keeps an emission ready. -/
theorem Ready.hoists {c c' : Conversion} (h : e.Ready c) (hhoists : e.Hoists c c') :
    e.Ready c' := by
  intro n v' hv' hmerged hhoisted
  rw [isHoisted_eq hhoists.rewrites] at hhoisted
  obtain ⟨v, hv⟩ : ∃ v, c.survey.visit? n = some v := by
    apply Survey.visit?_of_has
    rw [← hhoists.rewrites.has]
    exact Survey.has_of_visit? hv'
  rcases hhoists.visits hv with hsame | ⟨-, ref, id, -, hdefined⟩
  · obtain rfl := Option.some.inj (hv'.symm.trans hsame)
    exact h n v' hv hmerged hhoisted
  · obtain rfl := Option.some.inj (hv'.symm.trans hdefined)
    rfl

/-- The keywords of the same nodes become definitions in both dialects. -/
theorem hoistAll_abreastAt (htarget : e.target = .draft2020) (ns : List NodeId) :
    ∀ c d, c.Bilingual scope d → e.Ready c → (∀ n ∈ ns, c.survey.has n = true) →
    AbreastAt (Conversion.Bilingual scope) (fun _ _ => True) (e.hoistAll ns)
      ((e.inDialect .draft7).hoistAll ns) c d := by
  induction ns with
  | nil => exact fun c d h _ _ => ⟨.ok trivial, h⟩
  | cons n rest ih =>
    intro c d h hready hvisited
    obtain ⟨hn, hrest⟩ := List.forall_mem_cons.mp hvisited
    have hvw := h.survey.visit_getD n
    -- Whether a node is hoisted is told from marks and counts, which are the same.
    have hextract : AbreastAt (Conversion.Bilingual scope) (fun _ _ => True)
        (if e.isHoisted c.store c.linkage n ((c.survey.visit? n).getD {}) = true
          then do e.extract n; e.hoistAll rest else e.hoistAll rest)
        (if e.isHoisted c.store c.linkage n ((c.survey.visit? n).getD {}) = true
          then do (e.inDialect .draft7).extract n; (e.inDialect .draft7).hoistAll rest
          else (e.inDialect .draft7).hoistAll rest) c d := by
      split
      · rename_i hhoisted
        refine (extract_abreastAt htarget h fun v hv hmerged => ?_).bind
          fun _ _ c' d' hc' _ _ h' => ?_
        · rw [hv] at hhoisted
          exact hready n v hv hmerged hhoisted
        · have hhoists := ((extract_hoists hn).of_returns hc').1
          refine ih c' d' h' (hready.hoists hhoists) fun m hm => ?_
          rw [hhoists.rewrites.has]
          exact hrest m hm
      · exact ih c d h hready hrest
    unfold AbreastAt hoistAll
    rw [run_bind, run_get, run_bind, run_get]
    dsimp only
    rw [run_bind, run_visitOf, run_bind, run_visitOf]
    dsimp only
    rw [isHoisted_alongside h .draft7 hvw, hvw.cycle,
      show (e.inDialect .draft7).root = e.root from rfl]
    split
    · exact (abreast_fail (Q := fun _ _ => True) .misuse c d h).bind
        fun _ _ _ _ hc' => absurd hc' not_returns_fail
    · exact hextract

/-- **Hoisting.** The same nodes become definitions in both dialects, with the same ids. -/
theorem hoist_abreastAt (htarget : e.target = .draft2020) (h : c.Bilingual scope d)
    (hready : e.Ready c) : AbreastAt (Conversion.Bilingual scope) (fun _ _ => True) e.hoist
      (e.inDialect .draft7).hoist c d := by
  unfold AbreastAt hoist
  rw [run_bind, run_get, run_bind, run_get]
  dsimp only
  rw [h.survey.order]
  exact hoistAll_abreastAt htarget _ c d h hready fun n hn => (Survey.has_iff _ _).mpr hn

end Emission

/-! ### Content taken over -/

namespace Entries

variable {scope : Option Addressing} {refers : NodeId → String → Prop}
  {own own' below below' : Entries}

/-- A reference is written into keywords that have none, at the end. -/
theorem mergeBelow_reference (hdistinct : own.Distinct) (hnone : own.get? Visit.refKey = none)
    (ref : String) : Emission.mergeBelow own [(Visit.refKey, .str ref)] =
      own.set Visit.refKey (.str ref) := by
  refine (hdistinct.set _ _).update_of_subset ?_
  rw [set_of_get?_none hnone]
  exact List.subset_append_left _ _

/-- Keywords over those of a target say the same in both dialects. -/
theorem RewordedBody.mergeBelow (h : below.RewordedBody scope refers below')
    (hown : own.Reworded none refersNowhere .neutral own') :
    (Emission.mergeBelow own below).RewordedBody scope refers
      (Emission.mergeBelow own' below') := by
  obtain ⟨form, hbody, hcomplete⟩ := h
  refine ⟨form, (hown.of_neutral.update hbody).update hown.of_neutral, fun hform => ?_⟩
  exact has_update (has_update_right (hcomplete hform) _) _

/-- A body takes over the content of a target in both dialects.  A reference is written among the
    keywords in the first one, and in the second one the target is an element of `allOf`. -/
theorem RewordedFragment.inherited {t : NodeId} (h : RewordedFragment scope refers below below')
    (hrefers : ∀ ref, below' = [(Visit.refKey, .str ref)] → refers t ref)
    (hown : own.Reworded none refersNowhere .neutral own') (hdistinct : own.Distinct) :
    (Emission.inherited .draft2020 own t below).RewordedBody scope refers
      (Emission.inherited .draft7 own' t below') := by
  unfold Emission.inherited
  rw [if_neg (by simp)]
  cases h with
  | @reference ref ref' haddress =>
    have hnone : own.get? (.str "$ref") = none := (hown.get?_of_neutral (by decide)).1
    rw [if_pos ⟨rfl, rfl⟩, mergeBelow_reference hdistinct hnone]
    exact ⟨.wrapper, hown.of_neutral.set (.besides haddress (hrefers ref' rfl)), nofun⟩
  | body hbody =>
    have hnone : ¬ (below'.has Visit.refKey = true ∧ Target.draft7 = .draft7) := by
      obtain ⟨form, hbody, -⟩ := hbody
      unfold Entries.has
      rw [hbody.get?_ref]
      exact fun h => nomatch h.1
    rw [if_neg hnone]
    exact hbody.mergeBelow hown

end Entries

/-! ### Settling -/

/-- Finished visits say the same with bodies that do. -/
theorem Visit.Bilingual.withBody {scope : Option Addressing}
    {refers refers' : NodeId → String → Prop} {v w : Visit} {body body' : Entries}
    (h : v.Bilingual scope refers w) (hmerged : v.merged = true)
    (hbody : body.RewordedBody scope refers' body') (hdistinct : body.Distinct) :
    (v.withBody body).Bilingual scope refers' (w.withBody body') where
  count := by simpa using h.count
  cycle := by simpa using h.cycle
  target := by simpa using h.target
  merged := by simpa using h.merged
  id := by simpa using h.id
  hoisted := by simpa using h.hoisted
  body := by simpa using hbody
  distinct := by simpa using hdistinct
  reference hd := by
    rw [isSome_definition_withBody] at hd
    rw [fragment_withBody hd, fragment_withBody (h.hoisted.trans hd)]
    exact h.reference hd
  own hwaits := by
    rw [merged_withBody, hmerged] at hwaits
    cases hwaits

namespace Emission

variable {e : Emission} {scope : Option Addressing} {c d : Conversion}

/-- Only a visit that is there takes over content. -/
theorem visit?_of_target {n t : NodeId} {v : Visit} (hv : (c.survey.visit? n).getD {} = v)
    (ht : v.target = some t) : c.survey.visit? n = some v := by
  cases hn : c.survey.visit? n with
  | none =>
    rw [hn] at hv
    cases hv
    cases ht
  | some u =>
    rw [hn] at hv
    exact congrArg some hv

/-- Nodes that say the same are marked as finished. -/
theorem marked_bilingual (h : Conversion.Bilingual scope c d) (n : NodeId) :
    Conversion.Bilingual scope (marked c n) (marked d n) := by
  refine ⟨h.store, h.survey.modify (fun _ _ _ _ _ _ href => href) fun v w _ _ hvw hsub => ?_,
    h.linkage, h.scope⟩
  exact { hvw.mono hsub with merged := rfl, own := nofun }

/-- A finished node takes over the content of its target in both dialects. -/
theorem take_abreast (htarget : e.target = .draft2020) (h : Conversion.Bilingual scope c d)
    {n : NodeId} (t : NodeId) (hmerged : ∀ v, c.survey.visit? n = some v → v.merged = true)
    {own own' : Entries} (hown : own.Reworded none refersNowhere .neutral own')
    (hdistinct : own.Distinct) :
    AbreastAt (Conversion.Bilingual scope) (fun _ _ => True)
      (do let body ← e.inherit own t; onVisit n fun v => v.withBody body)
      (do let body ← (e.inDialect .draft7).inherit own' t; onVisit n fun v => v.withBody body)
      c d := by
  have hleft : e.inherit own t c =
      (.ok (inherited .draft2020 own t (c.survey.fragment t)), c) := by
    rw [run_inherit (by rw [htarget]; nofun), htarget]
  have hright : (e.inDialect .draft7).inherit own' t d =
      (.ok (inherited .draft7 own' t (d.survey.fragment t)), d) :=
    run_inherit fun _ _ => (hown.get?_of_neutral (by decide)).2
  have hbody := (h.survey.fragment t).inherited (t := t) (fun ref href => href) hown hdistinct
  -- The newer dialect merges the entries of both, and a key stays in one place.
  have hdistinct' : (inherited .draft2020 own t (c.survey.fragment t)).Distinct := by
    unfold inherited
    rw [if_neg (by simp)]
    exact (hdistinct.update _).update _
  unfold AbreastAt
  rw [run_bind, hleft, run_bind, hright]
  refine ⟨.ok trivial, h.store, h.survey.modify (fun v w ref hv hw hvw href => ?_)
    fun v w hv hw hvw hsub => ?_, h.linkage, h.scope⟩
  · rw [Visit.fragment_withBody]
    · exact href
    · rw [hvw.hoisted]
      exact hvw.isReference_iff.mp (by rw [href]; rfl)
  · exact hvw.withBody (hmerged v hv) (hbody.mono hsub) hdistinct'

/-- **Settling.** Finishing a node says the same in both dialects. -/
theorem settle_abreast (htarget : e.target = .draft2020) (hoverride : e.override = none)
    (links : Nat) (n : NodeId) :
    Abreast (Conversion.Bilingual scope) (fun _ _ => True) (e.settle links n)
      ((e.inDialect .draft7).settle links n) := by
  induction links generalizing n with
  | zero => exact abreast_pure trivial
  | succ links ih =>
    intro c d h
    have hvw := h.survey.visit_getD n
    rw [settle_eq, settle_eq]
    unfold AbreastAt
    rw [run_bind, run_visitOf, run_bind, run_visitOf]
    generalize hv : (c.survey.visit? n).getD {} = v at hvw
    generalize hw : (d.survey.visit? n).getD {} = w at hvw
    dsimp only
    rw [hvw.merged]
    by_cases hmerged : v.merged = true
    · rw [if_pos hmerged, if_pos hmerged]
      exact ⟨.ok trivial, h⟩
    rw [if_neg hmerged, if_neg hmerged]
    have hamend : ∀ {e : Emission} {u : Visit}, e.override = none → e.amend n u = pure () := by
      intro e u hnone
      unfold amend
      rw [hnone]
    rw [hamend hoverride, hamend (show (e.inDialect .draft7).override = none from hoverride)]
    have hmarked := marked_bilingual h n
    show AbreastAt _ _ (do e.finish links n v; pure ())
      (do (e.inDialect .draft7).finish links n w; pure ()) (marked c n) (marked d n)
    have hfinish : AbreastAt (Conversion.Bilingual scope) (fun _ _ => True)
        (e.finish links n v) ((e.inDialect .draft7).finish links n w) (marked c n)
        (marked d n) := by
      unfold finish
      rw [hvw.target]
      cases ht : v.target with
      | none => exact ⟨.ok trivial, hmarked⟩
      | some t =>
        have hfound := Emission.visit?_marked_self (visit?_of_target hv ht)
        obtain ⟨form, hown, hneutral⟩ := hvw.own (by simpa using hmerged)
        obtain rfl := hneutral (by rw [ht]; rfl)
        refine AbreastAt.bind (ih t _ _ hmarked) fun _ _ c' d' hc' _ _ h' => ?_
        -- what is finished stays as it is while its target is
        have hkept := ((settle_advances links t).of_returns hc').finished hfound rfl
        refine take_abreast htarget h' t (fun u hu => ?_) hown hvw.distinct
        obtain rfl := Option.some.inj (hkept.symm.trans hu)
        rfl
    exact hfinish.bind fun _ _ _ _ _ _ _ h' => ⟨.ok trivial, h'⟩

/-- **Settling.** Finishing all nodes says the same in both dialects. -/
theorem settleVisits_abreast (htarget : e.target = .draft2020) (hoverride : e.override = none) :
    Abreast (Conversion.Bilingual scope) (fun _ _ => True) e.settleVisits
      (e.inDialect .draft7).settleVisits := by
  have hall : ∀ links ns, Abreast (Conversion.Bilingual scope) (fun _ _ => True)
      (e.settleAll links ns) ((e.inDialect .draft7).settleAll links ns) := by
    intro links ns
    induction ns with
    | nil => exact abreast_pure trivial
    | cons n rest ih => exact (settle_abreast htarget hoverride links n).bind fun _ _ _ => ih
  refine abreast_read fun c d h => ?_
  dsimp only
  rw [h.survey.order, h.survey.size]
  exact hall _ _

end Emission

end SchemaGraph
