import SchemaGraph.Document
import SchemaGraph.Proofs.Survey.Exploration

namespace SchemaGraph

open SchemaGraph.Action Conversion

/-!
# What hoisting does

Hoisting changes a visit in one way only: its keywords become a definition, and a bare
reference to the definition takes their place.  A visit that is a reference already stays as
it is, so that no node is hoisted twice.

* `Conversion.Rewrites` — nothing but events and visits has changed
* `Emission.Names`      — the reference to the definition of a node
* `Emission.Hoists`     — some visits became definitions
* `Emission.hoist_hoists` — every node that is to be hoisted is a reference behind
* `Emission.Carries`      — a relation that each single step of hoisting keeps to
-/

namespace Conversion

/-- Nothing has changed but events, the visits of nodes and the number of the next id. -/
structure Rewrites (c c' : Conversion) : Prop where
  store : c'.store = { c.store with events := c'.store.events } := by rfl
  linkage : c'.linkage = c.linkage := by rfl
  number : c'.survey.number = c.survey.number := by rfl
  order : c'.survey.order = c.survey.order

/-- Nothing is rewritten if nothing changes. -/
theorem Rewrites.refl (c : Conversion) : Rewrites c c where
  order := rfl

/-- Visits may be rewritten again. -/
theorem Rewrites.trans {c d e : Conversion} (h₁ : Rewrites c d) (h₂ : Rewrites d e) :
    Rewrites c e where
  store := by rw [h₂.store, h₁.store]
  linkage := h₂.linkage.trans h₁.linkage
  number := h₂.number.trans h₁.number
  order := h₂.order.trans h₁.order

instance : Std.Refl Rewrites := ⟨Rewrites.refl⟩

instance : Trans Rewrites Rewrites Rewrites := ⟨Rewrites.trans⟩

/-- The same nodes are visited behind. -/
theorem Rewrites.has {c c' : Conversion} (h : Rewrites c c') (n : NodeId) :
    c'.survey.has n = c.survey.has n := by
  rw [Bool.eq_iff_iff, Survey.has_iff, Survey.has_iff, h.order]

/-- What leaves events behind leaves nodes, answers and annotations alone. -/
theorem grows_of_events {s t : Store} (h : t = { s with events := t.events }) :
    Store.Grows s t := by
  rw [h]
  refine ⟨List.prefix_refl _, fun h => h, fun _ _ _ => rfl, fun h => ⟨[], ?_⟩, rfl⟩
  rw [List.append_nil]
  exact h

/-- The store grows by events alone. -/
theorem Rewrites.grows {c c' : Conversion} (h : Rewrites c c') :
    Store.Grows c.store c'.store := grows_of_events h.store

/-- What leaves events behind leaves a store closed. -/
theorem closed_of_events {s t : Store} (h : t = { s with events := t.events }) (hs : s.Closed) :
    t.Closed := by
  have hmakes : Store.Makes s t := by
    rw [h]
    exact Store.makes_of_eq rfl rfl rfl rfl rfl rfl rfl
  exact (hmakes hs).closed

/-- A closed store stays closed. -/
theorem Rewrites.closed {c c' : Conversion} (h : Rewrites c c') (hs : c.store.Closed) :
    c'.store.Closed := closed_of_events h.store hs

/-- A change to a visit rewrites. -/
theorem rewrites_onVisit (n : NodeId) (f : Visit → Visit) :
    Within Rewrites (onVisit n f) := fun c =>
  { order := Survey.order_modify c.survey n f }

/-- An event is no change to speak of. -/
theorem record_rewrites (c : Conversion) (e : Event) :
    Rewrites c { c with store := c.store.record e } where
  order := rfl

/-- Recording an event rewrites nothing. -/
theorem log_rewrites (e : Event) : Within Rewrites (log e) :=
  fun c => record_rewrites c e

/-- A failure leaves an event at most. -/
theorem run_fail (α : Type) (f : Failure) (c : Conversion) :
    ∃ c', (fail f : Action Conversion α) c = (.error f, c') ∧ Rewrites c c' ∧
      c'.survey = c.survey := by
  unfold fail onStore Store.fail
  cases f.event? with
  | some e => exact ⟨_, rfl, record_rewrites c e, rfl⟩
  | none => exact ⟨_, rfl, .refl c, rfl⟩

/-- A failure rewrites nothing. -/
theorem fail_rewrites {α : Type} (f : Failure) :
    Within Rewrites (fail f : Action Conversion α) := by
  intro c
  obtain ⟨c', hrun, hrewrites, -⟩ := run_fail α f c
  rw [hrun]
  exact hrewrites

/-- The visit of a node, as an action reads it. -/
theorem run_visitOf (n : NodeId) (c : Conversion) :
    visitOf n c = (.ok ((c.survey.visit? n).getD {}), c) := rfl

end Conversion

/-- A visit whose keywords became a definition. -/
def Visit.defined (v : Visit) (ref : String) (id : Value) : Visit :=
  { v with definition := some v.fragment, definitionId := id, fragment := [(refKey, .str ref)] }

/-- A visit whose keywords became a definition is a reference. -/
@[simp] theorem Visit.isReference_defined (v : Visit) (ref : String) (id : Value) :
    (v.defined ref id).isReference = true := rfl

namespace Emission

/-- The reference that names the definition of a node: the address of the node's own document,
    or the address of an entry in a table. -/
def Names (e : Emission) (store : Store) (linkage : Option Linkage) (n : NodeId) (id : Value)
    (ref : String) : Prop :=
  match linkage with
  | some l =>
    if (documentId store linkage n).isTruthy then
      l.addressing.address? (documentId store linkage n) = .ok ref
    else
      id.isTruthy ∧ ref = definitionAddress e.target (l.addressing.address sharedDocument) id
  | none =>
    if n = e.root then ref = "#" else id.isTruthy ∧ ref = definitionAddress e.target "" id

/-- Some visits became definitions; all others stayed as they were. -/
structure Hoists (e : Emission) (c c' : Conversion) : Prop where
  rewrites : Rewrites c c'
  visits : ∀ {n v}, c.survey.visit? n = some v →
    c'.survey.visit? n = some v ∨
      (v.isReference = false ∧ ∃ ref id, e.Names c.store c.linkage n id ref ∧
        c'.survey.visit? n = some (v.defined ref id))

variable {e : Emission}

/-- Which reference names a definition does not depend on the visits. -/
theorem names_eq {c c' : Conversion} (h : Rewrites c c') (n : NodeId) (id : Value)
    (ref : String) :
    e.Names c'.store c'.linkage n id ref ↔ e.Names c.store c.linkage n id ref := by
  have hdocument : documentId c'.store c'.linkage n = documentId c.store c.linkage n := by
    rw [h.linkage, h.store]
    rfl
  unfold Names
  rw [hdocument, h.linkage]

/-- Whether a node is to be hoisted does not depend on the other visits. -/
theorem isHoisted_eq {c c' : Conversion} (h : Rewrites c c') (n : NodeId) (v : Visit) :
    e.isHoisted c'.store c'.linkage n v = e.isHoisted c.store c.linkage n v := by
  rw [h.linkage, h.store]
  rfl

/-- No visit becomes a definition if nothing changes. -/
theorem Hoists.refl (c : Conversion) : Hoists e c c where
  rewrites := .refl c
  visits h := .inl h

/-- Visits may become definitions in two rounds. -/
theorem Hoists.trans {c d f : Conversion} (h₁ : Hoists e c d) (h₂ : Hoists e d f) :
    Hoists e c f where
  rewrites := h₁.rewrites.trans h₂.rewrites
  visits {n v} hv := by
    rcases h₁.visits hv with hd | ⟨hfresh, ref, id, hnames, hd⟩
    · rcases h₂.visits hd with hf | ⟨hfresh, ref, id, hnames, hf⟩
      · exact .inl hf
      · exact .inr ⟨hfresh, ref, id, (names_eq h₁.rewrites n id ref).mp hnames, hf⟩
    · -- what became a definition is a reference, and is left alone
      rcases h₂.visits hd with hf | ⟨hfresh', -⟩
      · exact .inr ⟨hfresh, ref, id, hnames, hf⟩
      · cases hfresh'

instance : Std.Refl (Hoists e) := ⟨Hoists.refl⟩

instance : Trans (Hoists e) (Hoists e) (Hoists e) := ⟨Hoists.trans⟩

/-- A change that leaves all visits alone hoists nothing. -/
theorem Hoists.of_rewrites {c c' : Conversion} (h : Rewrites c c')
    (hv : ∀ n, c'.survey.visit? n = c.survey.visit? n) : Hoists e c c' where
  rewrites := h
  visits hn := .inl ((hv _).trans hn)

/-- A visit that is a reference stays as it is. -/
theorem Hoists.isReference {c c' : Conversion} (h : Hoists e c c') {n : NodeId} {v v' : Visit}
    (hv : c.survey.visit? n = some v) (hv' : c'.survey.visit? n = some v')
    (href : v.isReference = true) : v' = v := by
  rcases h.visits hv with hsame | ⟨hfresh, -⟩
  · exact Option.some.inj (hv'.symm.trans hsame)
  · rw [href] at hfresh
    cases hfresh

/-! ### References -/

/-- An id that is chosen is one; no visit changes. -/
theorem chooseId_run (first second : Value) {stem : String} (hstem : stem ≠ "")
    (c : Conversion) :
    ∃ id c', chooseId first second stem c = (.ok id, c') ∧ id.isTruthy = true ∧
      Rewrites c c' ∧ ∀ m, c'.survey.visit? m = c.survey.visit? m := by
  unfold chooseId
  by_cases hfirst : first.isTruthy
  · rw [if_pos hfirst]
    exact ⟨first, c, rfl, hfirst, .refl c, fun _ => rfl⟩
  · rw [if_neg hfirst]
    by_cases hsecond : second.isTruthy
    · rw [if_pos hsecond]
      exact ⟨second, c, rfl, hsecond, .refl c, fun _ => rfl⟩
    · rw [if_neg hsecond]
      let c' : Conversion :=
        { c with survey := { c.survey with counter := c.survey.counter + 1 } }
      refine ⟨_, c', rfl, ?_, { order := rfl }, fun _ => rfl⟩
      have hne : stem ++ toString c.survey.counter ≠ "" := fun h =>
        hstem (String.append_eq_empty_iff.mp h).1
      simp only [Value.isTruthy, decide_eq_true_eq]
      exact hne

/-- What is known behind the choice of a reference for a visited node. -/
structure Referred (e : Emission) (n : NodeId) (v : Visit) (c : Conversion)
    (choice : String × Option Value) (c' : Conversion) : Prop where
  rewrites : Rewrites c c'
  others : ∀ m, m ≠ n → c'.survey.visit? m = c.survey.visit? m
  visit : ∃ id, c'.survey.visit? n = some { v with definitionId := id } ∧
    e.Names c.store c.linkage n (choice.2.getD id) choice.1

/-- The reference that is chosen for a visited node names its definition, and choosing it hoists
    nothing. -/
theorem referenceFor_meets {c : Conversion} {n : NodeId} {v : Visit}
    (hv : c.survey.visit? n = some v) :
    Meets (e.referenceFor n v) c (Referred e n v c) (Hoists e c) := by
  have hsame : c.survey.visit? n = some { v with definitionId := v.definitionId } := hv
  unfold Meets referenceFor
  rw [run_bind, run_get]
  dsimp only
  cases hl : c.linkage with
  | none =>
    dsimp only
    by_cases hn : n = e.root
    · rw [if_pos hn]
      exact ⟨.refl c, fun _ _ => rfl, v.definitionId, hsame, by simp [Names, hl, hn]⟩
    · rw [if_neg hn]
      -- Inside one document an id is chosen, which leaves the visits.
      obtain ⟨id, c', hrun, hid, hrewrites, hvisits⟩ :=
        chooseId_run .null (fragmentId v) (by decide : "__schema" ≠ "") c
      rw [run_bind, hrun]
      refine ⟨hrewrites, fun m _ => hvisits m, v.definitionId, (hvisits n).trans hsame, ?_⟩
      simp [Names, hl, hn, hid]
  | some l =>
    dsimp only
    -- Across documents a node with a document of its own is addressed there.
    by_cases hdocument : (documentId c.store (some l) n).isTruthy
    · rw [if_pos hdocument]
      cases haddress : l.addressing.address? (documentId c.store (some l) n) with
      | ok ref =>
        refine ⟨.refl c, fun _ _ => rfl, v.definitionId, hsame, ?_⟩
        unfold Names
        rw [hl]
        dsimp only
        rw [if_pos hdocument]
        exact haddress
      | error f =>
        dsimp only
        obtain ⟨c', hrun, hrewrites, hsurvey⟩ := run_fail (String × Option Value) f c
        rw [hrun]
        exact .of_rewrites hrewrites fun m => by rw [hsurvey]
    · rw [if_neg hdocument]
      -- Any other one goes into the common document, and its visit keeps the chosen id.
      obtain ⟨id, c', hrun, hid, hrewrites, hvisits⟩ :=
        chooseId_run v.definitionId (fragmentId v) (by decide : "schema" ≠ "") c
      rw [run_bind, hrun]
      dsimp only
      rw [run_bind]
      refine ⟨hrewrites.trans (rewrites_onVisit n _ c'), fun m hm => ?_, id, ?_, ?_⟩
      · exact (Survey.visit?_modify_of_ne hm c'.survey _).trans (hvisits m)
      · exact Survey.visit?_modify_of_visit? ((hvisits n).trans hv) _
      · unfold Names
        rw [hl]
        dsimp only
        rw [if_neg hdocument]
        exact ⟨hid, rfl⟩

/-! ### Hoisting -/

/-- **One node.** Whatever comes of hoisting a node, it becomes a definition or nothing
    happens to it. -/
theorem extract_hoists {c : Conversion} {n : NodeId} (hn : c.survey.has n = true) :
    Meets (e.extract n) c
      (fun _ c' => Hoists e c c' ∧ ∀ v', c'.survey.visit? n = some v' → v'.isReference = true)
      (Hoists e c) := by
  obtain ⟨v, hv⟩ := Survey.visit?_of_has hn
  refine .bind (P := fun w d => v = w ∧ c = d) ?_ ?_
  · unfold Meets
    rw [run_visitOf, hv]
    exact ⟨rfl, rfl⟩
  · rintro _ _ ⟨rfl, rfl⟩
    split
    · rename_i href
      refine ⟨.refl c, fun v' hv' => ?_⟩
      rw [← Option.some.inj (hv.symm.trans hv')]
      exact href
    · rename_i hfresh
      refine .bind (referenceFor_meets hv) fun choice d hd => ?_
      obtain ⟨ref, id⟩ := choice
      obtain ⟨old, hold, hnames⟩ := hd.visit
      -- what remains cannot fail: the visit is changed, and an event left
      have hdefined : (d.survey.modify n fun v => define v ref id).visit? n
          = some (v.defined ref (id.getD old)) := Survey.visit?_modify_of_visit? hold _
      refine ⟨⟨hd.rewrites.trans ?_, fun {m w} hm => ?_⟩, fun v' hv' => ?_⟩
      · exact (rewrites_onVisit n _ d).trans (record_rewrites _ _)
      · by_cases hmn : m = n
        · subst hmn
          obtain rfl : w = v := Option.some.inj (hm.symm.trans hv)
          exact .inr ⟨by simpa using hfresh, ref, _, hnames, hdefined⟩
        · exact .inl ((Survey.visit?_modify_of_ne hmn d.survey _).trans
            ((hd.others m hmn).trans hm))
      · obtain rfl := Option.some.inj (hdefined.symm.trans hv')
        rfl

/-- A reference is not extracted. -/
theorem extract_idle {n : NodeId} {v : Visit} (hv : c.survey.visit? n = some v)
    (href : v.isReference = true) : e.extract n c = (.ok (), c) := by
  unfold extract
  rw [run_bind, run_visitOf, hv]
  dsimp only [Option.getD_some]
  rw [if_pos href]
  rfl

/-- What hoisting one node comes to, written out. -/
theorem hoistAll_cons (e : Emission) {n : NodeId} (rest : List NodeId) {v : Visit}
    (hv : c.survey.visit? n = some v) :
    e.hoistAll (n :: rest) c =
      (if v.cycle.isNone ∧ n ≠ e.root ∧ n = .gap then
        (do Conversion.fail .misuse; if e.isHoisted c.store c.linkage n v then e.extract n
            e.hoistAll rest : Action Conversion Unit)
      else if e.isHoisted c.store c.linkage n v then (do e.extract n; e.hoistAll rest)
      else e.hoistAll rest) c := by
  conv_lhs => unfold hoistAll
  rw [run_bind, run_get]
  dsimp only
  rw [run_bind, run_visitOf, hv]
  dsimp only [Option.getD_some]

/-- Hoisting that returns has made a definition of its first node, or none was needed; a child that
    is not there would have been a failure. -/
theorem hoistAll_returns {n : NodeId} {rest : List NodeId} {v : Visit} {d : Conversion}
    (hv : c.survey.visit? n = some v) (h : Returns (e.hoistAll (n :: rest)) c () d) :
    ¬(v.cycle.isNone = true ∧ n ≠ e.root ∧ n = .gap) ∧
      ((e.isHoisted c.store c.linkage n v = true ∧
          ∃ b, Returns (e.extract n) c () b ∧ Returns (e.hoistAll rest) b () d) ∨
        (e.isHoisted c.store c.linkage n v = false ∧ Returns (e.hoistAll rest) c () d)) := by
  unfold Returns at h
  rw [hoistAll_cons e rest hv] at h
  split at h
  case isTrue =>
    obtain ⟨c', hfail, -⟩ := run_fail Unit .misuse c
    rw [run_bind, hfail] at h
    cases h
  case isFalse hgap =>
    refine ⟨hgap, ?_⟩
    split at h
    case isTrue hhoisted =>
      obtain ⟨_, b, hextract, hmore⟩ := returns_bind.mp h
      exact .inl ⟨hhoisted, b, hextract, hmore⟩
    case isFalse hkept => exact .inr ⟨Bool.eq_false_iff.mpr hkept, h⟩

/-- **Hoisting.** Nodes that are hoisted in order are references behind. -/
theorem hoistAll_hoists {ns : List NodeId} {c : Conversion}
    (hns : ∀ n ∈ ns, c.survey.has n = true) :
    Meets (e.hoistAll ns) c
      (fun _ c' => Hoists e c c' ∧ ∀ n ∈ ns, ∀ v v', c.survey.visit? n = some v →
        c'.survey.visit? n = some v' → e.isHoisted c.store c.linkage n v → v'.isReference = true)
      (Hoists e c) := by
  induction ns generalizing c with
  | nil => exact ⟨.refl c, nofun⟩
  | cons n rest ih =>
    obtain ⟨hn, hrest⟩ := List.forall_mem_cons.mp hns
    obtain ⟨v, hv⟩ := Survey.visit?_of_has hn
    -- behind the first node the others are hoisted, and it stays a reference
    have htail : ∀ d, Hoists e c d →
        (∀ w, d.survey.visit? n = some w → e.isHoisted c.store c.linkage n v →
          w.isReference = true) →
        Meets (e.hoistAll rest) d
          (fun _ c' => Hoists e c c' ∧ ∀ m ∈ n :: rest, ∀ u u', c.survey.visit? m = some u →
            c'.survey.visit? m = some u' → e.isHoisted c.store c.linkage m u →
            u'.isReference = true) (Hoists e c) := by
      intro d hd hfirst
      have hvisited : ∀ m ∈ rest, d.survey.has m = true := fun m hm => by
        rw [hd.rewrites.has]
        exact hrest m hm
      refine (ih hvisited).mono (fun _ c' ⟨hc', href⟩ => ⟨hd.trans hc', ?_⟩)
        fun c' hc' => hd.trans hc'
      intro m hm u u' hu hu' hhoisted
      obtain ⟨w, hw⟩ : ∃ w, d.survey.visit? m = some w := by
        apply Survey.visit?_of_has
        rw [hd.rewrites.has]
        exact Survey.has_of_visit? hu
      rcases List.mem_cons.mp hm with rfl | hm
      · obtain rfl : u = v := Option.some.inj (hu.symm.trans hv)
        have hwref := hfirst w hw hhoisted
        rw [hc'.isReference hw hu' hwref]
        exact hwref
      · rcases hd.visits hu with hsame | ⟨-, ref, id, -, hdefined⟩
        · refine href m hm u u' hsame hu' ?_
          rw [isHoisted_eq hd.rewrites]
          exact hhoisted
        · rw [hc'.isReference hdefined hu' rfl]
          rfl
    have hstep : Meets
        (if e.isHoisted c.store c.linkage n v = true then do e.extract n; e.hoistAll rest
          else e.hoistAll rest) c
        (fun _ c' => Hoists e c c' ∧ ∀ m ∈ n :: rest, ∀ u u', c.survey.visit? m = some u →
          c'.survey.visit? m = some u' → e.isHoisted c.store c.linkage m u →
          u'.isReference = true) (Hoists e c) := by
      split
      · exact .bind (extract_hoists hn) fun _ d hd => htail d hd.1 fun w hw _ => hd.2 w hw
      · rename_i hkept
        exact htail c (.refl c) fun w hw hhoisted => absurd hhoisted hkept
    unfold hoistAll
    refine .bind (P := fun x d => c = x ∧ c = d) ⟨rfl, rfl⟩ ?_
    rintro _ _ ⟨rfl, rfl⟩
    refine .bind (P := fun w d => v = w ∧ c = d) ?_ ?_
    · unfold Meets
      rw [run_visitOf, hv]
      exact ⟨rfl, rfl⟩
    · rintro _ _ ⟨rfl, rfl⟩
      dsimp only
      split
      · refine .bind (P := fun _ _ => False) ?_ fun _ _ h => h.elim
        obtain ⟨d, hrun, hrewrites, hsurvey⟩ := run_fail Unit .misuse c
        unfold Meets
        rw [hrun]
        exact .of_rewrites hrewrites fun m => by rw [hsurvey]
      · exact hstep

/-- All visited nodes that are to be hoisted are references behind. -/
theorem hoist_hoists (c : Conversion) :
    Meets e.hoist c
      (fun _ c' => Hoists e c c' ∧ ∀ n v v', c.survey.visit? n = some v →
        c'.survey.visit? n = some v' → e.isHoisted c.store c.linkage n v → v'.isReference = true)
      (Hoists e c) := by
  unfold hoist
  refine .bind (P := fun x d => c = x ∧ c = d) ⟨rfl, rfl⟩ ?_
  rintro _ _ ⟨rfl, rfl⟩
  refine (hoistAll_hoists fun n hn => (Survey.has_iff _ _).mpr hn).mono ?_ fun _ h => h
  intro _ c' ⟨hc', href⟩
  refine ⟨hc', fun n v v' hv hv' hhoisted => href n ?_ v v' hv hv' hhoisted⟩
  exact (Survey.has_iff _ _).mp (Survey.has_of_visit? hv)

/-! ### Single steps -/

/-- A relation that each single step of hoisting keeps to: changes of one visit that leave its mark
    alone, one more id, events and failures. -/
structure Carries (R : Conversion → Conversion → Prop) : Prop where
  visit : ∀ (n : NodeId) {f : Visit → Visit}, (∀ v, (f v).cycle = v.cycle) → Within R (onVisit n f)
  count : Within R (onSurvey fun s => { s with counter := s.counter + 1 })
  log : ∀ event, Within R (log event)
  fail : ∀ (α : Type) (f : Failure), Within R (fail f : Action Conversion α)

section Carries

variable {R : Conversion → Conversion → Prop} [Std.Refl R] [Trans R R R] (h : Carries R)
include h

/-- Choosing an id keeps to what the steps of hoisting keep to. -/
theorem Carries.chooseId (first second : Value) (stem : String) :
    Within R (chooseId first second stem) := by
  unfold Emission.chooseId
  split
  · exact within_pure _
  · split
    · exact within_pure _
    · exact .bind within_get fun _ => .bind h.count fun _ => within_pure _

/-- Choosing a reference keeps to what the steps of hoisting keep to. -/
theorem Carries.referenceFor (n : NodeId) (v : Visit) : Within R (e.referenceFor n v) := by
  refine .bind within_get fun c => ?_
  dsimp only
  split
  · split
    · split
      · exact within_pure _
      · exact h.fail _ _
    · refine .bind (h.chooseId _ _ _) fun id => ?_
      exact .bind (h.visit n fun _ => rfl) fun _ => within_pure _
  · split
    · exact within_pure _
    · exact .bind (h.chooseId _ _ _) fun id => within_pure _

/-- Hoisting several nodes keeps to what its steps keep to. By induction on the nodes. -/
theorem Carries.hoistAll (ns : List NodeId) : Within R (e.hoistAll ns) := by
  have hvisitOf : ∀ n, Within R (visitOf n) := fun n => .bind within_get fun _ => within_pure _
  have hextract : ∀ n, Within R (e.extract n) := by
    intro n
    refine .bind (hvisitOf n) fun v => ?_
    split
    · exact within_pure _
    · exact .bind (h.referenceFor n v) fun _ => .bind (h.visit n fun _ => rfl) fun _ => h.log _
  induction ns with
  | nil => exact within_pure _
  | cons n rest ih =>
    unfold Emission.hoistAll
    refine .bind within_get fun c => .bind (hvisitOf n) fun v => ?_
    -- The same branch stands in both alternatives, so it is settled first.
    have hone : Within R (if e.isHoisted c.store c.linkage n v = true then do
        e.extract n; e.hoistAll rest else e.hoistAll rest) := by
      split
      · exact .bind (hextract n) fun _ => ih
      · exact ih
    dsimp only
    split
    · exact .bind (h.fail _ _) fun _ => hone
    · exact hone

/-- Hoisting keeps to what its steps keep to. -/
theorem Carries.hoist : Within R e.hoist := .bind within_get fun _ => h.hoistAll _

end Carries

end Emission

end SchemaGraph
