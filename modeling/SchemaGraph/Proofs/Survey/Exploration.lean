import Mathlib.Data.List.Chain
import SchemaGraph.Proofs.Survey.Contents

namespace SchemaGraph

open SchemaGraph.Action

namespace Conversion

/-!
# What a descent finds

A descent that returns has lowered every node that it has entered, and followed all of its
leads.  A lead that goes back to a node above is marked there as a cycle, and a mark always
stands for a way back to the node, over nodes that were entered later.

* `Conversion.Followed`  — a lead was followed, and marked if it goes back
* `Conversion.Looped`    — a way from a node back to it, over nodes entered later
* `Conversion.Explores`  — what a descent that returns has done
* `Conversion.arrive_explores` — every arrival that returns explores
-/

/-- The node carries the mark of a cycle. -/
def Marked (c : Conversion) (n : NodeId) : Prop :=
  ∃ v, c.survey.visit? n = some v ∧ v.cycle.isSome

/-- The place of a node in the order of visits. -/
def place (c : Conversion) (n : NodeId) : Nat := c.survey.order.idxOf n

/-- A lead of a node was followed; if it goes back to one of the nodes above, that one is
    marked. -/
def Followed (c : Conversion) (above : List NodeId) (n : NodeId) (lead : Lead) : Prop :=
  ∃ m, c.store.follow? n lead = some m ∧ c.survey.has m = true ∧ (m ∈ above → c.Marked m)

/-- A closed walk of edges from a node back to it, on which it was the first to be entered. -/
def Looped (side : Side) (c : Conversion) (n : NodeId) : Prop :=
  ∃ xs, List.IsChain (c.store.Edge side) (n :: (xs ++ [n])) ∧
    ∀ x ∈ xs, c.survey.has x = true ∧ c.place n ≤ c.place x

/-- The nodes above, the nearest one first: each leads to the one before it, which was
    entered later. -/
structure Lined (side : Side) (c : Conversion) (above : List NodeId) : Prop where
  chain : List.IsChain (fun a b => c.store.Edge side b a) above
  order : above.Pairwise fun a b => c.place b < c.place a
  visited : ∀ a ∈ above, c.survey.has a = true

/-- A descent below the nodes above: the nodes that it has entered are lowered, and their
    leads are followed. -/
structure Explores (guide : Guide) (own above : List NodeId) (c c' : Conversion) : Prop where
  descends : Descends own c c'
  contents : ∀ {m v}, c.survey.has m = false → c'.survey.visit? m = some v →
    ∃ links w, c'.store.contents? guide links m = some w ∧ w.content = v.content
  leads : ∀ {m}, c.survey.has m = false → c'.survey.has m = true →
    ∀ lead ∈ c'.store.leads guide.settings.side m, c'.Followed (m :: above) m lead
  loops : ∀ {m}, c'.Marked m → c.Marked m ∨ Looped guide.settings.side c' m
  marks : ∀ {m}, c.survey.has m = false → c'.survey.has m = true →
    Looped guide.settings.side c' m → c'.Marked m

/-! ### Growth -/

variable {own above : List NodeId} {guide : Guide} {side : Side}

/-- Marks stay during a descent. -/
theorem Marked.mono {c c' : Conversion} {n : NodeId} (h : Descends own c c')
    (hm : c.Marked n) : c'.Marked n := by
  obtain ⟨v, hv, hcycle⟩ := hm
  obtain ⟨v', hv', -, hmark, -⟩ := h.visits hv
  exact ⟨v', hv', hmark hcycle⟩

/-- Only visited nodes are marked. -/
theorem Marked.has {c : Conversion} {n : NodeId} (h : c.Marked n) :
    c.survey.has n = true := by
  obtain ⟨v, hv, -⟩ := h
  exact Survey.has_of_visit? hv

/-- A node keeps its place in the order of visits. -/
theorem Descends.place {c c' : Conversion} (h : Descends own c c') {n : NodeId}
    (hn : c.survey.has n = true) : c'.place n = c.place n := by
  obtain ⟨more, hmore⟩ := h.order
  unfold Conversion.place
  rw [← hmore, List.idxOf_append_of_mem ((Survey.has_iff _ _).mp hn)]

/-- A node that was entered later stands behind. -/
theorem Descends.place_lt {c c' : Conversion} (h : Descends own c c') {n m : NodeId}
    (hn : c.survey.has n = true) (hm : c.survey.has m = false) : c'.place n < c'.place m := by
  have hmem : m ∉ c.survey.order := fun hmem => by
    rw [← Survey.has_iff, hm] at hmem
    cases hmem
  have hlt : c.place n < c.survey.order.length :=
    List.idxOf_lt_length_iff.mpr ((Survey.has_iff _ _).mp hn)
  rw [h.place hn]
  obtain ⟨more, hmore⟩ := h.order
  unfold Conversion.place at hlt ⊢
  rw [← hmore, List.idxOf_append_of_notMem hmem]
  omega

/-- A lead that was followed stays so during a descent. -/
theorem Followed.mono {c c' : Conversion} (h : Descends own c c') (hs : c.store.Closed)
    {n : NodeId} {lead : Lead} (hf : c.Followed above n lead) : c'.Followed above n lead := by
  obtain ⟨m, hm, hhas, hmark⟩ := hf
  exact ⟨m, Store.follow?_mono (h.store hs).1 hm, h.has hhas, fun hmem => (hmark hmem).mono h⟩

/-- A lead that was followed below some nodes was followed below more. -/
theorem Followed.of_subset {c : Conversion} {more : List NodeId} (hsub : above ⊆ more)
    {n : NodeId} {lead : Lead} (hf : c.Followed more n lead) : c.Followed above n lead := by
  obtain ⟨m, hm, hhas, hmark⟩ := hf
  exact ⟨m, hm, hhas, fun hmem => hmark (hsub hmem)⟩

/-- A closed walk stays one during a descent: edges stay, and the order of the first nodes does. -/
theorem Looped.mono {c c' : Conversion} (h : Descends own c c') (hs : c.store.Closed)
    {n : NodeId} (hn : c.survey.has n = true) (hl : Looped side c n) : Looped side c' n := by
  obtain ⟨xs, hchain, hxs⟩ := hl
  refine ⟨xs, hchain.imp fun _ _ he => he.mono (h.store hs).1 hs, fun x hx => ?_⟩
  obtain ⟨hhas, hle⟩ := hxs x hx
  exact ⟨h.has hhas, by rw [h.place hn, h.place hhas]; exact hle⟩

/-- The nodes above stay in line during a descent. -/
theorem Lined.mono {c c' : Conversion} (h : Descends own c c') (hs : c.store.Closed)
    (hl : Lined side c above) : Lined side c' above where
  chain := hl.chain.imp fun _ _ he => he.mono (h.store hs).1 hs
  order := by
    refine hl.order.imp_of_mem fun ha hb hlt => ?_
    rw [h.place (hl.visited _ ha), h.place (hl.visited _ hb)]
    exact hlt
  visited a ha := h.has (hl.visited a ha)

/-- Nothing is explored if nothing happens. -/
theorem Explores.refl (c : Conversion) : Explores guide own above c c where
  descends := .refl c
  contents hm hv := by rw [Survey.has_of_visit? hv] at hm; cases hm
  leads hm hm' := by rw [hm] at hm'; cases hm'
  loops := .inl
  marks hm hm' := by rw [hm] at hm'; cases hm'

/-- The node of a place that contributes something is there. -/
theorem isSome_of_contents? {s : Store} {links : Nat} {n : NodeId} {v : Visit}
    (h : s.contents? guide links n = some v) : (s.node? n).isSome := by
  obtain ⟨node, -, hn, -, -⟩ := Store.contents?_eq_some.mp h
  rw [hn]
  rfl

/-- A lead that was followed leads to the same node ever after. -/
theorem Followed.has {c d : Conversion} {lead : Lead} {n m : NodeId}
    (hf : c.Followed above n lead) (hg : Store.Grows c.store d.store)
    (hm : d.store.follow? n lead = some m) :
    c.store.follow? n lead = some m ∧ c.survey.has m = true := by
  obtain ⟨k, hk, hhas, -⟩ := hf
  obtain rfl : k = m := Option.some.inj ((Store.follow?_mono hg hk).symm.trans hm)
  exact ⟨hk, hhas⟩

/-- A closed walk from a node that a descent has entered was there when the descent was
    over: all the nodes on it were entered by the descent. -/
theorem Looped.restrict {c d e : Conversion} (hs : c.store.Closed)
    (hexp : Explores guide own above c d) (hde : Descends own d e) {n : NodeId}
    (hn : c.survey.has n = false) (hnd : d.survey.has n = true)
    (hl : Looped guide.settings.side e n) : Looped guide.settings.side d n := by
  have hds : d.store.Closed := (hexp.descends.store hs).2
  have hgrows := (hde.store hds).1
  -- edges out of entered nodes are edges of the smaller store
  have hedge : ∀ {a b}, c.survey.has a = false → d.survey.has a = true →
      e.store.Edge guide.settings.side a b →
      d.store.Edge guide.settings.side a b ∧ d.survey.has b = true := by
    intro a b ha had ⟨lead, hlead, hb⟩
    obtain ⟨v, hv⟩ := Survey.visit?_of_has had
    obtain ⟨links, w, hw, -⟩ := hexp.contents ha hv
    rw [Store.leads_eq hgrows hds _ (isSome_of_contents? hw)] at hlead
    obtain ⟨hb', hhas⟩ := (hexp.leads ha had lead hlead).has hgrows hb
    exact ⟨⟨lead, hlead, hb'⟩, hhas⟩
  obtain ⟨xs, hchain, hxs⟩ := hl
  -- a node that stands behind `n` was not there before the descent
  have hnew : ∀ x ∈ xs, c.survey.has x = false := by
    intro x hx
    by_contra hcx
    have hlt := (hexp.descends.trans hde).place_lt (by simpa using hcx) hn
    exact absurd (hxs x hx).2 (by omega)
  have hwalk : ∀ (ys : List NodeId) {a}, c.survey.has a = false → d.survey.has a = true →
      (∀ y ∈ ys, y ∈ xs) → List.IsChain (e.store.Edge guide.settings.side) (a :: (ys ++ [n])) →
      List.IsChain (d.store.Edge guide.settings.side) (a :: (ys ++ [n])) ∧
        ∀ y ∈ ys, d.survey.has y = true := by
    intro ys
    induction ys with
    | nil =>
      intro a ha had _ hc
      exact ⟨List.isChain_pair.mpr (hedge ha had (List.isChain_pair.mp hc)).1, nofun⟩
    | cons y rest ih =>
      intro a ha had hsub hc
      obtain ⟨hay, hc⟩ := List.isChain_cons_cons.mp hc
      obtain ⟨hay, hyd⟩ := hedge ha had hay
      obtain ⟨hrest, hvisited⟩ := ih (hnew y (hsub y (List.mem_cons_self ..))) hyd
        (fun z hz => hsub z (List.mem_cons_of_mem _ hz)) hc
      exact ⟨List.isChain_cons_cons.mpr ⟨hay, hrest⟩, List.forall_mem_cons.mpr ⟨hyd, hvisited⟩⟩
  obtain ⟨hchain, hvisited⟩ := hwalk xs hn hnd (fun _ h => h) hchain
  refine ⟨xs, hchain, fun x hx => ⟨hvisited x hx, ?_⟩⟩
  rw [← hde.place hnd, ← hde.place (hvisited x hx)]
  exact (hxs x hx).2

/-- What is explored in two parts is explored in both together. -/
theorem Explores.trans {c d e : Conversion} (hs : c.store.Closed)
    (hown : ∀ m ∈ own, c.survey.has m = true) (h₁ : Explores guide own above c d)
    (h₂ : Explores guide own above d e) : Explores guide own above c e := by
  have hd : d.store.Closed := (h₁.descends.store hs).2
  refine ⟨h₁.descends.trans h₂.descends, fun {m v} hm hv => ?_, fun {m} hm hme => ?_,
    fun {m} hm => ?_, fun {m} hm hme hloop => ?_⟩
  · cases hmd : d.survey.has m with
    | false => exact h₂.contents hmd hv
    | true =>
      obtain ⟨w, hw⟩ := Survey.visit?_of_has hmd
      obtain ⟨v', hv', -, -, hsame⟩ := h₂.descends.visits hw
      obtain rfl : v' = v := Option.some.inj (hv'.symm.trans hv)
      obtain ⟨links, x, hx, hxw⟩ := h₁.contents hm hw
      -- A node that was known in between has kept its content since.
      refine ⟨links, x, Store.contents?_mono (h₂.descends.store hd).1 hd (le_refl _) hx, ?_⟩
      rw [hxw, hsame fun hmem => by rw [hown m hmem] at hm; cases hm]
  · cases hmd : d.survey.has m with
    | false => exact h₂.leads hmd hme
    | true =>
      obtain ⟨w, hw⟩ := Survey.visit?_of_has hmd
      obtain ⟨links, x, hx, -⟩ := h₁.contents hm hw
      intro lead hlead
      rw [Store.leads_eq (h₂.descends.store hd).1 hd _ (isSome_of_contents? hx)] at hlead
      exact (h₁.leads hm hmd lead hlead).mono h₂.descends hd
  · rcases h₂.loops hm with hmd | hloop
    · exact (h₁.loops hmd).imp id fun hloop => hloop.mono h₂.descends hd hmd.has
    · exact .inr hloop
  · cases hmd : d.survey.has m with
    | false => exact h₂.marks hmd hme hloop
    | true =>
      exact (h₁.marks hm hmd (hloop.restrict hs h₁ h₂.descends hm hmd)).mono h₂.descends

/-- A change of the own nodes that enters nothing and marks nothing. -/
theorem Explores.of_quiet {c c' : Conversion} (h : Descends own c c')
    (hhas : ∀ m, c'.survey.has m = true → c.survey.has m = true)
    (hmark : ∀ m, c'.Marked m → c.Marked m) : Explores guide own above c c' where
  descends := h
  contents hm hv := by rw [hhas _ (Survey.has_of_visit? hv)] at hm; cases hm
  leads hm hm' := by rw [hhas _ hm'] at hm; cases hm
  loops hm := .inl (hmark _ hm)
  marks hm hm' := by rw [hhas _ hm'] at hm; cases hm

/-- A descent may have other contents for more nodes than it does. -/
theorem Explores.mono {more : List NodeId} (hsub : own ⊆ more) {c c' : Conversion}
    (h : Explores guide own above c c') : Explores guide more above c c' :=
  { h with descends := h.descends.mono hsub }

/-! ### Runs that return -/

/-- An action on the store returns what it returns there, and leaves all else. -/
@[simp] theorem returns_onStore {α : Type} {a : Action Store α} {c c' : Conversion} {x : α} :
    Returns (onStore a) c x c' ↔
      ∃ s, Returns a c.store x s ∧ c' = { c with store := s } := by
  unfold Returns onStore
  constructor
  · intro h
    rcases ha : a c.store with ⟨r, s⟩
    rw [ha] at h
    cases h
    exact ⟨s, rfl, rfl⟩
  · rintro ⟨s, hs, rfl⟩
    rw [hs]

/-- A change of the survey returns in the changed survey. -/
@[simp] theorem returns_onSurvey {f : Survey → Survey} {c c' : Conversion} {u : Unit} :
    Returns (onSurvey f) c u c' ↔ c' = { c with survey := f c.survey } := returns_modify

/-- A change to a visit returns in the survey with that visit changed. -/
@[simp] theorem returns_onVisit {n : NodeId} {f : Visit → Visit} {c c' : Conversion}
    {u : Unit} :
    Returns (onVisit n f) c u c' ↔ c' = { c with survey := c.survey.modify n f } :=
  returns_modify

/-- An event is recorded in the store. -/
@[simp] theorem returns_log {e : Event} {c c' : Conversion} {u : Unit} :
    Returns (log e) c u c' ↔ c' = { c with store := c.store.record e } := by
  unfold log Store.log
  simp [returns_onStore]

/-- A failure does not return. -/
theorem not_returns_fail {α : Type} {f : Failure} {c c' : Conversion} {x : α} :
    ¬ Returns (fail f : Action Conversion α) c x c' := by
  unfold fail
  rw [returns_onStore]
  rintro ⟨s, hs, -⟩
  exact Store.not_returns_fail hs

/-- A change to a visit leaves which nodes are visited. -/
theorem has_modify (s : Survey) (n m : NodeId) (f : Visit → Visit) :
    (s.modify n f).has m = s.has m := by
  rw [Bool.eq_iff_iff, Survey.has_iff, Survey.has_iff, Survey.order_modify]

/-- A change of one visit leaves the marks alone, if it leaves those of the visit alone. -/
theorem marked_onVisit {c : Conversion} {n m : NodeId} {f : Visit → Visit}
    (hf : ∀ v, (f v).cycle = v.cycle)
    (h : Marked { c with survey := c.survey.modify n f } m) : c.Marked m := by
  obtain ⟨v, hv, hmark⟩ := h
  obtain ⟨rfl, w, hw, rfl⟩ | ⟨-, hv⟩ := Survey.visit?_modify_cases hv
  · exact ⟨w, hw, by rw [← hf w]; exact hmark⟩
  · exact ⟨v, hv, hmark⟩

/-- A change of an own visit that leaves its stage and its marks alone. -/
theorem explores_onVisit {c c' : Conversion} {n : NodeId} {f : Visit → Visit} {u : Unit}
    (h : Returns (onVisit n f) c u c') (hstage : ∀ v, (f v).stage = v.stage)
    (hcycle : ∀ v, (f v).cycle = v.cycle) (hown : n ∉ own → ∀ v, (f v).content = v.content) :
    Explores guide own above c c' := by
  have hdesc : Descends own c c' :=
    (onVisit_within hstage (fun v hv => by rw [hcycle]; exact hv) hown).of_returns h
  rw [returns_onVisit] at h
  subst h
  exact .of_quiet hdesc (fun m hm => by rw [← has_modify c.survey n m f]; exact hm)
    fun m hm => marked_onVisit hcycle hm

/-- What is asked of the store enters nothing and marks nothing. -/
theorem explores_onStore {α : Type} {a : Action Store α} (hk : Within Store.Keeps a)
    {c c' : Conversion} {x : α} (h : Returns (onStore a) c x c') :
    Explores guide own above c c' := by
  have hdesc : Descends own c c' := (onStore_within hk).of_returns h
  obtain ⟨s, -, rfl⟩ := returns_onStore.mp h
  exact .of_quiet hdesc (fun _ hm => hm) fun _ hm => hm

/-! ### Single steps -/

/-- What is known of the visits to the children of a node. -/
def Visits (guide : Guide) (above : List NodeId)
    (visit : NodeId → Path → Action Conversion Unit) : Prop :=
  ∀ m path c c', Returns (visit m path) c () c' → c.store.Closed →
    Lined guide.settings.side c above →
    (∀ a ∈ above.head?, c.store.Edge guide.settings.side a m) →
    Explores guide [] above c c' ∧ c'.survey.has m = true ∧ (m ∈ above → c'.Marked m)

/-- A step of a recipe that was performed for a node below the nodes above. -/
structure Performs (guide : Guide) (above : List NodeId) (n : NodeId) (steps : List Step)
    (c c' : Conversion) : Prop where
  explores : Explores guide [n] (n :: above) c c'
  leads : ∀ lead ∈ Step.leadsOf steps, c'.Followed (n :: above) n lead
  content : ∀ {v}, c.survey.visit? n = some v →
    ∃ v' links w, c'.survey.visit? n = some v' ∧ w.content = v'.content ∧
      Step.replayAll (c'.store.required? guide.settings.side links) (c'.store.resolved? n)
        steps v = some w

variable {n : NodeId} {visit : NodeId → Path → Action Conversion Unit}

/-- A step that changes the content of the node alone. -/
theorem performs_onVisit {c c' : Conversion} {step : Step} {f : Visit → Visit} {u : Unit}
    (h : Returns (onVisit n f) c u c') (hstage : ∀ v, (f v).stage = v.stage)
    (hcycle : ∀ v, (f v).cycle = v.cycle) (hlead : step.lead? = none)
    (hreplay : ∀ v, ∃ links, Step.replay (c.store.required? guide.settings.side links)
      (c.store.resolved? n) v step = some (f v)) : Performs guide above n [step] c c' where
  explores := explores_onVisit h hstage hcycle
    fun hn => absurd (List.mem_singleton_self n) hn
  leads lead hl := by simp [hlead] at hl
  content {v} hv := by
    rw [returns_onVisit] at h
    subst h
    obtain ⟨links, hf⟩ := hreplay v
    refine ⟨f v, links, f v, ?_, rfl, ?_⟩
    · exact Survey.visit?_modify_of_visit? hv f
    · simp only [Step.replayAll, hf]

/-- Passing on a child enters nothing and marks nothing. -/
theorem explores_passOn {c c' : Conversion} {m : NodeId} {u : Unit}
    (h : Returns (passOn n m) c u c') : Explores guide [n] above c c' := by
  unfold passOn at h
  exact explores_onVisit h (fun _ => rfl) (fun _ => rfl)
    fun hn => absurd (List.mem_singleton_self n) hn

/-- A node that passes content on has a target then. -/
theorem visit?_passOn {c c' : Conversion} {m : NodeId} {u : Unit} {v : Visit}
    (h : Returns (passOn n m) c u c') (hv : c.survey.visit? n = some v) :
    c'.survey.visit? n = some { v with target := some m } := by
  unfold passOn at h
  rw [returns_onVisit] at h
  subst h
  exact Survey.visit?_modify_of_visit? hv _

/-- A visit to a child of a node, from the node. -/
theorem explores_visit (hvisits : Visits guide (n :: above) visit) {c d : Conversion}
    {m : NodeId} {path : Path} (hs : c.store.Closed)
    (hl : Lined guide.settings.side c (n :: above))
    (hedge : c.store.Edge guide.settings.side n m) (h : Returns (visit m path) c () d) :
    Explores guide [n] (n :: above) c d ∧
      (∀ lead, d.store.follow? n lead = some m → d.Followed (n :: above) n lead) ∧
      ∀ v, c.survey.visit? n = some v →
        ∃ w, d.survey.visit? n = some w ∧ v.content = w.content := by
  have hedge : ∀ a ∈ (n :: above).head?, c.store.Edge guide.settings.side a m := by
    intro a ha
    obtain rfl : n = a := by simpa using ha
    exact hedge
  obtain ⟨hexp, hhas, hmark⟩ := hvisits m path c d h hs hl hedge
  refine ⟨hexp.mono (List.nil_subset _), fun lead hlead => ⟨m, hlead, hhas, hmark⟩, ?_⟩
  intro v hv
  obtain ⟨w, hw, -, -, hsame⟩ := hexp.descends.visits hv
  exact ⟨w, hw, (hsame List.not_mem_nil).symm⟩

/-- The node at hand is visited where a way leads down to it. -/
theorem Lined.has_own {side : Side} {c : Conversion} (hl : Lined side c (n :: above)) :
    ∀ m ∈ [n], c.survey.has m = true :=
  List.forall_mem_singleton.mpr (hl.visited n (List.mem_cons_self ..))

/-- Required names are asked for, and then written. -/
theorem performs_require {c c' : Conversion} {shape : List (String × NodeId)}
    (hs : c.store.Closed) (hl : Lined guide.settings.side c (n :: above))
    (h : Returns (perform guide.settings.side visit n (.require shape)) c () c') :
    Performs guide above n [.require shape] c c' := by
  obtain ⟨names, d, hd, h⟩ := returns_bind.mp h
  have hask : Explores guide [n] (n :: above) c d :=
    explores_onStore (Store.requiredNames_keeps _ _) hd
  obtain ⟨s, hnames, rfl⟩ := returns_onStore.mp hd
  obtain ⟨-, links, hlinks⟩ := (Store.requiredNames_meets _ shape hs).of_returns hnames
  simp only [onFragment] at h
  have hwrite : Performs guide above n [.require shape] _ c' :=
    performs_onVisit h (fun _ => rfl) (fun _ => rfl) rfl
      fun v => ⟨links, Step.replay_require.mpr ⟨names, hlinks, rfl⟩⟩
  obtain ⟨hexp, hleads, hcontent⟩ := hwrite
  exact ⟨hask.trans hs hl.has_own hexp, hleads, hcontent⟩

section Children

variable {c c' : Conversion} {child : NodeId} {path : Path}
  (hvisits : Visits guide (n :: above) visit) (hs : c.store.Closed)
  (hl : Lined guide.settings.side c (n :: above))
include hvisits hs hl

/-- A child is visited. -/
theorem performs_visit (hlead : .child child ∈ c.store.leads guide.settings.side n)
    (h : Returns (perform guide.settings.side visit n (.visit child path)) c () c') :
    Performs guide above n [.visit child path] c c' := by
  obtain ⟨hexp, hfollow, hcontent⟩ := explores_visit hvisits hs hl ⟨_, hlead, rfl⟩ h
  refine ⟨hexp, fun lead hlead => ?_, fun {v} hv => ?_⟩
  · obtain rfl : lead = .child child := by simpa using hlead
    exact hfollow _ rfl
  · obtain ⟨w, hw, hsame⟩ := hcontent v hv
    exact ⟨w, 0, v, hw, hsame, rfl⟩

/-- A child is visited, and then its content is passed on. -/
theorem performs_inherit (hlead : .child child ∈ c.store.leads guide.settings.side n)
    (h : Returns (perform guide.settings.side visit n (.inherit child path)) c () c') :
    Performs guide above n [.inherit child path] c c' := by
  obtain ⟨_, d, hd, hpass⟩ := returns_bind.mp h
  obtain ⟨hexp, hfollow, hcontent⟩ := explores_visit hvisits hs hl ⟨_, hlead, rfl⟩ hd
  have hquiet : Explores guide [n] (n :: above) d c' := explores_passOn hpass
  refine ⟨hexp.trans hs hl.has_own hquiet, fun lead hlead => ?_, fun {v} hv => ?_⟩
  · obtain rfl : lead = .child child := by simpa using hlead
    exact (hfollow _ rfl).mono hquiet.descends (hexp.descends.store hs).2
  · obtain ⟨w, hw, hsame⟩ := hcontent v hv
    refine ⟨_, 0, _, visit?_passOn hpass hw, ?_, rfl⟩
    simp only [Visit.content, Prod.mk.injEq] at hsame ⊢
    exact ⟨hsame.1, trivial, hsame.2.2⟩

/-- A lazy node is asked what it stands for; that is visited, and then its content passed on. -/
theorem performs_inheritResolved (hlead : .answer ∈ c.store.leads guide.settings.side n)
    (h : Returns (perform guide.settings.side visit n (.inheritResolved path)) c () c') :
    Performs guide above n [.inheritResolved path] c c' := by
  obtain ⟨answer, d, hd, h⟩ := returns_bind.mp h
  have hask : Explores guide [n] (n :: above) c d := explores_onStore (Store.resolve_keeps n) hd
  obtain ⟨hgrows, hds⟩ := hask.descends.store hs
  have hld := hl.mono hask.descends hs
  have hlead := Store.mem_leads_mono hgrows hs hlead
  obtain ⟨s, hresolve, rfl⟩ := returns_onStore.mp hd
  -- From here on the answer of the lazy node is known to the store, and never changes.
  have hanswer : s.resolved? n = some answer := Store.resolve_returns hresolve hs
  cases answer with
  | value v => exact absurd h not_returns_fail
  | node child =>
    obtain ⟨_, e, he, hpass⟩ := returns_bind.mp h
    have hfound : s.follow? n .answer = some child := by simp [Store.follow?, hanswer]
    obtain ⟨hexp, hfollow, hcontent⟩ := explores_visit hvisits hds hld ⟨_, hlead, hfound⟩ he
    obtain ⟨hgrows', hes⟩ := hexp.descends.store hds
    have hquiet : Explores guide [n] (n :: above) e c' := explores_passOn hpass
    refine ⟨hask.trans hs hl.has_own (hexp.trans hds hld.has_own hquiet), fun lead hl => ?_,
      fun {v} hv => ?_⟩
    · obtain rfl : lead = .answer := by simpa [Step.lead?] using hl
      exact (hfollow _ (Store.follow?_mono hgrows' hfound)).mono hquiet.descends hes
    · obtain ⟨w, hw, hsame⟩ := hcontent v hv
      have hkept := (hquiet.descends.store hes).1.resolved (hgrows'.resolved hanswer)
      refine ⟨_, 0, { v with target := some child }, visit?_passOn hpass hw, ?_, ?_⟩
      · simp only [Visit.content, Prod.mk.injEq] at hsame ⊢
        exact ⟨hsame.1, trivial, hsame.2.2⟩
      · simp only [Step.replayAll, Step.replay, hkept]

/-- The content of the source of a clone is passed on, then the source is visited, and marked as a
    source. -/
theorem performs_inheritSource (hlead : .child child ∈ c.store.leads guide.settings.side n)
    (h : Returns (perform guide.settings.side visit n (.inheritSource child path)) c () c') :
    Performs guide above n [.inheritSource child path] c c' := by
  obtain ⟨_, d, hpass, h⟩ := returns_bind.mp h
  obtain ⟨_, e, he, hsource⟩ := returns_bind.mp h
  have hquiet : Explores guide [n] (n :: above) c d := explores_passOn hpass
  obtain ⟨hgrows, hds⟩ := hquiet.descends.store hs
  have hld := hl.mono hquiet.descends hs
  obtain ⟨hexp, hfollow, hcontent⟩ := explores_visit hvisits hds hld
    (Store.Edge.mono hgrows hs ⟨_, hlead, rfl⟩) he
  -- The mark of the source is no part of what a visit contributes.
  have hmark : Explores guide [] (n :: above) e c' :=
    explores_onVisit hsource (fun _ => rfl) (fun _ => rfl) fun _ _ => rfl
  refine ⟨hquiet.trans hs hl.has_own (hexp.trans hds hld.has_own (hmark.mono (List.nil_subset _))),
    fun lead hl => ?_, fun {v} hv => ?_⟩
  · obtain rfl : lead = .child child := by simpa using hl
    exact (hfollow _ rfl).mono hmark.descends (hexp.descends.store hds).2
  · obtain ⟨w, hw, hsame⟩ := hcontent _ (visit?_passOn hpass hv)
    obtain ⟨x, hx, -, -, hsame'⟩ := hmark.descends.visits hw
    exact ⟨x, 0, _, hx, hsame.trans (hsame' List.not_mem_nil).symm, rfl⟩

end Children

/-- A step of a recipe does what its replay tells. -/
theorem perform_performs (hvisits : Visits guide (n :: above) visit) {c c' : Conversion}
    {step : Step} (hs : c.store.Closed) (hl : Lined guide.settings.side c (n :: above))
    (hlead : ∀ lead ∈ step.lead?, lead ∈ c.store.leads guide.settings.side n)
    (h : Returns (perform guide.settings.side visit n step) c () c') :
    Performs guide above n [step] c c' := by
  -- Steps without a visit change the one fragment.  The others come down to the visit of a child,
  -- before or after which the target is set.
  cases step with
  | write | merge | property =>
    simp only [perform, onFragment] at h
    exact performs_onVisit h (fun _ => rfl) (fun _ => rfl) rfl fun _ => ⟨0, rfl⟩
  | prefault value =>
    simp only [perform] at h
    exact performs_onVisit h (fun _ => rfl) (fun _ => rfl) rfl fun _ => ⟨0, rfl⟩
  | require shape => exact performs_require hs hl h
  | visit child path => exact performs_visit hvisits hs hl (hlead _ rfl) h
  | inherit child path => exact performs_inherit hvisits hs hl (hlead _ rfl) h
  | inheritResolved path => exact performs_inheritResolved hvisits hs hl (hlead _ rfl) h
  | inheritSource child path => exact performs_inheritSource hvisits hs hl (hlead _ rfl) h
  | fail f => exact absurd h not_returns_fail

/-- The steps of a recipe, one after the other. -/
theorem performAll_performs (hvisits : Visits guide (n :: above) visit) {c c' : Conversion}
    {steps : List Step} (hs : c.store.Closed)
    (hl : Lined guide.settings.side c (n :: above))
    (hleads : ∀ lead ∈ Step.leadsOf steps, lead ∈ c.store.leads guide.settings.side n)
    (h : Returns (performAll guide.settings.side visit n steps) c () c') :
    Performs guide above n steps c c' := by
  -- Induction on the steps: what is explored adds up, and the leads of both parts are followed.
  induction steps generalizing c with
  | nil =>
    obtain ⟨-, rfl⟩ := returns_pure.mp h
    exact ⟨.refl c', nofun, fun {v} hv => ⟨v, 0, v, hv, rfl, rfl⟩⟩
  | cons step rest ih =>
    obtain ⟨_, d, hd, h⟩ := returns_bind.mp h
    have hstep := perform_performs hvisits hs hl
      (fun lead hlead => hleads lead (by simp [Option.mem_def.mp hlead])) hd
    obtain ⟨hgrows, hds⟩ := hstep.explores.descends.store hs
    have hrest := ih hds (hl.mono hstep.explores.descends hs)
      (fun lead hlead => Store.mem_leads_mono hgrows hs (hleads lead (by simp [hlead]))) h
    refine ⟨hstep.explores.trans hs hl.has_own hrest.explores, fun lead hlead => ?_, fun {v} hv => ?_⟩
    · rcases List.mem_append.mp (Step.leadsOf_cons step rest ▸ hlead) with hlead | hlead
      · exact (hstep.leads lead (by simpa using hlead)).mono hrest.explores.descends hds
      · exact hrest.leads lead hlead
    · -- what the step has written stays written, as the rest only adds to what is known
      obtain ⟨w, links, x, hw, hxw, hx⟩ := hstep.content hv
      obtain ⟨v', more, y, hv', hyv', hy⟩ := hrest.content hw
      obtain ⟨hgrows', -⟩ := hrest.explores.descends.store hds
      obtain ⟨z, hz, hyz⟩ := Step.replayAll_congr hxw.symm hy
      refine ⟨v', max links more, z, hv', hyz.symm.trans hyv', ?_⟩
      obtain ⟨u, hu, hx⟩ := Step.replayAll_cons.mp hx
      obtain rfl : u = x := Option.some.inj hx
      exact Step.replayAll_cons.mpr ⟨u,
        Step.replay_mono (fun _ _ => Store.required?_mono hgrows' (Nat.le_max_left _ _))
          (fun _ => hgrows'.resolved) hu,
        Step.replayAll_mono (fun _ _ => Store.required?_mono (.refl _) (Nat.le_max_right _ _))
          (fun _ h => h) hz⟩

/-- Steps that were performed do not fail. -/
theorem runs_of_returns {side : Side} {steps : List Step} {c c' : Conversion}
    (h : Returns (performAll side visit n steps) c () c') : Step.Runs steps := by
  induction steps generalizing c with
  | nil => intro f hf; cases hf
  | cons step rest ih =>
    obtain ⟨_, d, hd, h⟩ := returns_bind.mp h
    intro f hf
    rcases List.mem_cons.mp hf with rfl | hf
    · exact not_returns_fail hd
    · exact ih h f hf

/-! ### Arrivals -/

/-- A change of the visit of a node, and what becomes of it. -/
theorem visit?_onVisit {c c' : Conversion} {f : Visit → Visit} {u : Unit} {v : Visit}
    (h : Returns (onVisit n f) c u c') (hv : c.survey.visit? n = some v) :
    c'.store = c.store ∧ c'.survey.visit? n = some (f v) := by
  rw [returns_onVisit] at h
  subst h
  exact ⟨rfl, Survey.visit?_modify_of_visit? hv f⟩

/-- The annotation of a node is written over its fragment. -/
theorem annotate_returns (guide : Guide) (above : List NodeId) {catalog : String}
    {c c' : Conversion} {v : Visit} (hv : c.survey.visit? n = some v) (h : Returns (annotate catalog n) c () c') :
    Explores guide [n] above c c' ∧ c'.store = c.store ∧
      c'.survey.visit? n = some (v.annotated ((c.store.catalog catalog).get? n)) := by
  obtain ⟨_, _, hget, hput⟩ := returns_bind.mp h
  obtain ⟨rfl, rfl⟩ := returns_get.mp hget
  split at hput
  · rename_i notes hnotes
    simp only [onFragment] at hput
    refine ⟨explores_onVisit hput (fun _ => rfl) (fun _ => rfl)
      fun hn => absurd (List.mem_singleton_self n) hn, ?_⟩
    rw [hnotes]
    exact visit?_onVisit hput hv
  · rename_i hnotes
    obtain ⟨-, rfl⟩ := returns_pure.mp hput
    rw [hnotes]
    exact ⟨.refl _, rfl, hv⟩

/-- The default of a node is settled, on the input side. -/
theorem settle_returns (guide : Guide) (above : List NodeId) {kind : Kind}
    {c c' : Conversion} {v : Visit} (hv : c.survey.visit? n = some v)
    (h : Returns (if side = .input then onVisit n (settleDefault kind) else pure ()) c () c') :
    Explores guide [n] above c c' ∧ c'.store = c.store ∧
      c'.survey.visit? n = some (v.settled side kind) := by
  unfold Visit.settled
  split at h
  · rename_i hside
    rw [if_pos hside]
    exact ⟨explores_onVisit h (fun _ => rfl) (fun _ => rfl)
      fun hn => absurd (List.mem_singleton_self n) hn, visit?_onVisit h hv⟩
  · rename_i hside
    rw [if_neg hside]
    obtain ⟨-, rfl⟩ := returns_pure.mp h
    exact ⟨.refl _, rfl, hv⟩

/-- What annotations make of a visit depends on its contents alone. -/
theorem content_annotated {notes : Option Entries} {v w : Visit} (h : v.content = w.content) :
    (v.annotated notes).content = (w.annotated notes).content := by
  simp only [Visit.content, Prod.mk.injEq] at h
  cases notes with
  | none => simp [Visit.annotated, Visit.content, h]
  | some es => simp [Visit.annotated, Visit.content, h]

/-- What settling a default makes of a visit depends on its contents alone. -/
theorem content_settled {side : Side} {kind : Kind} {v w : Visit} (h : v.content = w.content) :
    (v.settled side kind).content = (w.settled side kind).content := by
  simp only [Visit.content, Prod.mk.injEq] at h
  unfold Visit.settled
  split <;> simp [settleDefault, Visit.content, h]

/-- A node that is lowered is there; its recipe is performed, its annotation written, and its
    default settled. -/
theorem lower_returns {c c' : Conversion} {path : Path}
    (h : Returns (lower guide visit n path) c () c') :
    ∃ node d e, c.store.node? n = some node ∧
      Returns (performAll guide.settings.side visit n
        (node.recipe guide.settings (c.store.catchallKind node) path)) c () d ∧
      Returns (annotate guide.catalog n) d () e ∧
      Returns (if guide.settings.side = .input then onVisit n (settleDefault node.kind)
        else pure ()) e () c' := by
  obtain ⟨node, _, hfetch, h₁⟩ := returns_bind.mp h
  obtain ⟨_, hstored, rfl⟩ := returns_onStore.mp hfetch
  obtain ⟨hnode, rfl⟩ := Store.returns_fetch.mp hstored
  obtain ⟨_, _, hget, h₂⟩ := returns_bind.mp h₁
  obtain ⟨rfl, rfl⟩ := returns_get.mp hget
  obtain ⟨_, d, hd, h₃⟩ := returns_bind.mp h₂
  obtain ⟨_, e, he, h₄⟩ := returns_bind.mp h₃
  exact ⟨node, d, e, hnode, hd, he, h₄⟩

/-- **Lowering.** A node that was just entered contributes what can be told from the store,
    and its leads are followed. -/
theorem lower_explores (hvisits : Visits guide (n :: above) visit) {c c' : Conversion}
    {path : Path} (hs : c.store.Closed) (hl : Lined guide.settings.side c (n :: above))
    (hv : c.survey.visit? n = some {}) (h : Returns (lower guide visit n path) c () c') :
    Explores guide [n] (n :: above) c c' ∧
      (∀ lead ∈ c'.store.leads guide.settings.side n, c'.Followed (n :: above) n lead) ∧
      ∃ v links w, c'.survey.visit? n = some v ∧
        c'.store.contents? guide links n = some w ∧ w.content = v.content := by
  obtain ⟨node, d, e, hnode, hd, he, hsettle⟩ := lower_returns h
  have hleads : Step.leadsOf (node.recipe guide.settings (c.store.catchallKind node) path)
      = c.store.leads guide.settings.side n := by
    rw [leadsOf_recipe (runs_of_returns hd)]
    simp [Store.leads, hnode]
  -- Recipe, annotation and default, one after the other; only the first leads on.
  have hall := performAll_performs hvisits hs hl (fun lead hlead => hleads ▸ hlead) hd
  obtain ⟨hgrows, hds⟩ := hall.explores.descends.store hs
  obtain ⟨v, links, w, hvd, hwv, hw⟩ := hall.content hv
  obtain ⟨hannotate, hstore, hve⟩ := annotate_returns guide (n :: above) hvd he
  obtain ⟨hsettle, hstore', hvc⟩ := settle_returns guide (n :: above) hve hsettle
  have hn : ∀ {x : Conversion}, (Descends [n] c x) → ∀ m ∈ [n], x.survey.has m = true := by
    intro x hx m hm
    rw [List.mem_singleton.mp hm]
    exact hx.has (Survey.has_of_visit? hv)
  have hde : Explores guide [n] (n :: above) d c' :=
    hannotate.trans hds (hn hall.explores.descends) hsettle
  refine ⟨hall.explores.trans hs (hn (.refl c)) hde, fun lead hlead => ?_, _, links, _, hvc, ?_,
    content_settled (content_annotated hwv)⟩
  · rw [hstore', hstore, Store.leads_eq hgrows hs _ (by rw [hnode]; rfl), ← hleads] at hlead
    exact (hall.leads lead hlead).mono hde.descends hds
  · rw [hstore', hstore]
    unfold Store.contents?
    rw [hgrows.node? hnode]
    simp only [Store.catchallKind_eq hgrows hs hnode]
    rw [← Step.replayAll_path guide.settings _ node path, hw]

/-- A way down from a node to the nearest one above leads on to a closed walk. -/
theorem Lined.looped {c : Conversion} (hl : Lined side c above)
    (hedge : ∀ a ∈ above.head?, c.store.Edge side a n) (hn : n ∈ above) : Looped side c n := by
  obtain ⟨later, earlier, rfl⟩ := List.append_of_mem hn
  refine ⟨later.reverse, ?_, fun x hx => ?_⟩
  · -- read backwards, the nodes above lead from the node down to the place where it is met
    have hchain : List.IsChain (fun a b => c.store.Edge side b a) (n :: (later ++ [n])) := by
      have hprefix : later ++ [n] <+: later ++ n :: earlier :=
        ⟨earlier, by simp⟩
      refine List.isChain_cons.mpr ⟨fun a ha => hedge a ?_, hl.chain.prefix hprefix⟩
      cases later <;> exact ha
    have hback := List.isChain_reverse.mpr hchain
    simpa using hback
  · have hx : x ∈ later := List.mem_reverse.mp hx
    refine ⟨hl.visited x (List.mem_append_left _ hx), Nat.le_of_lt ?_⟩
    exact (List.pairwise_append.mp hl.order).2.2 x hx n (List.mem_cons_self ..)

/-- A node that is met again is marked if it is met below itself. -/
theorem revisit_returns {c c' : Conversion} {path : Path} {v : Visit}
    (hv : c.survey.visit? n = some v) (h : Returns (revisit above n path) c () c') :
    c'.survey.order = c.survey.order ∧
      (∀ m, m ≠ n → c'.survey.visit? m = c.survey.visit? m) ∧
      c'.survey.visit? n = some { v with
        count := v.count + 1
        cycle := if n ∈ above then some path else v.cycle } := by
  obtain ⟨_, d, hd, h₁⟩ := returns_bind.mp h
  have hvd := (visit?_onVisit hd hv).2
  rw [returns_onVisit] at hd
  subst hd
  -- The count grows in any case; the mark is set where the node is still on the way down.
  split at h₁
  · rename_i hn
    obtain ⟨_, e, he, hlog⟩ := returns_bind.mp h₁
    have hve := (visit?_onVisit he hvd).2
    rw [returns_onVisit] at he
    subst he
    rw [returns_log] at hlog
    subst hlog
    refine ⟨?_, fun m hm => ?_, by rw [if_pos hn]; exact hve⟩
    · exact (Survey.order_modify _ n _).trans (Survey.order_modify c.survey n _)
    · exact (Survey.visit?_modify_of_ne hm _ _).trans (Survey.visit?_modify_of_ne hm c.survey _)
  · rename_i hn
    obtain ⟨-, rfl⟩ := returns_pure.mp h₁
    refine ⟨Survey.order_modify c.survey n _, fun m hm => ?_, by rw [if_neg hn]; exact hvd⟩
    exact Survey.visit?_modify_of_ne hm c.survey _

/-- A visit to a node that was visited before enters none, and marks a node that is above itself. -/
theorem revisit_explores {c c' : Conversion} {path : Path} (hs : c.store.Closed)
    (hl : Lined guide.settings.side c above)
    (hedge : ∀ a ∈ above.head?, c.store.Edge guide.settings.side a n)
    (hn : c.survey.has n = true) (h : Returns (revisit above n path) c () c') :
    Explores guide [] above c c' ∧ (n ∈ above → c'.Marked n) := by
  have hdesc := (revisit_within above n path).of_returns h
  obtain ⟨v, hv⟩ := Survey.visit?_of_has hn
  obtain ⟨horder, hother, hself⟩ := revisit_returns hv h
  have hhas : ∀ m, c'.survey.has m = true → c.survey.has m = true := by
    intro m hm
    rw [Survey.has_iff] at hm ⊢
    rw [← horder]
    exact hm
  refine ⟨⟨hdesc, ?_, ?_, fun {m} hm => ?_, ?_⟩, fun hmem => ?_⟩
  · intro m w hm hw
    rw [hhas m (Survey.has_of_visit? hw)] at hm
    cases hm
  · intro m hm hm'
    rw [hhas m hm'] at hm
    cases hm
  · obtain ⟨w, hw, hmark⟩ := hm
    by_cases hmn : m = n
    · subst hmn
      obtain rfl := Option.some.inj (hself.symm.trans hw)
      -- A node that is met below itself gets its mark, and lies on the loop along the way down.
      by_cases hmem : m ∈ above
      · exact .inr ((hl.looped hedge hmem).mono hdesc hs hn)
      · rw [if_neg hmem] at hmark
        exact .inl ⟨v, hv, hmark⟩
    · rw [hother m hmn] at hw
      exact .inl ⟨w, hw, hmark⟩
  · intro m hm hm'
    rw [hhas m hm'] at hm
    cases hm
  · exact ⟨_, hself, by rw [if_pos hmem]; rfl⟩

/-- The line of a node that was just entered. -/
theorem Lined.entered {c : Conversion} (hl : Lined side c above)
    (hedge : ∀ a ∈ above.head?, c.store.Edge side a n) (hn : c.survey.has n = false) :
    Lined side (c.entered n) (n :: above) := by
  have hhas : ∀ {a}, c.survey.has a = true → (c.entered n).survey.has a = true := by
    intro a ha
    rw [Survey.has_iff] at ha ⊢
    show a ∈ (c.survey.enter n).order
    rw [Survey.order_enter]
    exact List.mem_append_left _ ha
  have hplace : ∀ {a}, c.survey.has a = true → (c.entered n).place a = c.place a := by
    intro a ha
    show (c.survey.enter n).order.idxOf a = _
    rw [Survey.order_enter, List.idxOf_append_of_mem ((Survey.has_iff _ _).mp ha)]
    rfl
  -- The new node has the last place in the order of visits.
  have hlast : ∀ {a}, c.survey.has a = true → c.place a < (c.entered n).place n := by
    intro a ha
    have hmem : n ∉ c.survey.order := fun hmem => by
      rw [← Survey.has_iff, hn] at hmem
      cases hmem
    have hlt : c.place a < c.survey.order.length :=
      List.idxOf_lt_length_iff.mpr ((Survey.has_iff _ _).mp ha)
    show c.place a < (c.survey.enter n).order.idxOf n
    rw [Survey.order_enter, List.idxOf_append_of_notMem hmem]
    omega
  refine ⟨List.isChain_cons.mpr ⟨hedge, hl.chain⟩, List.pairwise_cons.mpr ⟨fun a ha => ?_, ?_⟩,
    fun a ha => ?_⟩
  · rw [hplace (hl.visited a ha)]
    exact hlast (hl.visited a ha)
  · refine hl.order.imp_of_mem fun ha hb hlt => ?_
    rw [hplace (hl.visited _ ha), hplace (hl.visited _ hb)]
    exact hlt
  · rcases List.mem_cons.mp ha with rfl | ha
    · exact Survey.has_of_visit? (Survey.visit?_enter_self hn)
    · exact hhas (hl.visited a ha)

/-- A way back to a node that is being lowered ends in a lead that goes back to it. -/
theorem marked_of_looped {c c' : Conversion} (hn : c.survey.has n = false)
    (h : Explores guide [n] (n :: above) (c.entered n) c')
    (hleads : ∀ lead ∈ c'.store.leads guide.settings.side n, c'.Followed (n :: above) n lead)
    (hl : Looped guide.settings.side c' n) : c'.Marked n := by
  obtain ⟨xs, hchain, hxs⟩ := hl
  -- the last node before the way is back
  obtain ⟨x, hx, lead, hlead, hback⟩ : ∃ x, (x = n ∨ x ∈ xs) ∧
      c'.store.Edge guide.settings.side x n := by
    rcases List.eq_nil_or_concat xs with rfl | ⟨ys, y, rfl⟩
    · exact ⟨n, .inl rfl, List.isChain_pair.mp hchain⟩
    · refine ⟨y, .inr (by simp), ?_⟩
      have hchain : List.IsChain (c'.store.Edge guide.settings.side)
          ((n :: ys) ++ [y, n]) := by
        simpa using hchain
      exact List.isChain_pair.mp hchain.right_of_append
  by_cases hxn : x = n
  · subst hxn
    obtain ⟨k, hk, -, hmark⟩ := hleads lead hlead
    obtain rfl : k = x := Option.some.inj (hk.symm.trans hback)
    exact hmark (List.mem_cons_self ..)
  · obtain ⟨hhas, hle⟩ := hxs x (hx.resolve_left hxn)
    have hnew : (c.entered n).survey.has x = false := by
      by_contra hx'
      have hcx : c.survey.has x = true := by
        have hx' : ((c.survey.enter n).visit? x).isSome = true := Bool.not_eq_false _ ▸ hx'
        rw [Survey.visit?_enter_of_ne hxn] at hx'
        exact hx'
      have hlt := (Descends.of_entered hn h.descends).place_lt hcx hn
      omega
    obtain ⟨k, hk, -, hmark⟩ := h.leads hnew hhas lead hlead
    obtain rfl : k = n := Option.some.inj (hk.symm.trans hback)
    exact hmark (List.mem_cons_of_mem _ (List.mem_cons_self ..))

/-- A node whose lowering explores counts as explored itself. -/
theorem Explores.of_entered {c c' : Conversion} (hn : c.survey.has n = false)
    (h : Explores guide [n] (n :: above) (c.entered n) c')
    (hleads : ∀ lead ∈ c'.store.leads guide.settings.side n, c'.Followed (n :: above) n lead)
    (hcontent : ∃ v links w, c'.survey.visit? n = some v ∧
      c'.store.contents? guide links n = some w ∧ w.content = v.content) :
    Explores guide [] above c c' := by
  have hhas : ∀ {m}, m ≠ n → c.survey.has m = false → (c.entered n).survey.has m = false := by
    intro m hmn hm
    show (Survey.visit? (c.survey.enter n) m).isSome = false
    rw [Survey.visit?_enter_of_ne hmn]
    exact hm
  refine ⟨.of_entered hn h.descends, fun {m v} hm hv => ?_, fun {m} hm hm' => ?_,
    fun {m} hm => ?_, fun {m} hm hm' hloop => ?_⟩
  · by_cases hmn : m = n
    · subst hmn
      obtain ⟨x, links, w, hx, hw, hsame⟩ := hcontent
      obtain rfl := Option.some.inj (hx.symm.trans hv)
      exact ⟨links, w, hw, hsame⟩
    · exact h.contents (hhas hmn hm) hv
  · by_cases hmn : m = n
    · subst hmn
      exact hleads
    · intro lead hlead
      refine (h.leads (hhas hmn hm) hm' lead hlead).of_subset ?_
      exact List.cons_subset_cons m (List.subset_cons_self n above)
  -- A new visit carries no mark, so that a mark on it is made on a loop.
  · refine (h.loops hm).imp (fun hmark => ?_) id
    obtain ⟨v, hv, hcycle⟩ := hmark
    obtain ⟨-, rfl⟩ | ⟨-, hv⟩ := Survey.visit?_enter_cases hn hv
    · cases hcycle
    · exact ⟨v, hv, hcycle⟩
  · by_cases hmn : m = n
    · subst hmn
      exact marked_of_looped hn h hleads hloop
    · exact h.marks (hhas hmn hm) hm' hloop

/-- **Arrivals.** An arrival that returns has lowered all that it has entered, followed every
    lead, and marked exactly the nodes that it has met below themselves. -/
theorem arrive_explores (guide : Guide) :
    ∀ depth above, Visits guide above (arrive guide depth above) := by
  intro depth
  induction depth with
  | zero =>
    intro above n path c c' h hs hl hedge
    unfold Returns at h
    rw [arrive_eq] at h
    split at h
    · rename_i hn
      obtain ⟨hexp, hmark⟩ := revisit_explores hs hl hedge hn h
      exact ⟨hexp, hexp.descends.has hn, hmark⟩
    · exact absurd h not_returns_fail
  | succ depth ih =>
    intro above n path c c' h hs hl hedge
    unfold Returns at h
    rw [arrive_eq] at h
    split at h
    · rename_i hn
      obtain ⟨hexp, hmark⟩ := revisit_explores hs hl hedge hn h
      exact ⟨hexp, hexp.descends.has hn, hmark⟩
    · rename_i hn
      have hn : c.survey.has n = false := by simpa using hn
      have hentered : (c.entered n).survey.visit? n = some {} := Survey.visit?_enter_self hn
      obtain ⟨hexp, hleads, hcontent⟩ := lower_explores (c := c.entered n) (ih (n :: above)) hs
        (hl.entered hedge hn) hentered h
      -- A node that is entered now cannot be one of those above it.
      refine ⟨hexp.of_entered hn hleads hcontent, ?_, fun hmem => ?_⟩
      · exact hexp.descends.has (Survey.has_of_visit? hentered)
      · exact absurd (hl.visited n hmem) (by simp [hn])

/-- A visit from outside explores what is below the node. By induction on the nodes that are left to
    visit. -/
theorem visit_explores {c c' : Conversion} {n : NodeId} {path : Path} (hs : c.store.Closed)
    (h : Returns (Conversion.visit guide n [] path) c () c') :
    Explores guide [] [] c c' ∧ c'.survey.has n = true := by
  obtain ⟨_, _, hget, harrive⟩ := returns_bind.mp h
  obtain ⟨rfl, rfl⟩ := returns_get.mp hget
  obtain ⟨hexp, hhas, -⟩ := arrive_explores guide _ [] n path _ c' harrive hs
    ⟨List.IsChain.nil, List.Pairwise.nil, nofun⟩ nofun
  exact ⟨hexp, hhas⟩

end Conversion

end SchemaGraph
