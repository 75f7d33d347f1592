import SchemaGraph.Proofs.Document.Failing
import SchemaGraph.Proofs.Document.Lockstep
import SchemaGraph.Proofs.Document.Sequence

namespace SchemaGraph

open SchemaGraph.Action Conversion

/-!
# Stages done again

The first emission from a survey brings hoisting, settling and listing to a point where doing them
again comes to the same and changes nothing: what was hoisted is a reference, what was settled is
finished, and an id that was listed keeps its place and its node.  Hoisting that failed fails again
at the same node.

* `Emission.listed_again`   — listing the same definitions again changes nothing
* `Emission.hoistAll_again`, `Emission.hoistAll_fails_again` — hoisting the same nodes again
* `Emission.stage_again`    — hoisting and settling again
-/

/-! ### Tables -/

namespace Catalog

/-- Several ids given to nodes, in order. -/
def assignAll (news table : List (Value × NodeId)) : List (Value × NodeId) :=
  news.foldl (fun t p => assign p.1 p.2 t) table

/-- The node that an id is given to last, if it is given to any. -/
def lastOf (id : Value) (news : List (Value × NodeId)) (n : NodeId) : NodeId :=
  news.foldl (fun m p => if id.canonical = p.1.canonical then p.2 else m) n

/-- All but one id. -/
def without (id : Value) (news : List (Value × NodeId)) : List (Value × NodeId) :=
  news.filter fun p => id.canonical ≠ p.1.canonical

/-- An id that is there keeps its place, and is held by the node that it is given to last. -/
theorem assignAll_cons (news : List (Value × NodeId)) (id : Value) (n : NodeId)
    (rest : List (Value × NodeId)) :
    assignAll news ((id, n) :: rest) = (id, lastOf id news n) :: assignAll (without id news) rest := by
  induction news generalizing n rest with
  | nil => rfl
  | cons p more ih =>
    obtain ⟨i, m⟩ := p
    by_cases h : id.canonical = i.canonical
    · have hkept : without id ((i, m) :: more) = without id more := by simp [without, h]
      have hlast : lastOf id ((i, m) :: more) n = lastOf id more m := by simp [lastOf, h]
      rw [hkept, hlast, ← ih]
      simp [assignAll, assign, h]
    · have hkept : without id ((i, m) :: more) = (i, m) :: without id more := by simp [without, h]
      have hlast : lastOf id ((i, m) :: more) n = lastOf id more n := by simp [lastOf, h]
      rw [hkept, hlast]
      show assignAll more (assign i m ((id, n) :: rest)) =
        (id, lastOf id more n) :: assignAll (without id more) (assign i m rest)
      rw [← ih]
      simp [assign, h]

/-- An id is given to the same node last, whatever node it was given to before, or to none. -/
theorem lastOf_lastOf (id : Value) (news : List (Value × NodeId)) (n : NodeId) :
    lastOf id news (lastOf id news n) = lastOf id news n := by
  have hcases : (∀ m, lastOf id news m = m) ∨ ∃ k, ∀ m, lastOf id news m = k := by
    induction news with
    | nil => exact .inl fun _ => rfl
    | cons p more ih =>
      by_cases h : id.canonical = p.1.canonical
      · have hlast : ∀ m, lastOf id (p :: more) m = lastOf id more p.2 := fun m => by
          simp [lastOf, h]
        exact .inr ⟨_, hlast⟩
      · have hlast : ∀ m, lastOf id (p :: more) m = lastOf id more m := fun m => by
          simp [lastOf, h]
        simpa only [hlast] using ih
  rcases hcases with hkept | ⟨k, hk⟩
  · rw [hkept]
  · rw [hk, hk]

/-- Ids that are given to nodes again change nothing. -/
theorem assignAll_assignAll (news table : List (Value × NodeId)) :
    assignAll news (assignAll news table) = assignAll news table := by
  induction table generalizing news with
  | cons p rest ih =>
    obtain ⟨id, n⟩ := p
    rw [assignAll_cons, assignAll_cons, lastOf_lastOf, ih]
  | nil =>
    -- the first id opens the table, and the others follow it
    induction hlength : news.length using Nat.strong_induction_on generalizing news with
    | _ length ih =>
      cases news with
      | nil => rfl
      | cons p more =>
        obtain ⟨id, n⟩ := p
        have hfirst : assignAll ((id, n) :: more) [] =
            (id, lastOf id more n) :: assignAll (without id more) [] :=
          assignAll_cons more id n []
        have hkept : without id ((id, n) :: more) = without id more := by simp [without]
        have hlast : ∀ m, lastOf id ((id, n) :: more) m = lastOf id more n := fun m => by
          simp [lastOf]
        have hle : (without id more).length ≤ more.length := List.length_filter_le ..
        have hlt : (without id more).length < length := by
          rw [← hlength]
          exact Nat.lt_succ_of_le hle
        rw [hfirst, assignAll_cons, hkept, hlast, ih _ hlt _ rfl]

end Catalog

namespace Emission

/-- Listing gives ids to nodes, and stops or not, whatever the table holds before. -/
theorem exists_assignAll (visits : List (NodeId × Visit)) :
    ∃ news stop, ∀ table, listed visits table = (Catalog.assignAll news table, stop) := by
  induction visits with
  | nil => exact ⟨[], none, fun _ => rfl⟩
  | cons p rest ih =>
    obtain ⟨n, v⟩ := p
    obtain ⟨news, stop, hrest⟩ := ih
    -- Only a definition with an id is listed, and an id that is no key ends the list.
    by_cases hlists : v.definition.isSome ∧ v.definitionId.isTruthy
    · by_cases hkey : v.definitionId.isHashable
      · refine ⟨(v.definitionId, n) :: news, stop, fun table => ?_⟩
        unfold listed
        rw [if_pos hlists, if_pos hkey, hrest]
        rfl
      · refine ⟨[], some .misuse, fun table => ?_⟩
        unfold listed
        rw [if_pos hlists, if_neg hkey]
        rfl
    · refine ⟨news, stop, fun table => ?_⟩
      unfold listed
      rw [if_neg hlists, hrest]

/-- Whether listing stops does not depend on the table. -/
theorem listed_stop_eq (visits : List (NodeId × Visit)) (table table' : List (Value × NodeId)) :
    (listed visits table').2 = (listed visits table).2 := by
  obtain ⟨news, stop, h⟩ := exists_assignAll visits
  rw [h, h]

/-- **Listing again.** The same definitions listed once more leave the table as it is. -/
theorem listed_again (visits : List (NodeId × Visit)) (table : List (Value × NodeId)) :
    listed visits (listed visits table).1 = listed visits table := by
  obtain ⟨news, stop, h⟩ := exists_assignAll visits
  rw [h table, h, Catalog.assignAll_assignAll]

end Emission

/-! ### Hoisting -/

namespace Emission

variable {e : Emission} {c d d' : Conversion} {f : Failure}

/-- The visits of a conversion, and the addresses of their nodes, have not changed; but some visits
    may have become references. -/
structure Outlasts (e : Emission) (c d : Conversion) : Prop where
  addressed : ∀ n, e.hasOwnAddress d.store d.linkage n = e.hasOwnAddress c.store c.linkage n
  visits : ∀ {n v}, c.survey.visit? n = some v → ∃ w, d.survey.visit? n = some w ∧
    w.cycle = v.cycle ∧ w.count = v.count ∧ (v.isReference = true → w.isReference = true)

namespace Outlasts

/-- What is outlasted twice is outlasted. -/
theorem trans {b : Conversion} (h₁ : Outlasts e b c) (h₂ : Outlasts e c d) : Outlasts e b d where
  addressed n := (h₂.addressed n).trans (h₁.addressed n)
  visits hv := by
    obtain ⟨w, hw, hcycle, hcount, href⟩ := h₁.visits hv
    obtain ⟨x, hx, hcycle', hcount', href'⟩ := h₂.visits hw
    exact ⟨x, hx, hcycle'.trans hcycle, hcount'.trans hcount, href' ∘ href⟩

/-- What is hoisted is hoisted behind. -/
theorem isHoisted (h : Outlasts e c d) {n : NodeId} {v w : Visit}
    (hcycle : w.cycle = v.cycle) (hcount : w.count = v.count) :
    e.isHoisted d.store d.linkage n w = e.isHoisted c.store c.linkage n v := by
  unfold Emission.isHoisted
  rw [h.addressed, hcycle, hcount]

end Outlasts

/-- Hoisting turns visits into references. -/
theorem Hoists.outlasts (h : Hoists e c d) : Outlasts e c d where
  addressed n := by
    rw [h.rewrites.linkage, h.rewrites.store]
    rfl
  visits {n v} hv := by
    rcases h.visits hv with hd | ⟨-, ref, id, -, hd⟩
    · exact ⟨v, hd, rfl, rfl, fun href => href⟩
    · exact ⟨v.defined ref id, hd, rfl, rfl, fun _ => rfl⟩

/-- **Hoisting again.** Nodes that were hoisted are hoisted again without a change. -/
theorem hoistAll_again {ns : List NodeId} (hns : ∀ n ∈ ns, c.survey.has n = true)
    (h : Returns (e.hoistAll ns) c () d) (hd : Outlasts e d d') :
    e.hoistAll ns d' = (.ok (), d') := by
  -- Induction on the nodes: a node that was hoisted is passed over, and one that was not need not
  -- be now.
  induction ns generalizing c with
  | nil => rfl
  | cons n rest ih =>
    obtain ⟨hn, hrest⟩ := List.forall_mem_cons.mp hns
    obtain ⟨v, hv⟩ := Survey.visit?_of_has hn
    have hall := ((hoistAll_hoists hns).of_returns h).1.outlasts.trans hd
    obtain ⟨w, hw, hcycle, hcount, -⟩ := hall.visits hv
    obtain ⟨hgap, ⟨hhoisted, b, hextract, hmore⟩ | ⟨hkept, hmore⟩⟩ := hoistAll_returns hv h
    · rw [hoistAll_cons e rest hw, hcycle, if_neg hgap, hall.isHoisted hcycle hcount, if_pos hhoisted]
      obtain ⟨hhoists, href⟩ := (extract_hoists hn).of_returns hextract
      have hvisited : ∀ m ∈ rest, b.survey.has m = true := fun m hm => by
        rw [hhoists.rewrites.has]
        exact hrest m hm
      obtain ⟨u, hu⟩ := Survey.visit?_of_has ((hhoists.rewrites.has n).trans hn)
      have hlater := ((hoistAll_hoists hvisited).of_returns hmore).1.outlasts.trans hd
      obtain ⟨x, hx, -, -, hxref⟩ := hlater.visits hu
      obtain rfl := Option.some.inj (hw.symm.trans hx)
      rw [run_bind, extract_idle hw (hxref (href u hu))]
      exact ih hvisited hmore
    · rw [hoistAll_cons e rest hw, hcycle, if_neg hgap, hall.isHoisted hcycle hcount, hkept,
        if_neg Bool.false_ne_true]
      exact ih hrest hmore

/-- What has failed without a change fails again. -/
theorem fails_again_of_echoes {a : Action Conversion Unit} (ha : Respects Echoes a)
    (h : a c = (.error f, d)) (hcd : Echoes c d) : ∃ d', a d = (.error f, d') ∧ Echoes d d' := by
  obtain ⟨hresult, hstate⟩ := ha c d hcd
  rw [h] at hresult hstate
  exact ⟨(a d).2, Prod.ext hresult.symm rfl, hstate⟩

/-- Nothing has changed but events when there is no reference to the definition of a node. -/
theorem referenceFor_fails {n : NodeId} {v : Visit} (h : e.referenceFor n v c = (.error f, d)) :
    Echoes c d := by
  unfold referenceFor at h
  rw [run_bind, run_get] at h
  dsimp only at h
  cases hl : c.linkage with
  | none =>
    rw [hl] at h
    dsimp only at h
    by_cases hn : n = e.root
    · rw [if_pos hn] at h
      cases h
    -- Choosing an id never fails.
    · obtain ⟨id, b, hchoose, -⟩ := chooseId_run .null (fragmentId v) (by decide : "__schema" ≠ "") c
      rw [if_neg hn, run_bind, hchoose] at h
      cases h
  | some l =>
    rw [hl] at h
    dsimp only at h
    by_cases hdocument : (documentId c.store (some l) n).isTruthy
    · rw [if_pos hdocument] at h
      cases haddress : l.addressing.address? (documentId c.store (some l) n) with
      | ok ref =>
        rw [haddress] at h
        cases h
      | error g =>
        obtain ⟨b, hfail, hb⟩ := exists_echoes_fail (String × Option Value) g c
        rw [haddress] at h
        dsimp only at h
        rw [hfail] at h
        cases h
        exact hb
    · obtain ⟨id, b, hchoose, -⟩ :=
        chooseId_run v.definitionId (fragmentId v) (by decide : "schema" ≠ "") c
      rw [if_neg hdocument, run_bind, hchoose] at h
      cases h

/-- A definition that fails has changed events alone. -/
theorem extract_fails {n : NodeId} (h : e.extract n c = (.error f, d)) : Echoes c d := by
  unfold extract at h
  rw [run_bind, run_visitOf] at h
  generalize (c.survey.visit? n).getD {} = v at h
  dsimp only at h
  by_cases hbare : v.isReference = true
  · rw [if_pos hbare] at h
    cases h
  · rw [if_neg hbare, run_bind] at h
    rcases href : e.referenceFor n v c with ⟨g | ref, b⟩
    · rw [href] at h
      cases h
      exact referenceFor_fails href
    · -- behind the reference nothing fails
      rw [href] at h
      cases h

/-- **Hoisting fails again.** Where hoisting has failed, hoisting the same nodes fails again. -/
theorem hoistAll_fails_again {ns : List NodeId} (hns : ∀ n ∈ ns, c.survey.has n = true)
    (h : e.hoistAll ns c = (.error f, d)) :
    ∃ d', e.hoistAll ns d = (.error f, d') ∧ Echoes d d' := by
  induction ns generalizing c with
  | nil => cases h
  | cons n rest ih =>
    obtain ⟨hn, hrest⟩ := List.forall_mem_cons.mp hns
    obtain ⟨v, hv⟩ := Survey.visit?_of_has hn
    -- Whatever the first run has hoisted is still there when it fails.
    have hall : Outlasts e c d := by
      have hhoists := (hoistAll_hoists (e := e) hns).state_of_and
      rw [h] at hhoists
      exact hhoists.outlasts
    obtain ⟨w, hw, hcycle, hcount, -⟩ := hall.visits hv
    -- A failure that changed events alone fails again, as hoisting does not look at events.
    have hagain : Echoes c d → ∃ d', e.hoistAll (n :: rest) d = (.error f, d') ∧ Echoes d d' :=
      fails_again_of_echoes (lockstep_echoes.hoistAll _) h
    rw [hoistAll_cons e rest hv] at h
    split at h
    · obtain ⟨b, hfail, hb⟩ := exists_echoes_fail Unit .misuse c
      rw [run_bind, hfail] at h
      cases h
      exact hagain hb
    · rename_i hgap
      rw [hoistAll_cons e rest hw, hcycle, if_neg hgap, hall.isHoisted hcycle hcount]
      split at h
      · rename_i hhoisted
        rw [if_pos hhoisted]
        rw [run_bind] at h
        -- A definition that was made is passed over by the second run, which fails where the first
        -- one did; one that failed had changed events alone.
        rcases hextract : e.extract n c with ⟨g | _, b⟩
        · rw [hextract] at h
          cases h
          obtain ⟨d', hd', hechoes⟩ := hagain (extract_fails hextract)
          rw [hoistAll_cons e rest hw, hcycle, if_neg hgap, hall.isHoisted hcycle hcount,
            if_pos hhoisted] at hd'
          exact ⟨d', hd', hechoes⟩
        · rw [hextract] at h
          obtain ⟨hhoists, href⟩ := (extract_hoists hn).of_returns hextract
          have hvisited : ∀ m ∈ rest, b.survey.has m = true := fun m hm => by
            rw [hhoists.rewrites.has]
            exact hrest m hm
          have hlater : Outlasts e b d := by
            have hmore := (hoistAll_hoists (e := e) hvisited).state_of_and
            rw [show e.hoistAll rest b = (.error f, d) from h] at hmore
            exact hmore.outlasts
          obtain ⟨u, hu⟩ := Survey.visit?_of_has ((hhoists.rewrites.has n).trans hn)
          obtain ⟨x, hx, -, -, hxref⟩ := hlater.visits hu
          obtain rfl := Option.some.inj (hw.symm.trans hx)
          rw [run_bind, extract_idle hw (hxref (href u hu))]
          exact ih hvisited h
      · rename_i hkept
        rw [if_neg hkept]
        exact ih hrest h

/-! ### Hoisting and settling -/

/-- Hoists and settles all nodes. -/
def stage (e : Emission) : Action Conversion Unit := do
  e.hoist
  e.settleVisits

/-- Only an annotation that is no list keeps settling from its end. -/
theorem settleVisits_raises_missingChild (hoverride : e.override = none) :
    Raises (· = .missingChild) e.settleVisits :=
  settleVisits_raises rfl fun ho _ => by cases hoverride.symm.trans ho

/-- Hoisting goes through the nodes in the order of their visits. -/
theorem run_hoist (e : Emission) (c : Conversion) : e.hoist c = e.hoistAll c.survey.order c := rfl

/-- Settling leaves marks and addresses alone, and references are kept. -/
theorem settleVisits_outlasts (hoverride : e.override = none) (h : Returns e.settleVisits c () d) :
    Outlasts e c d := by
  have hpersists := settleVisits_persists.of_returns h
  refine ⟨fun n => ?_, fun {n v} hv => ?_⟩
  · have hannotated : ∀ catalog, annotatedId d.store catalog n = annotatedId c.store catalog n := by
      intro catalog
      unfold annotatedId
      rw [hpersists.catalog]
    unfold hasOwnAddress
    rw [hpersists.documentId, hannotated]
  · obtain ⟨w, hw, hvw⟩ := hpersists.visits hv
    refine ⟨w, hw, hvw.cycle, hvw.count, fun href => ?_⟩
    have hreferring : Referring (· = n) c := by
      rintro m x hx rfl
      rw [Option.some.inj (hx.symm.trans hv)]
      exact href
    exact (referring_preserved _ _).settleVisits hoverride h hreferring n w hw rfl

/-- **Stages again.** Hoisting and settling that do not fail for an annotation that is no list come
    to the same when they are done again, and change nothing but events. -/
theorem stage_again {x : Except Failure Unit} (hoverride : e.override = none)
    (h : e.stage c = (x, d)) (hx : x ≠ .error .missingChild) :
    ∃ d', e.stage d = (x, d') ∧ Echoes d d' := by
  have hvisited : ∀ n ∈ c.survey.order, c.survey.has n = true :=
    fun n hn => (Survey.has_iff _ _).mpr hn
  unfold stage at h ⊢
  rw [run_bind] at h
  rcases hhoist : e.hoist c with ⟨f | _, b⟩
  · -- hoisting has failed
    rw [hhoist] at h
    cases h
    have hrewrites : Hoists e c d := by
      have hhoists := (hoist_hoists (e := e) c).state_of_and
      rw [hhoist] at hhoists
      exact hhoists
    obtain ⟨d', hagain, hd'⟩ := hoistAll_fails_again hvisited hhoist
    refine ⟨d', ?_, hd'⟩
    rw [run_bind, run_hoist, hrewrites.rewrites.order, hagain]
  · rw [hhoist] at h
    have hhoists := ((hoist_hoists c).of_returns hhoist).1
    rcases x with f | _
    · -- nothing else keeps settling from its end
      have hraises : f = .missingChild := settleVisits_raises_missingChild hoverride b f d h
      exact absurd (congrArg Except.error hraises) hx
    · have hsettle : Returns e.settleVisits b () d := h
      have horder : d.survey.order = c.survey.order :=
        (settleVisits_persists.of_returns hsettle).order.trans hhoists.rewrites.order
      -- What was hoisted is a reference by now, and no reference is hoisted.
      have hidle : e.hoist d = (.ok (), d) := by
        rw [run_hoist, horder]
        exact hoistAll_again hvisited hhoist (settleVisits_outlasts hoverride hsettle)
      have hfinished : ∀ n ∈ d.survey.order.reverse,
          ∃ v, d.survey.visit? n = some v ∧ v.merged = true := by
        intro n hn
        obtain ⟨v, hv⟩ := Survey.visit?_of_has ((Survey.has_iff _ _).mpr (List.mem_reverse.mp hn))
        exact ⟨v, hv, settleVisits_merges hsettle hv⟩
      refine ⟨d, ?_, .refl d⟩
      rw [run_bind, hidle]
      exact settleAll_idle hoverride _ hfinished

end Emission

end SchemaGraph
