import SchemaGraph.Document
import SchemaGraph.Proofs.Document.Persistence
import SchemaGraph.Proofs.Store.Echoes

namespace SchemaGraph

open SchemaGraph.Action Conversion

/-!
# Emissions in lockstep

Until an emission finishes a document, it does not look at events, at what was emitted before, at
the number of its survey, at what former surveys have left behind or at lists of annotations.  So
from two conversions that differ in these alone it comes to the same, step by step.

* `Conversion.Parallel`  — the conversions differ in nothing else
* `Conversion.Echoes`    — the conversions differ in their events alone
* `Emission.Lockstep`    — a relation between such conversions that the steps of an emission keep
* `Emission.Lockstep.hoist`, `Emission.Lockstep.settleVisits`, `Emission.Lockstep.document` —
  the stages of an emission keep it too
-/

namespace Conversion

/-- The conversions differ in events, in what was emitted and listed, in the number of their
    surveys, in the fragments that former surveys have left behind, and in lists of annotations. -/
def Parallel (c d : Conversion) : Prop :=
  ∃ events archive lists number emitted standalone table, d = { c with
    store := { c.store with events, archive, lists }
    survey := { c.survey with number, emitted, standalone }
    linkage := c.linkage.map fun l => { l with table } }

/-- A linkage with the table that it has. -/
theorem exists_table (linkage : Option Linkage) :
    ∃ table, linkage = linkage.map fun l => { l with table } := by
  cases linkage with
  | none => exact ⟨[], rfl⟩
  | some l => exact ⟨l.table, rfl⟩

/-- The conversions differ in their events alone. -/
def Echoes (c d : Conversion) : Prop :=
  d = { c with store := { c.store with events := d.store.events } }

namespace Echoes

variable {c d : Conversion}

/-- A conversion differs from itself in nothing. -/
theorem refl (c : Conversion) : Echoes c c := rfl

/-- The second conversion is the first one with other events. -/
theorem exists_eq (h : Echoes c d) : ∃ events, d = { c with store := { c.store with events } } :=
  ⟨_, h⟩

/-- The stores differ in their events alone. -/
theorem store (h : Echoes c d) : c.store.Echoes d.store := by
  obtain ⟨events, rfl⟩ := h.exists_eq
  rfl

/-- The surveys are the same. -/
theorem survey (h : Echoes c d) : d.survey = c.survey := by
  obtain ⟨events, rfl⟩ := h.exists_eq
  rfl

/-- The addresses are the same. -/
theorem linkage (h : Echoes c d) : d.linkage = c.linkage := by
  obtain ⟨events, rfl⟩ := h.exists_eq
  rfl

/-- Stores that differ in their events, put into one conversion. -/
theorem of_store {s t : Store} (h : s.Echoes t) (c : Conversion) :
    Echoes { c with store := s } { c with store := t } := by
  obtain ⟨events, rfl⟩ := h.exists_eq
  rfl

end Echoes

/-- A failure leaves at most an event. -/
theorem exists_echoes_fail (α : Type) (f : Failure) (c : Conversion) :
    ∃ d, (fail f : Action Conversion α) c = (.error f, d) ∧ Echoes c d := by
  unfold fail onStore Store.fail
  cases f.event? with
  | none => exact ⟨c, rfl, .refl c⟩
  | some event => exact ⟨{ c with store := c.store.record event }, rfl, rfl⟩

end Conversion

/-- The nodes that were visited, with the marks of cycles. -/
def Survey.marks (s : Survey) : List (NodeId × Option Path) := s.visits.map fun p => (p.1, p.2.cycle)

/-- The order of visits can be read off the marks. -/
theorem Survey.order_eq_marks (s : Survey) : s.order = s.marks.map (·.1) := by
  unfold order marks
  rw [List.map_map]
  rfl

namespace Emission

/-- A relation between parallel conversions that the steps of an emission keep: changes of a visit,
    one more id, and events. -/
structure Lockstep (R : Conversion → Conversion → Prop) : Prop where
  parallel : ∀ {c d}, R c d → Parallel c d
  modify : ∀ {c d} (n : NodeId) (f : Visit → Visit), R c d →
    R { c with survey := c.survey.modify n f } { d with survey := d.survey.modify n f }
  count : ∀ {c d}, R c d →
    R { c with survey := { c.survey with counter := c.survey.counter + 1 } }
      { d with survey := { d.survey with counter := d.survey.counter + 1 } }
  record : ∀ {c d} (e : Event), R c d →
    R { c with store := c.store.record e } { d with store := d.store.record e }

/-- A cycle is rejected with regard to the marks and to the addresses of nodes alone. -/
theorem rejectedCycle?_congr {e e' : Emission} {s t : Store} {linkage linkage' : Option Linkage}
    (haddress : ∀ n, e'.hasOwnAddress t linkage' n = e.hasOwnAddress s linkage n)
    {visits visits' : List (NodeId × Visit)}
    (hmarks : visits'.map (fun p => (p.1, p.2.cycle)) = visits.map fun p => (p.1, p.2.cycle)) :
    e'.rejectedCycle? t linkage' visits' = e.rejectedCycle? s linkage visits := by
  induction visits generalizing visits' with
  | nil =>
    obtain rfl := List.map_eq_nil_iff.mp hmarks
    rfl
  | cons p rest ih =>
    obtain ⟨q, rest', rfl, hq, hrest⟩ := List.map_eq_cons_iff.mp hmarks
    obtain ⟨n, v⟩ := p
    obtain ⟨m, w⟩ := q
    obtain ⟨rfl, hcycle⟩ := Prod.mk.inj hq
    dsimp only at hcycle
    simp only [rejectedCycle?, haddress, hcycle, ih hrest]

/-- Whether an emission is refused depends on the nodes that were visited and their marks, on what
    was emitted, and on addresses. -/
theorem refusal?_congr {e : Emission} {c d : Conversion}
    (hnode : d.store.node? e.root = c.store.node? e.root)
    (hmarks : d.survey.marks = c.survey.marks)
    (hemitted : e.root ∈ d.survey.emitted ↔ e.root ∈ c.survey.emitted)
    (halone : d.survey.standalone = c.survey.standalone)
    (hlinkage : d.linkage.isNone = c.linkage.isNone)
    (hempty : c.linkage.isNone → d.survey.emitted = c.survey.emitted)
    (haddress : ∀ n, e.hasOwnAddress d.store d.linkage n = e.hasOwnAddress c.store c.linkage n) :
    e.refusal? d = e.refusal? c := by
  have hhas : d.survey.has e.root = c.survey.has e.root := by
    rw [Bool.eq_iff_iff, Survey.has_iff, Survey.has_iff, Survey.order_eq_marks, hmarks,
      ← Survey.order_eq_marks]
  have hcycle : e.rejectedCycle? d.store d.linkage d.survey.visits =
      e.rejectedCycle? c.store c.linkage c.survey.visits := rejectedCycle?_congr haddress hmarks
  have hshared : (d.survey.standalone ∨ (d.linkage.isNone ∧ d.survey.emitted ≠ [])) ↔
      (c.survey.standalone ∨ (c.linkage.isNone ∧ c.survey.emitted ≠ [])) := by
    rw [halone, hlinkage]
    refine or_congr Iff.rfl (and_congr_right fun h => ?_)
    rw [hempty h]
  unfold refusal?
  simp only [hnode, hhas, hemitted, hshared, hcycle]

/-- Parallel conversions have the same addresses. -/
theorem hasOwnAddress_parallel {e : Emission} {c d : Conversion} (h : Parallel c d) (n : NodeId) :
    e.hasOwnAddress d.store d.linkage n = e.hasOwnAddress c.store c.linkage n := by
  obtain ⟨events, archive, lists, number, emitted, standalone, table, rfl⟩ := h
  cases c.linkage <;> rfl

namespace Lockstep

variable {R : Conversion → Conversion → Prop} {e : Emission} {α : Type}

/-- An action that looks at the conversion in a way that tells parallel ones not apart. -/
theorem look (h : Lockstep R) {f : Conversion → Action Conversion α}
    (hlook : ∀ {c d}, Parallel c d → f d = f c) (hf : ∀ c, Respects R (f c)) :
    Respects R (get >>= f) :=
  respects_read (fun hcd => (hlook (h.parallel hcd)).symm) hf

/-- Noting an event keeps the conversions in step. -/
theorem log (h : Lockstep R) (event : Event) : Respects R (Conversion.log event) :=
  fun _ _ hcd => ⟨rfl, h.record event hcd⟩

/-- A failure keeps the conversions in step: both fail alike. -/
theorem fail (h : Lockstep R) (f : Failure) :
    Respects R (Conversion.fail f : Action Conversion α) := by
  intro c d hcd
  unfold Conversion.fail onStore Store.fail
  cases f.event? with
  | none => exact ⟨rfl, hcd⟩
  | some event => exact ⟨rfl, h.record event hcd⟩

/-- So does a change of one visit, which is the same in both. -/
theorem onVisit (h : Lockstep R) (n : NodeId) (f : Visit → Visit) :
    Respects R (Conversion.onVisit n f) := fun _ _ hcd => ⟨rfl, h.modify n f hcd⟩

/-- Both find the same visit. -/
theorem visitOf (h : Lockstep R) (n : NodeId) : Respects R (Conversion.visitOf n) := by
  refine h.look (fun {c d} hcd => ?_) fun _ => respects_pure _
  obtain ⟨events, archive, lists, number, emitted, standalone, table, rfl⟩ := hcd
  rfl

/-! ### Hoisting -/

/-- Both choose the same id and number the next one alike. -/
theorem chooseId (h : Lockstep R) (first second : Value) (stem : String) :
    Respects R (chooseId first second stem) := by
  unfold Emission.chooseId
  split
  · exact respects_pure _
  · split
    · exact respects_pure _
    · -- the number of the next id is the same
      unfold freshId
      refine h.look (fun {c d} hcd => ?_) fun c => ?_
      · obtain ⟨events, archive, lists, number, emitted, standalone, table, rfl⟩ := hcd
        rfl
      · exact Respects.bind (fun _ _ hcd => ⟨rfl, h.count hcd⟩) fun _ => respects_pure _

/-- Both refer to a definition under the same id. -/
theorem referenceFor (h : Lockstep R) (n : NodeId) (v : Visit) :
    Respects R (e.referenceFor n v) := by
  refine h.look (fun {c d} hcd => ?_) fun c => ?_
  · obtain ⟨events, archive, lists, number, emitted, standalone, table, rfl⟩ := hcd
    cases hl : c.linkage with
    | none => rfl
    | some l => rfl
  dsimp only
  split
  · split
    · split
      · exact respects_pure _
      · exact h.fail _
    · refine (h.chooseId _ _ _).bind fun id => ?_
      exact (h.onVisit _ _).bind fun _ => respects_pure _
  · split
    · exact respects_pure _
    · exact (h.chooseId _ _ _).bind fun id => respects_pure _

/-- Both make the same definition of a visit. -/
theorem extract (h : Lockstep R) (n : NodeId) : Respects R (e.extract n) := by
  refine (h.visitOf n).bind fun v => ?_
  split
  · exact respects_pure _
  · refine (h.referenceFor n v).bind fun ref => ?_
    exact (h.onVisit _ _).bind fun _ => h.log _

/-- Hoisting stays in step: induction on the nodes, one extraction at a time. -/
theorem hoistAll (h : Lockstep R) (ns : List NodeId) : Respects R (e.hoistAll ns) := by
  induction ns with
  | nil => exact respects_pure _
  | cons n rest ih =>
    unfold Emission.hoistAll
    refine h.look (fun {c d} hcd => ?_) fun c => (h.visitOf n).bind fun v => ?_
    · have hhoisted : ∀ v, e.isHoisted d.store d.linkage n v = e.isHoisted c.store c.linkage n v :=
        fun v => by
          unfold isHoisted
          rw [hasOwnAddress_parallel hcd]
      simp only [hhoisted]
    -- The same branch stands in both alternatives, so it is settled first.
    have hextract : Respects R
        (if e.isHoisted c.store c.linkage n v = true then do e.extract n; e.hoistAll rest
          else e.hoistAll rest) := by
      split
      · exact (h.extract n).bind fun _ => ih
      · exact ih
    dsimp only
    split
    · exact (h.fail .misuse).bind fun _ => hextract
    · exact hextract

/-- The making of definitions. -/
theorem hoist (h : Lockstep R) : Respects R e.hoist := by
  refine h.look (fun {c d} hcd => ?_) fun _ => h.hoistAll _
  obtain ⟨events, archive, lists, number, emitted, standalone, table, rfl⟩ := hcd
  rfl

/-! ### Settling -/

/-- Both take over the same content, if they append alike to lists of annotations. -/
theorem inherit (h : Lockstep R) (happend : ∀ k t, Respects R (appendShared k t)) (own : Entries)
    (target : NodeId) : Respects R (e.inherit own target) := by
  refine h.look (fun {c d} hcd => ?_) fun c => ?_
  · obtain ⟨events, archive, lists, number, emitted, standalone, table, rfl⟩ := hcd
    rfl
  dsimp only
  split
  · unfold requireAlso
    split
    · exact respects_pure _
    · exact respects_pure _
    · exact (happend _ _).bind fun _ => respects_pure _
    · exact h.fail _
  · exact respects_pure _

/-- Settling stays in step: induction on the links that are left.  What an override and a list of
    annotations do is taken as given. -/
theorem settle (h : Lockstep R) (happend : ∀ k t, Respects R (appendShared k t))
    (hoverride : ∀ o, e.override = some o → ∀ n, Respects R (applyOverride o n)) (links : Nat)
    (n : NodeId) : Respects R (e.settle links n) := by
  induction links generalizing n with
  | zero => exact respects_pure _
  | succ links ih =>
    rw [settle_eq]
    refine (h.visitOf n).bind fun v => ?_
    split
    · exact respects_pure _
    · refine (h.onVisit n _).bind fun _ => Respects.bind ?_ fun _ => ?_
      · unfold finish
        split
        · exact respects_pure _
        · rename_i target htarget
          exact (ih target).bind fun _ => (h.inherit happend _ _).bind fun _ => h.onVisit n _
      -- The override is shown the node at the same moment on both sides.
      · unfold amend
        split
        · rename_i o ho
          split
          · exact respects_pure _
          · exact hoverride o ho n
        · exact respects_pure _

/-- The finishing of all nodes. -/
theorem settleVisits (h : Lockstep R) (happend : ∀ k t, Respects R (appendShared k t))
    (hoverride : ∀ o, e.override = some o → ∀ n, Respects R (applyOverride o n)) :
    Respects R e.settleVisits := by
  refine h.look (fun {c d} hcd => ?_) fun c => ?_
  · obtain ⟨events, archive, lists, number, emitted, standalone, table, rfl⟩ := hcd
    rfl
  dsimp only
  generalize c.survey.order.reverse = ns
  induction ns with
  | nil => exact respects_pure _
  | cons n rest ih => exact (h.settle happend hoverride _ n).bind fun _ => ih

/-! ### Documents -/

/-- Both claim the root alike, if the relation allows the mark of the root. -/
theorem claim (h : Lockstep R) (hmark : ∀ {c d} (n : NodeId) (alone : Bool), R c d →
      R { c with survey := { c.survey with
            emitted := c.survey.emitted ++ [n], standalone := c.survey.standalone || alone } }
        { d with survey := { d.survey with
            emitted := d.survey.emitted ++ [n], standalone := d.survey.standalone || alone } }) :
    Respects R e.claim := by
  refine h.look (fun {c d} hcd => ?_) fun c => fun _ _ hcd => ⟨rfl, hmark _ _ hcd⟩
  obtain ⟨events, archive, lists, number, emitted, standalone, table, rfl⟩ := hcd
  cases hl : c.linkage <;> rfl

/-- Both list the same definitions and finish the same document. -/
theorem completed (h : Lockstep R) : Respects R e.completed := by
  refine h.look (fun {c d} hcd => ?_) fun _ => h.log _
  obtain ⟨events, archive, lists, number, emitted, standalone, table, rfl⟩ := hcd
  have hnode : ({ c.store with events, archive, lists } : Store).node? e.root = c.store.node? e.root := by
    cases e.root <;> rfl
  dsimp only
  rw [hnode]
  cases hl : c.linkage <;> rfl

/-- The listing of definitions, from tables that are the same. -/
theorem listDefinitions (h : Lockstep R) (hlinkage : ∀ {c d}, R c d → d.linkage = c.linkage)
    (hlink : ∀ {c d} (f : Option Linkage → Option Linkage), R c d →
      R { c with linkage := f c.linkage } { d with linkage := f d.linkage }) :
    Respects R e.listDefinitions := by
  refine respects_read (fun {c d} hcd => ?_) fun c => ?_
  · have hl := hlinkage hcd
    obtain ⟨events, archive, lists, number, emitted, standalone, table, rfl⟩ := h.parallel hcd
    dsimp only at hl ⊢
    rw [hl]
    rfl
  dsimp only
  refine Respects.bind (fun _ _ hcd => ⟨rfl, hlink _ hcd⟩) fun _ => ?_
  split
  · exact h.fail _
  · exact respects_pure _

/-- An emission keeps a relation between conversions from which the same was emitted and listed, if
    finishing the nodes and the document does. -/
theorem document (h : Lockstep R)
    (hsame : ∀ {c d}, R c d → d.linkage = c.linkage ∧ d.survey.emitted = c.survey.emitted ∧
      d.survey.standalone = c.survey.standalone)
    (hlink : ∀ {c d} (f : Option Linkage → Option Linkage), R c d →
      R { c with linkage := f c.linkage } { d with linkage := f d.linkage })
    (hmark : ∀ {c d} (n : NodeId) (alone : Bool), R c d →
      R { c with survey := { c.survey with
            emitted := c.survey.emitted ++ [n], standalone := c.survey.standalone || alone } }
        { d with survey := { d.survey with
            emitted := d.survey.emitted ++ [n], standalone := d.survey.standalone || alone } })
    (hsettle : Respects R e.settleVisits) (hfinalize : ∀ v, Respects R (Conversion.finalize v)) :
    Respects R e.document := by
  refine respects_read (fun {c d} hcd => ?_) fun c => ?_
  · obtain ⟨hlinkage, hemitted, halone⟩ := hsame hcd
    have haddress := hasOwnAddress_parallel (e := e) (h.parallel hcd)
    -- Whether an emission is refused is told by what both have in common.
    have hrefusal : e.refusal? d = e.refusal? c := by
      refine refusal?_congr ?_ ?_ (by rw [hemitted]) halone (by rw [hlinkage]) (fun _ => hemitted)
        haddress
      all_goals
        obtain ⟨events, archive, lists, number, emitted, standalone, table, rfl⟩ := h.parallel hcd
      · cases e.root <;> rfl
      · rfl
    rw [hrefusal]
  cases e.refusal? c with
  | some f => exact h.fail f
  | none =>
    have hcompose : Respects R e.compose :=
      (h.claim hmark).bind fun _ => h.hoist.bind fun _ => hsettle.bind fun _ =>
        h.listDefinitions (fun hcd => (hsame hcd).1) hlink
    refine hcompose.bind fun entries => (hfinalize _).bind fun json => ?_
    exact h.completed.bind fun _ => respects_pure _

end Lockstep

/-- The steps of an emission keep conversions alike but for events. -/
theorem lockstep_echoes : Lockstep Echoes where
  parallel {c d} h := by
    obtain ⟨events, rfl⟩ := h.exists_eq
    obtain ⟨table, htable⟩ := exists_table c.linkage
    refine ⟨events, c.store.archive, c.store.lists, c.survey.number, c.survey.emitted, c.survey.standalone, table,
      ?_⟩
    rw [← htable]
  modify _ _ h := by
    obtain ⟨events, rfl⟩ := h.exists_eq
    rfl
  count h := by
    obtain ⟨events, rfl⟩ := h.exists_eq
    rfl
  record _ h := by
    obtain ⟨events, rfl⟩ := h.exists_eq
    rfl

/-- A refused emission leaves at most an event. -/
theorem document_echoes {e : Emission} {c : Conversion} {f : Failure} (h : e.refusal? c = some f) :
    ∃ d, e.document c = (.error f, d) ∧ c.Echoes d := by
  unfold document
  rw [run_bind, run_get]
  dsimp only
  rw [h]
  exact exists_echoes_fail Json f c

end Emission

end SchemaGraph
