import SchemaGraph.Proofs.Document.Again
import SchemaGraph.Proofs.Document.Session

namespace SchemaGraph

open SchemaGraph.Action Conversion

/-!
# The order of emissions

Documents with addresses across documents may be emitted in any order.  Whichever root comes first,
its emission hoists and settles the same nodes; all others find that done.  So what comes of each
root, and the definitions that the documents have in common, do not depend on the order, unless an
emission ends half-way through settling.

* `Conversion.posed`      — a conversion from which other roots were emitted
* `Emission.answer`       — what comes of a root when everything is hoisted and settled
* `Emission.document_posed` — an emission, by what hoisting and settling come to
* `Converter.emitEach`    — emits documents in order, each whatever the ones before it came to
* `Converter.emitEach_perm` — the order makes no difference
-/

namespace Conversion

/-- A conversion with other events, from which other roots were emitted, with another table. -/
def posed (c : Conversion) (events : List Event) (emitted : List NodeId) (standalone : Bool)
    (table : List (Value × NodeId)) : Conversion :=
  { c with
    store := { c.store with events }
    survey := { c.survey with emitted, standalone }
    linkage := c.linkage.map fun l => { l with table } }

section Posed

variable (c : Conversion) (events : List Event) (emitted : List NodeId) (standalone : Bool)
  (table table' : List (Value × NodeId))

/-- A conversion with the table that it has. -/
theorem posed_self {l : Linkage} (hl : c.linkage = some l) :
    c.posed c.store.events c.survey.emitted c.survey.standalone l.table = c := by
  cases c
  cases hl
  rfl

/-- Another table takes the place of the one that there is. -/
theorem posed_link :
    { c.posed events emitted standalone table with
      linkage := (c.posed events emitted standalone table).linkage.map
        fun l => { l with table := table' } } = c.posed events emitted standalone table' := by
  unfold posed
  cases c.linkage <;> rfl

/-- What is posed does not depend on events. -/
theorem posed_of_echoes {c d : Conversion} (h : Echoes c d) :
    d.posed events emitted standalone table = c.posed events emitted standalone table := by
  obtain ⟨_, rfl⟩ := h.exists_eq
  rfl

/-- A conversion is parallel to itself in another pose. -/
theorem posed_parallel : Parallel c (c.posed events emitted standalone table) :=
  ⟨events, c.store.archive, c.store.lists, c.survey.number, emitted, standalone, table, rfl⟩

end Posed

/-- The steps of an emission do not depend on what was emitted before. -/
theorem lockstep_posed (emitted : List NodeId) (standalone : Bool) (table : List (Value × NodeId)) :
    Emission.Lockstep fun c d => ∃ events, d = c.posed events emitted standalone table where
  parallel {c d} h := by
    obtain ⟨events, rfl⟩ := h
    exact posed_parallel c events emitted standalone table
  modify n f h := by
    obtain ⟨events, rfl⟩ := h
    exact ⟨events, rfl⟩
  count h := by
    obtain ⟨events, rfl⟩ := h
    exact ⟨events, rfl⟩
  record e h := by
    obtain ⟨events, rfl⟩ := h
    exact ⟨events ++ [e], rfl⟩

end Conversion

namespace Emission

variable {e : Emission} {c d : Conversion} {l : Linkage}

/-! ### Marks -/

/-- A change of a visit that leaves its mark leaves all marks. -/
theorem marks_modify (s : Survey) (n : NodeId) {f : Visit → Visit}
    (hf : ∀ v, (f v).cycle = v.cycle) : (s.modify n f).marks = s.marks := by
  show (Survey.change n f s.visits).map _ = s.visits.map _
  induction s.visits with
  | nil => rfl
  | cons p rest ih =>
    obtain ⟨m, v⟩ := p
    unfold Survey.change
    split
    · simp [hf]
    · simp [ih]

/-- The marks of cycles are the same. -/
def SameMarks (c d : Conversion) : Prop := d.survey.marks = c.survey.marks

instance : Std.Refl SameMarks := ⟨fun _ => rfl⟩

instance : Trans SameMarks SameMarks SameMarks := ⟨fun h₁ h₂ => Eq.trans h₂ h₁⟩

/-- So it does as an action. -/
theorem onVisit_marks {n : NodeId} {f : Visit → Visit} (hf : ∀ v, (f v).cycle = v.cycle) :
    Within SameMarks (onVisit n f) := fun c => marks_modify c.survey n hf

/-- A failure leaves all marks. -/
theorem fail_marks (α : Type) (f : Failure) : Within SameMarks (fail f : Action Conversion α) := by
  intro c
  obtain ⟨d, hrun, -, hsurvey⟩ := run_fail α f c
  rw [hrun]
  show d.survey.marks = c.survey.marks
  rw [hsurvey]

/-- Hoisting and settling leave the marks of cycles alone. -/
theorem stage_marks : Within SameMarks e.stage := by
  have hcarries : Carries SameMarks :=
    { visit := fun n f hf => onVisit_marks hf
      count := fun c => rfl
      log := fun event c => rfl
      fail := fail_marks }
  have hbears : Bears SameMarks :=
    { visit := fun n f hf => onVisit_marks fun v => (hf v).cycle
      append := fun number t c => rfl
      shown := fun n body c => rfl
      fail := fail_marks }
  exact .bind hcarries.hoist fun _ => hbears.settleVisits

/-- Hoisting and settling leave addresses alone. -/
theorem hasOwnAddress_of_adds (h : Adds c d) (n : NodeId) :
    e.hasOwnAddress d.store d.linkage n = e.hasOwnAddress c.store c.linkage n := by
  have hannotated : ∀ catalog, annotatedId d.store catalog n = annotatedId c.store catalog n := by
    intro catalog
    unfold annotatedId
    rw [h.catalog]
  unfold hasOwnAddress documentId
  rw [h.linkage]
  cases c.linkage with
  | none => simp only [hannotated]
  | some l => simp only [hannotated]

/-! ### One emission -/

variable {events : List Event} {emitted : List NodeId} {standalone : Bool}
  {table : List (Value × NodeId)}

/-- Hoisting and settling do not depend on what was emitted before. -/
theorem stage_posed (hoverride : e.override = none) (c : Conversion) (events : List Event)
    (emitted : List NodeId) (standalone : Bool) (table : List (Value × NodeId)) :
    ∃ events', e.stage (c.posed events emitted standalone table) =
      ((e.stage c).1, (e.stage c).2.posed events' emitted standalone table) := by
  have hl := lockstep_posed emitted standalone table
  have hsettle := hl.settleVisits (e := e)
    (fun k t => by
      rintro c _ ⟨events, rfl⟩
      exact ⟨rfl, events, rfl⟩)
    (fun o ho => by rw [hoverride] at ho; cases ho)
  have hstage := (hl.hoist (e := e)).bind fun _ => hsettle
  obtain ⟨hresult, events', hstate⟩ := hstage c _ ⟨events, rfl⟩
  exact ⟨events', Prod.ext hresult.symm hstate⟩

/-- A document does not show what was emitted before. -/
theorem finalize_posed (v : Value) (c : Conversion) (events : List Event) (emitted : List NodeId)
    (standalone : Bool) (table : List (Value × NodeId)) :
    ∃ events', finalize v (c.posed events emitted standalone table) =
      ((finalize v c).1, c.posed events' emitted standalone table) := by
  unfold finalize
  rw [run_bind, run_get, run_bind, run_get]
  dsimp only
  rw [show (c.posed events emitted standalone table).view = c.view from rfl]
  cases (c.view.settle v).document with
  | ok json => exact ⟨events, rfl⟩
  | error f =>
    obtain ⟨d, hfail, -⟩ := exists_echoes_fail Json f c
    obtain ⟨d', hfail', hd'⟩ := exists_echoes_fail Json f (c.posed events emitted standalone table)
    obtain ⟨events', rfl⟩ := hd'.exists_eq
    refine ⟨events', ?_⟩
    dsimp only
    rw [hfail, hfail']
    rfl

/-- What comes of a root behind hoisting and settling: their failure, or what stops the listing of
    definitions, or the document of the root. -/
def answer (e : Emission) (x : Except Failure Unit) (c : Conversion) : Except Failure Json :=
  match x with
  | .error f => .error f
  | .ok _ =>
    match (listed c.survey.visits []).2 with
    | some f => .error f
    | none => (finalize (.dict (e.assemble c.survey [])) c).1

/-- The common table behind hoisting and settling. -/
def listing (x : Except Failure Unit) (c : Conversion) (table : List (Value × NodeId)) :
    List (Value × NodeId) :=
  match x with
  | .error _ => table
  | .ok _ => (listed c.survey.visits table).1

/-- The marking of a root that has addresses across documents. -/
theorem run_claim (hl : c.linkage = some l) :
    e.claim (c.posed events emitted standalone table) =
      (.ok (), c.posed events (emitted ++ [e.root]) standalone table) := by
  unfold claim posed
  rw [run_bind, run_get, hl]
  simp only [Option.map_some, Option.isNone_some, Bool.or_false]
  rfl

/-- Definitions are listed behind those that a table has; whether the listing stops is told from the
    visits, whatever stands in the table. -/
theorem listDefinitions_posed (hl : c.linkage = some l) (events : List Event)
    (emitted : List NodeId) (standalone : Bool) (table : List (Value × NodeId)) :
    ∃ events', e.listDefinitions (c.posed events emitted standalone table) =
      ((listed c.survey.visits []).2.elim (.ok (e.assemble c.survey [])) .error,
        c.posed events' emitted standalone (listed c.survey.visits table).1) := by
  have htable : (((c.posed events emitted standalone table).linkage.map (·.table)).getD []) =
      table := by
    unfold posed
    rw [hl]
    rfl
  have hexternal : (c.posed events emitted standalone table).linkage.isSome = true := by
    unfold posed
    rw [hl]
    rfl
  have hvisits : (c.posed events emitted standalone table).survey.visits = c.survey.visits := rfl
  unfold listDefinitions
  rw [run_bind, run_get]
  dsimp only
  rw [htable, run_bind, run_modify, posed_link, if_pos hexternal, hvisits,
    listed_stop_eq c.survey.visits table []]
  cases (listed c.survey.visits table).2 with
  | some f =>
    obtain ⟨d, hfail, hd⟩ := exists_echoes_fail Entries f (c.posed events emitted standalone
      (listed c.survey.visits table).1)
    obtain ⟨events', rfl⟩ := hd.exists_eq
    exact ⟨events', hfail⟩
  | none => exact ⟨events, rfl⟩

/-- **One emission.** An emission that is not refused comes to what hoisting and settling come to,
    and leaves what they leave, with one more root that was emitted, and the definitions listed. -/
theorem document_posed (hoverride : e.override = none) (hl : c.linkage = some l)
    (hrefusal : e.refusal? (c.posed events emitted standalone table) = none)
    {x : Except Failure Unit} {b : Conversion} (hstage : e.stage c = (x, b)) :
    ∃ events', e.document (c.posed events emitted standalone table) =
      (e.answer x b,
        b.posed events' (emitted ++ [e.root]) standalone (listing x b table)) := by
  have hb : b.linkage = some l := by
    have hadds := hoist_settle_adds (e := e) c
    rw [show (do e.hoist; e.settleVisits : Action Conversion Unit) c = (x, b) from hstage] at hadds
    exact hadds.linkage.trans hl
  -- Hoisting and settling come to the same in the other pose.
  obtain ⟨events₁, hposed⟩ := stage_posed hoverride c events (emitted ++ [e.root]) standalone
    table
  rw [hstage] at hposed
  have hcompose : e.compose = (do e.claim; e.stage; e.listDefinitions) := by
    unfold compose stage
    simp only [bind_assoc]
  unfold document
  rw [run_bind, run_get]
  dsimp only
  rw [hrefusal]
  dsimp only
  rw [hcompose, run_bind, run_bind, run_claim hl]
  dsimp only
  rw [run_bind, hposed]
  -- A failure of theirs is the answer; otherwise the definitions are listed.
  cases x with
  | error f => exact ⟨events₁, rfl⟩
  | ok u =>
    obtain ⟨events₂, hlist⟩ := listDefinitions_posed (e := e) hb events₁ (emitted ++ [e.root])
      standalone table
    dsimp only
    rw [hlist]
    unfold answer
    dsimp only
    -- A stop of the listing is the answer; otherwise it is the document.
    cases (listed b.survey.visits []).2 with
    | some f => exact ⟨events₂, rfl⟩
    | none =>
      obtain ⟨events', hfinalize⟩ := finalize_posed (.dict (e.assemble b.survey [])) b events₂
        (emitted ++ [e.root]) standalone (listed b.survey.visits table).1
      dsimp only [Option.elim_none]
      rw [run_bind, hfinalize]
      cases (finalize (.dict (e.assemble b.survey [])) b).1 with
      | error f => exact ⟨events', rfl⟩
      | ok json => exact ⟨_, rfl⟩

/-- What comes of a root does not depend on events. -/
theorem answer_of_echoes {x : Except Failure Unit} (h : Echoes c d) : e.answer x d = e.answer x c := by
  obtain ⟨events', rfl⟩ := h.exists_eq
  obtain ⟨table, htable⟩ := exists_table c.linkage
  have hposed : ({ c with store := { c.store with events := events' } } : Conversion) =
      c.posed events' c.survey.emitted c.survey.standalone table := by
    unfold posed
    rw [← htable]
  unfold answer
  rw [hposed]
  have hfinalize := fun v => finalize_posed v c events' c.survey.emitted
    c.survey.standalone table
  -- What is answered depends on events only through what is written out, and that does not.
  cases x with
  | error f => rfl
  | ok u =>
    obtain ⟨_, hrun⟩ := hfinalize (.dict (e.assemble c.survey []))
    show (match (listed c.survey.visits []).2 with
      | some f => Except.error f
      | none => (finalize (.dict (e.assemble c.survey []))
          (c.posed events' c.survey.emitted c.survey.standalone table)).1) = _
    rw [hrun]

end Emission

namespace Converter

open Emission

variable {conv : Converter} {policy : EmissionSettings} {c d : Conversion} {l : Linkage}

/-! ### Roots -/

/-- With addresses across documents it is all the same for which root a node is hoisted. -/
theorem extract_emission (hl : c.linkage = some l) (root other n : NodeId) :
    (conv.emission policy root).extract n c = (conv.emission policy other).extract n c := by
  have hreference : ∀ v, (conv.emission policy root).referenceFor n v c =
      (conv.emission policy other).referenceFor n v c := by
    intro v
    unfold referenceFor
    rw [run_bind, run_get, run_bind, run_get]
    dsimp only
    rw [hl]
    rfl
  unfold extract
  rw [run_bind, run_bind, run_visitOf]
  dsimp only
  split
  · rfl
  · rw [run_bind, run_bind, hreference]
    rfl

/-- Roots with documents of their own hoist the same nodes in the same way. -/
theorem hoistAll_emission {root other : NodeId} (hroot : root ≠ .gap) (hother : other ≠ .gap)
    (hl : c.linkage = some l) (hid : (documentId c.store c.linkage root).isTruthy = true)
    (hid' : (documentId c.store c.linkage other).isTruthy = true) {ns : List NodeId}
    (hns : ∀ n ∈ ns, c.survey.has n = true) :
    (conv.emission policy root).hoistAll ns c = (conv.emission policy other).hoistAll ns c := by
  -- Induction on the nodes.  The root of an emission matters to a gap and to nodes without a
  -- document of their own, and both roots have one.
  induction ns generalizing c with
  | nil => rfl
  | cons n rest ih =>
    obtain ⟨hn, hrest⟩ := List.forall_mem_cons.mp hns
    obtain ⟨v, hv⟩ := Survey.visit?_of_has hn
    have hgap : (v.cycle.isNone ∧ n ≠ (conv.emission policy root).root ∧ n = .gap) ↔
        (v.cycle.isNone ∧ n ≠ (conv.emission policy other).root ∧ n = .gap) := by
      refine and_congr_right fun _ => ?_
      constructor
      · rintro ⟨-, rfl⟩
        exact ⟨hother.symm, rfl⟩
      · rintro ⟨-, rfl⟩
        exact ⟨hroot.symm, rfl⟩
    rw [hoistAll_cons _ rest hv, hoistAll_cons _ rest hv, isHoisted_emission hid hid' n v]
    simp only [hgap]
    split
    · obtain ⟨b, hfail, -⟩ := exists_echoes_fail Unit .misuse c
      rw [run_bind, run_bind, hfail]
    · split
      · rw [run_bind, run_bind, extract_emission hl root other n]
        have hhoists := (extract_hoists (e := conv.emission policy other) hn).state_of_and
        rcases hextract : (conv.emission policy other).extract n c with ⟨f | _, b⟩
        · rfl
        · rw [hextract] at hhoists
          have hlinkage := hhoists.rewrites.linkage
          -- Ids of documents are told from the store and the addresses, which an extraction leaves.
          have hdocument : ∀ m, documentId b.store b.linkage m = documentId c.store c.linkage m := by
            intro m
            rw [hlinkage, hhoists.rewrites.store]
            rfl
          refine ih (hlinkage.trans hl) ?_ ?_ fun m hm => ?_
          · rw [hdocument]
            exact hid
          · rw [hdocument]
            exact hid'
          · rw [hhoists.rewrites.has]
            exact hrest m hm
      · exact ih hl hid hid' hrest

/-- Settling is the same for all roots. -/
theorem settle_emission (root other : NodeId) (links : Nat) (n : NodeId) :
    (conv.emission policy root).settle links n = (conv.emission policy other).settle links n := by
  induction links generalizing n with
  | zero => rfl
  | succ links ih =>
    rw [settle_eq, settle_eq]
    unfold finish
    simp only [ih]
    rfl

/-- Roots with documents of their own come to the same by hoisting and settling. -/
theorem stage_emission {root other : NodeId} (hroot : root ≠ .gap) (hother : other ≠ .gap)
    (hl : c.linkage = some l) (hid : (documentId c.store c.linkage root).isTruthy = true)
    (hid' : (documentId c.store c.linkage other).isTruthy = true) :
    (conv.emission policy root).stage c = (conv.emission policy other).stage c := by
  have hhoist : (conv.emission policy root).hoist c = (conv.emission policy other).hoist c :=
    hoistAll_emission hroot hother hl hid hid' fun n hn => (Survey.has_iff _ _).mpr hn
  have hsettleAll : ∀ links ns, (conv.emission policy root).settleAll links ns =
      (conv.emission policy other).settleAll links ns := by
    intro links ns
    induction ns with
    | nil => rfl
    | cons n rest ih =>
      unfold settleAll
      rw [settle_emission root other, ih]
  have hsettle : (conv.emission policy root).settleVisits = (conv.emission policy other).settleVisits := by
    unfold settleVisits
    simp only [hsettleAll]
  unfold stage
  rw [run_bind, run_bind, hhoist, hsettle]

/-! ### Runs -/

/-- Emits documents in order, each whatever the ones before it came to; with what they came to. -/
def emitEach (conv : Converter) (policy : EmissionSettings) :
    List NodeId → Conversion → List (NodeId × Except Failure Json) × Conversion
  | [], c => ([], c)
  | root :: rest, c =>
    let (result, d) := conv.emit policy root c
    let (results, f) := emitEach conv policy rest d
    ((root, result) :: results, f)

/-- What comes of many roots is what comes of the first one, and of the rest behind it. -/
theorem emitEach_cons {root : NodeId} {rest : List NodeId} {result : Except Failure Json}
    {results : List (NodeId × Except Failure Json)} {f : Conversion}
    (h : (conv.emission policy root).document c = (result, d))
    (hrest : conv.emitEach policy rest d = (results, f)) :
    conv.emitEach policy (root :: rest) c = ((root, result) :: results, f) := by
  show ((root, ((conv.emission policy root).document c).1) ::
    (conv.emitEach policy rest ((conv.emission policy root).document c).2).1,
    (conv.emitEach policy rest ((conv.emission policy root).document c).2).2) = _
  rw [h, hrest]

/-- What comes of a root: its refusal, or what comes of it behind hoisting and settling. -/
def outcome (conv : Converter) (policy : EmissionSettings) (c : Conversion)
    (x : Except Failure Unit) (b : Conversion) (root : NodeId) : Except Failure Json :=
  match (conv.emission policy root).refusal? c with
  | some f => .error f
  | none => (conv.emission policy root).answer x b

/-- The roots of a run have documents of their own, and hoisting and settling come to the same for
    each of them. -/
structure Registered (conv : Converter) (policy : EmissionSettings) (c : Conversion) (l : Linkage)
    (x : Except Failure Unit) (b : Conversion) (roots : List NodeId) : Prop where
  override : conv.override = none
  linkage : c.linkage = some l
  nodes : ∀ r ∈ roots, (c.store.node? r).isSome
  stage : ∀ r ∈ roots, (conv.emission policy r).stage c = (x, b)

namespace Registered

variable {x : Except Failure Unit} {b : Conversion} {root : NodeId} {rest roots : List NodeId}
  {events : List Event} {emitted : List NodeId}

/-- The rest of a run is registered if the whole run is. -/
theorem tail (h : Registered conv policy c l x b (root :: rest)) :
    Registered conv policy c l x b rest where
  override := h.override
  linkage := h.linkage
  nodes r hr := h.nodes r (List.mem_cons_of_mem _ hr)
  stage r hr := h.stage r (List.mem_cons_of_mem _ hr)

/-- Hoisting and settling add to the store at most. -/
theorem adds (h : Registered conv policy c l x b (root :: rest)) : Adds c b := by
  have hadds := hoist_settle_adds (e := conv.emission policy root) c
  have hstage := h.stage root (List.mem_cons_self ..)
  rw [show (do (conv.emission policy root).hoist; (conv.emission policy root).settleVisits :
    Action Conversion Unit) c = (x, b) from hstage] at hadds
  exact hadds

/-- Roots are refused at first and later for the same reasons. -/
theorem refusal?_posed (h : Registered conv policy c l x b (root :: rest)) {p : Conversion}
    (hp : p = c ∨ p = b) (hemitted : root ∈ emitted ↔ root ∈ c.survey.emitted)
    (events : List Event) (table : List (Value × NodeId)) :
    (conv.emission policy root).refusal? (p.posed events emitted c.survey.standalone table) =
      (conv.emission policy root).refusal? c := by
  have hposed : ∀ q : Conversion, Parallel q (q.posed events emitted c.survey.standalone table) :=
    fun q => posed_parallel q events emitted c.survey.standalone table
  have hadds : Adds c p := by
    rcases hp with rfl | rfl
    · exact Std.Refl.refl _
    · exact h.adds
  -- Hoisting and settling leave the marks.
  have hmarks : p.survey.marks = c.survey.marks := by
    rcases hp with rfl | rfl
    · rfl
    · have hsame := stage_marks (e := conv.emission policy root) c
      rw [h.stage root (List.mem_cons_self ..)] at hsame
      exact hsame
  obtain ⟨node, hnode⟩ := Option.isSome_iff_exists.mp (h.nodes root (List.mem_cons_self ..))
  have hlinkage : (p.posed events emitted c.survey.standalone table).linkage.isNone
      = c.linkage.isNone := by
    unfold posed
    rw [hadds.linkage, h.linkage]
    rfl
  refine refusal?_congr ?_ hmarks hemitted rfl hlinkage (fun hnone => ?_) fun n => ?_
  · show (p.posed events emitted c.survey.standalone table).store.node? root = c.store.node? root
    rw [hnode, ← hadds.store.node? hnode]
    cases root <;> rfl
  · rw [h.linkage] at hnone
    cases hnone
  · rw [hasOwnAddress_parallel (hposed p), hasOwnAddress_of_adds hadds]

/-- Behind the first emission all roots come to what they come to at first. -/
theorem emitEach_behind (hx : x ≠ .error .missingChild)
    (h : Registered conv policy c l x b roots) (hnodup : roots.Nodup)
    (hemitted : ∀ r ∈ roots, r ∈ emitted ↔ r ∈ c.survey.emitted) (events : List Event) :
    ∃ events' emitted', conv.emitEach policy roots
        (b.posed events emitted c.survey.standalone (listing x b l.table)) =
      (roots.map fun r => (r, conv.outcome policy c x b r),
        b.posed events' emitted' c.survey.standalone (listing x b l.table)) := by
  induction roots generalizing events emitted with
  | nil => exact ⟨events, emitted, rfl⟩
  | cons root rest ih =>
    obtain ⟨hfresh, hrest⟩ := List.nodup_cons.mp hnodup
    obtain ⟨hroot, hothers⟩ := List.forall_mem_cons.mp hemitted
    have hrefusal := h.refusal?_posed (.inr rfl) hroot events (listing x b l.table)
    cases hrefused : (conv.emission policy root).refusal? c with
    | some f =>
      rw [hrefused] at hrefusal
      obtain ⟨d, hrun, hd⟩ := document_echoes hrefusal
      obtain ⟨events₁, rfl⟩ := hd.exists_eq
      obtain ⟨events', emitted', hmore⟩ := ih h.tail hrest hothers events₁
      refine ⟨events', emitted', ?_⟩
      have houtcome : conv.outcome policy c x b root = .error f := by
        unfold outcome
        rw [hrefused]
      rw [List.map_cons, houtcome]
      exact emitEach_cons hrun hmore
    | none =>
      rw [hrefused] at hrefusal
      -- hoisting and settling come to the same again
      obtain ⟨b', hagain, hb'⟩ := stage_again (e := conv.emission policy root) h.override
        (h.stage root (List.mem_cons_self ..)) hx
      obtain ⟨events₁, hrun⟩ := document_posed h.override (h.adds.linkage.trans h.linkage) hrefusal
        hagain
      have hlisting : listing x b' (listing x b l.table) = listing x b l.table := by
        unfold listing
        cases x with
        | error f => rfl
        | ok u =>
          dsimp only
          rw [hb'.survey, listed_again]
      rw [hlisting, posed_of_echoes _ _ _ _ hb', answer_of_echoes hb'] at hrun
      have hothers' : ∀ r ∈ rest, r ∈ emitted ++ [root] ↔ r ∈ c.survey.emitted := by
        intro r hr
        have hne : r ≠ root := fun hsame => hfresh (hsame ▸ hr)
        rw [← hothers r hr]
        simp [hne]
      obtain ⟨events', emitted', hmore⟩ := ih h.tail hrest hothers' events₁
      refine ⟨events', emitted', ?_⟩
      have houtcome : conv.outcome policy c x b root = (conv.emission policy root).answer x b := by
        unfold outcome
        rw [hrefused]
      rw [List.map_cons, houtcome]
      exact emitEach_cons hrun hmore

/-- An emission that is not refused comes to a failure for an annotation that is no list, if hoisting
    and settling do. -/
theorem ne_missingChild (h : Registered conv policy c l x b roots)
    (hemitted : ∀ r ∈ roots, r ∈ emitted ↔ r ∈ c.survey.emitted) (hnodup : roots.Nodup)
    (events : List Event) (hlists : ∀ p ∈ (conv.emitEach policy roots
      (c.posed events emitted c.survey.standalone l.table)).1, p.2 ≠ .error .missingChild) :
    (∀ r ∈ roots, (conv.emission policy r).refusal? c ≠ none) ∨ x ≠ .error .missingChild := by
  induction roots generalizing events with
  | nil => exact .inl nofun
  | cons root rest ih =>
    obtain ⟨hroot, hothers⟩ := List.forall_mem_cons.mp hemitted
    have hrefusal := h.refusal?_posed (.inl rfl) hroot events l.table
    -- A refused root changes events alone; the first other one settles everything.
    cases hrefused : (conv.emission policy root).refusal? c with
    | some f =>
      rw [hrefused] at hrefusal
      obtain ⟨d, hrun, hd⟩ := document_echoes hrefusal
      obtain ⟨events₁, rfl⟩ := hd.exists_eq
      rw [emitEach_cons hrun rfl] at hlists
      have hrest := ih h.tail hothers (List.nodup_cons.mp hnodup).2 events₁
        (List.forall_mem_cons.mp hlists).2
      refine hrest.imp_left fun hall => ?_
      refine List.forall_mem_cons.mpr ⟨?_, hall⟩
      rw [hrefused]
      nofun
    | none =>
      rw [hrefused] at hrefusal
      obtain ⟨events₁, hrun⟩ := document_posed h.override h.linkage hrefusal
        (h.stage root (List.mem_cons_self ..))
      rw [emitEach_cons hrun rfl] at hlists
      right
      rintro rfl
      exact (List.forall_mem_cons.mp hlists).1 rfl

/-- **Runs.** Every root comes to what it comes to at first.  Unless all roots are refused, the run
    leaves what the hoisting and settling of any of them leaves. -/
theorem emitEach_eq (h : Registered conv policy c l x b roots) (hnodup : roots.Nodup)
    (hx : (∀ r ∈ roots, (conv.emission policy r).refusal? c ≠ none) ∨ x ≠ .error .missingChild)
    (hemitted : ∀ r ∈ roots, r ∈ emitted ↔ r ∈ c.survey.emitted) (events : List Event) :
    ∃ events' emitted', conv.emitEach policy roots
        (c.posed events emitted c.survey.standalone l.table) =
      (roots.map fun r => (r, conv.outcome policy c x b r),
        if ∀ r ∈ roots, (conv.emission policy r).refusal? c ≠ none then
          c.posed events' emitted' c.survey.standalone l.table
        else b.posed events' emitted' c.survey.standalone (listing x b l.table)) := by
  -- Induction on the roots: one that is refused leaves everything as it was, and the first one that
  -- is not leaves hoisting and settling done for those behind it.
  induction roots generalizing events with
  | nil => exact ⟨events, emitted, by rw [if_pos nofun]; rfl⟩
  | cons root rest ih =>
    obtain ⟨hfresh, hrest⟩ := List.nodup_cons.mp hnodup
    obtain ⟨hroot, hothers⟩ := List.forall_mem_cons.mp hemitted
    have hrefusal := h.refusal?_posed (.inl rfl) hroot events l.table
    cases hrefused : (conv.emission policy root).refusal? c with
    | some f =>
      rw [hrefused] at hrefusal
      obtain ⟨d, hrun, hd⟩ := document_echoes hrefusal
      obtain ⟨events₁, rfl⟩ := hd.exists_eq
      have hx' := hx.imp_left fun hall => (List.forall_mem_cons.mp hall).2
      obtain ⟨events', emitted', hmore⟩ := ih h.tail hrest hx' hothers events₁
      have houtcome : conv.outcome policy c x b root = .error f := by
        unfold outcome
        rw [hrefused]
      refine ⟨events', emitted', ?_⟩
      have hall : (∀ r ∈ root :: rest, (conv.emission policy r).refusal? c ≠ none) ↔
          ∀ r ∈ rest, (conv.emission policy r).refusal? c ≠ none := by
        simp [hrefused]
      simp only [hall]
      rw [List.map_cons, houtcome]
      exact emitEach_cons hrun hmore
    | none =>
      rw [hrefused] at hrefusal
      have hsome : ¬ ∀ r ∈ root :: rest, (conv.emission policy r).refusal? c ≠ none :=
        fun hall => (List.forall_mem_cons.mp hall).1 hrefused
      obtain ⟨events₁, hrun⟩ := document_posed h.override h.linkage hrefusal
        (h.stage root (List.mem_cons_self ..))
      have hothers' : ∀ r ∈ rest, r ∈ emitted ++ [root] ↔ r ∈ c.survey.emitted := by
        intro r hr
        have hne : r ≠ root := fun hsame => hfresh (hsame ▸ hr)
        rw [← hothers r hr]
        simp [hne]
      obtain ⟨events', emitted', hmore⟩ :=
        emitEach_behind (hx.resolve_left hsome) h.tail hrest hothers' events₁
      have houtcome : conv.outcome policy c x b root = (conv.emission policy root).answer x b := by
        unfold outcome
        rw [hrefused]
      refine ⟨events', emitted', ?_⟩
      rw [if_neg hsome, List.map_cons, houtcome]
      exact emitEach_cons hrun hmore

end Registered

/-- The document of the common table does not show what was emitted before. -/
theorem finalize_commonTable (hl : c.linkage = some l) (events : List Event) (emitted : List NodeId)
    (standalone : Bool) (table : List (Value × NodeId)) :
    (finalize (.dict (commonTable (c.posed events emitted standalone table)))
      (c.posed events emitted standalone table)).1 =
        (finalize (.dict (tableEntries c.survey table)) c).1 := by
  have htable : commonTable (c.posed events emitted standalone table) =
      tableEntries c.survey table := by
    unfold commonTable posed
    rw [hl]
    rfl
  rw [htable]
  obtain ⟨events', hrun⟩ := finalize_posed (.dict (tableEntries c.survey table)) c events emitted
    standalone table
  rw [hrun]

/-- **The order of emissions.** If no emission of roots with documents of their own fails for an
    annotation that is no list, then in all orders every root comes to the same, and so do the
    definitions that the documents have in common. -/
theorem emitEach_perm (hoverride : conv.override = none) (hl : c.linkage = some l)
    {roots : List NodeId} (hnodup : roots.Nodup) (hnodes : ∀ r ∈ roots, (c.store.node? r).isSome)
    (hid : ∀ r ∈ roots, (documentId c.store c.linkage r).isTruthy = true)
    (hlists : ∀ p ∈ (conv.emitEach policy roots c).1, p.2 ≠ .error .missingChild) :
    ∃ (outcome : NodeId → Except Failure Json) (common : Except Failure Json),
      ∀ order, order.Perm roots →
        (conv.emitEach policy order c).1 = order.map (fun r => (r, outcome r)) ∧
        (finalize (.dict (commonTable (conv.emitEach policy order c).2))
          (conv.emitEach policy order c).2).1 = common := by
  cases roots with
  | nil =>
    refine ⟨fun _ => .error .misuse, (finalize (.dict (commonTable c)) c).1, fun order horder => ?_⟩
    obtain rfl := List.perm_nil.mp horder
    exact ⟨rfl, rfl⟩
  | cons first rest =>
    -- what hoisting and settling come to, from whichever root
    rcases hstage : (conv.emission policy first).stage c with ⟨x, b⟩
    have hgap : ∀ r ∈ first :: rest, r ≠ .gap := by
      rintro r hr rfl
      exact absurd (hnodes _ hr) nofun
    have hregistered : ∀ order, order.Perm (first :: rest) →
        Registered conv policy c l x b order := fun order horder =>
      { override := hoverride
        linkage := hl
        nodes := fun r hr => hnodes r (horder.mem_iff.mp hr)
        stage := fun r hr => by
          have hr' := horder.mem_iff.mp hr
          rw [← hstage]
          exact stage_emission (hgap r hr') (hgap first (List.mem_cons_self ..)) hl (hid r hr')
            (hid first (List.mem_cons_self ..)) }
    have hx := (hregistered _ (List.Perm.refl _)).ne_missingChild
      (fun r _ => Iff.rfl) hnodup c.store.events (by rw [posed_self c hl]; exact hlists)
    let behind := if ∀ r ∈ first :: rest, (conv.emission policy r).refusal? c ≠ none then
      (c, l.table) else (b, listing x b l.table)
    refine ⟨conv.outcome policy c x b,
      (finalize (.dict (tableEntries behind.1.survey behind.2)) behind.1).1, fun order horder => ?_⟩
    have hall : (∀ r ∈ order, (conv.emission policy r).refusal? c ≠ none) ↔
        ∀ r ∈ first :: rest, (conv.emission policy r).refusal? c ≠ none :=
      forall_congr' fun r => imp_congr_left horder.mem_iff
    obtain ⟨events', emitted', hrun⟩ := (hregistered order horder).emitEach_eq
      (horder.nodup_iff.mpr hnodup) (hx.imp_left hall.mpr) (fun r _ => Iff.rfl) c.store.events
    rw [posed_self c hl] at hrun
    rw [hrun]
    refine ⟨rfl, ?_⟩
    dsimp only
    have hb : b.linkage = some l :=
      (hregistered _ (List.Perm.refl _)).adds.linkage.trans hl
    simp only [hall, behind]
    split
    · exact finalize_commonTable hl ..
    · exact finalize_commonTable hb ..

/-- Two objects that share a text; the objects have ids. -/
def sharedText : Store where
  nodes := [{ kind := .string }, { kind := .object, shape := some [("a", .node 0)] },
    { kind := .object, shape := some [("b", .node 0)] }]
  catalogs := [("global",
    { entries := [(.node 1, [(.str "id", .str "A")]), (.node 2, [(.str "id", .str "B")])]
      ids := [(.str "A", .node 1), (.str "B", .node 2)] })]

/-- The text is a definition in common, whichever object comes first. -/
theorem emitEach_perm_sharedText :
    let processed := (({} : Converter).processAll [.node 1, .node 2] (.start sharedText)).2
    let c := { processed with linkage := some { catalog := "global", addressing := .surround "" "" } }
    let policy : EmissionSettings := { reused := .refer }
    let run := ({} : Converter).emitEach policy [.node 1, .node 2] c
    let back := ({} : Converter).emitEach policy [.node 2, .node 1] c
    (∀ p ∈ run.1, p.2.isOk) ∧ commonTable run.2 ≠ [] ∧ back.1 = run.1.reverse ∧
    (finalize (.dict (commonTable back.2)) back.2).1 =
      (finalize (.dict (commonTable run.2)) run.2).1 := by
  intro processed c policy run back
  have hlists : ∀ p ∈ run.1, p.2 ≠ .error .missingChild := by decide +kernel
  obtain ⟨outcome, common, hsame⟩ := @emitEach_perm {} policy c _ rfl rfl [.node 1, .node 2]
    (by decide) (by decide +kernel) (by decide +kernel) hlists
  obtain ⟨hrun, hcommon⟩ := hsame [.node 1, .node 2] (List.Perm.refl _)
  obtain ⟨hback, hcommon'⟩ := hsame [.node 2, .node 1] (List.Perm.swap ..)
  refine ⟨by decide +kernel, by decide +kernel, ?_, hcommon'.trans hcommon.symm⟩
  rw [show back.1 = _ from hback, show run.1 = _ from hrun]
  rfl

/-- A text and a read-only text, both with an id, and with an `allOf` that is no list. -/
def misfitText : Store where
  nodes := [{ kind := .string }, { kind := .readonly, inner := .node 0 }]
  catalogs := [("global",
    { entries := [(.node 0, [(.str "id", .str "S")]),
        (.node 1, [(.str "id", .str "W"), (.str "allOf", .str "x")])]
      ids := [(.str "S", .node 0), (.str "W", .node 1)] })]

/-- An annotation that is no list fails the emission that comes first, and only that one. -/
theorem emitEach_misfitText :
    let conv : Converter := { guide := { settings := { target := .draft7 } } }
    let processed := (conv.processAll [.node 0, .node 1] (.start misfitText)).2
    let c := { processed with linkage := some { catalog := "global", addressing := .surround "" "" } }
    let dialect : String × Json := ("$schema", .str "http://json-schema.org/draft-07/schema#")
    (conv.emitEach {} [.node 0, .node 1] c).1 =
      [(.node 0, .error .missingChild), (.node 1, .ok (.obj [("readOnly", .bool true),
        ("id", .str "W"), ("allOf", .str "x"), dialect]))] ∧
    (conv.emitEach {} [.node 1, .node 0] c).1 =
      [(.node 1, .error .missingChild), (.node 0, .ok (.obj [("type", .str "string"),
        ("id", .str "S"), dialect]))] := by
  decide +kernel

end Converter

end SchemaGraph
