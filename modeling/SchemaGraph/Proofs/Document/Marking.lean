import SchemaGraph.Proofs.Document.Alone
import SchemaGraph.Proofs.Document.Refusals
import SchemaGraph.Proofs.Survey.Treks

namespace SchemaGraph

open SchemaGraph.Action Conversion

/-!
# Marks in a session

Whatever calls are made in a session, and whatever comes of each of them, the visits go along an
itinerary: one trek for each call, over the nodes that were not visited yet.  The mark of a node is
the path on which the itinerary has last met it below itself; emissions neither give marks nor take
them away, and one that is refused for a cycle names the mark of a node.

* `Emission.document_grows`             — emissions leave the graph and its answers alone
* `Converter.Itinerary`                 — the arrivals of calls, one call after the other
* `Converter.Desk.runAll_travels`        — calls go along an itinerary
* `Converter.Desk.marks_latest`         — marks are the paths of the last meetings
* `Converter.Desk.marks_latest_forgets` — the first meeting is forgotten
-/

namespace Conversion

/-- The marks in the order of visits. -/
theorem cycles_eq (c : Conversion) (hnodup : c.survey.order.Nodup) :
    c.survey.cycles = c.survey.order.filterMap fun n => (c.mark? n).map (n, ·) := by
  unfold Survey.cycles Survey.order
  rw [List.filterMap_map]
  refine List.filterMap_congr fun p hp => ?_
  show _ = ((c.survey.visit? p.1).bind (·.cycle)).map (p.1, ·)
  rw [visit?_of_mem hnodup hp]
  rfl

end Conversion

namespace Emission

/-- What is refused for a cycle names the mark of the first node, in the order of visits, that has a
    mark and no address of its own. -/
theorem cycle_of_refusal {e : Emission} {c : Conversion} {path : Path}
    (h : e.refusal? c = some (.cycle path)) :
    (c.survey.cycles.find? fun p => !e.hasOwnAddress c.store c.linkage p.1).map (·.2) = some path := by
  rw [← rejectedCycle?_eq]
  unfold refusal? at h
  split at h
  · cases h
  · split at h
    · cases h
    · split at h
      · cases h
      · split at h
        · obtain ⟨p, hp, hpath⟩ := Option.map_eq_some_iff.mp h
          cases hpath
          exact hp
        · cases h

/-- Whatever comes of an emission, it leaves the graph and what lazy nodes have answered alone. -/
theorem document_grows {e : Emission} (c : Conversion) :
    Store.Grows c.store (e.document c).2.store := by
  let R : Conversion → Conversion → Prop := fun c d => Store.Grows c.store d.store
  have : Std.Refl R := ⟨fun c => .refl c.store⟩
  have : Trans R R R := ⟨fun h₁ h₂ => Store.Grows.trans h₁ h₂⟩
  have hfail : ∀ {α : Type} (f : Failure), Within R (fail f : Action Conversion α) :=
    fun f c => (fail_persists f c).store
  -- Only failures and events touch the store besides hoisting and settling, which grow it.
  have hcompose : Within R e.compose := by
    refine .bind (.bind within_get fun _ c => .refl c.store) fun _ => .bind (fun c => ?_) fun _ => ?_
    · exact (hoist_hoists c).state_of_and.rewrites.grows
    · refine .bind (fun c => (settleVisits_persists c).store) fun _ => .bind within_get fun c => ?_
      refine .bind (fun c => .refl c.store) fun _ => ?_
      split
      · exact hfail _
      · exact within_pure _
  have hdocument : Within R e.document := by
    refine .bind within_get fun c => ?_
    split
    · exact hfail _
    · refine .bind hcompose fun entries => .bind (.bind within_get fun c => ?_) fun json => ?_
      · split
        · exact within_pure _
        · exact hfail _
      · refine .bind (.bind within_get fun c d => ?_) fun _ => within_pure _
        exact grows_of_events rfl
  exact hdocument c

end Emission

namespace Converter

variable {conv : Converter}

namespace Call

/-- The nodes that a call is made below. -/
def above : Call → List NodeId
  | .visit _ ancestors _ => ancestors
  | _ => []

/-- The node that a call visits, with the path to it. -/
def ahead : Call → List (NodeId × Path)
  | .process root => [(root, [])]
  | .visit n _ path => [(n, path)]
  | .emit .. => []

end Call

/-- The arrivals of calls that were made one after the other, with whether each of them has
    returned. -/
inductive Itinerary (ways : NodeId → Path → List (NodeId × Path)) :
    List NodeId → List (Call × Bool) → List Arrival → List NodeId → Prop
  | done (seen : List NodeId) : Itinerary ways seen [] [] seen
  | call {seen mid out : List NodeId} {call : Call} {whole : Bool} {rest : List (Call × Bool)}
      {as bs : List Arrival} (h : Trek ways call.above seen call.ahead as mid whole)
      (hrest : Itinerary ways mid rest bs out) :
      Itinerary ways seen ((call, whole) :: rest) (as ++ bs) out

namespace Desk

variable {desk : Desk} {final : Store}

/-- What fails when it is mapped has failed. -/
theorem error_of_map {α β : Type} {f : α → β} {r : Except Failure α} {g : Failure}
    (h : r.map f = .error g) : r = .error g := by
  cases r with
  | ok x => cases h
  | error e => exact congrArg Except.error (Except.error.inj h)

/-- What is mapped returns exactly if it has returned. -/
theorem isOk_map {α β : Type} (f : α → β) (r : Except Failure α) : (r.map f).isOk = r.isOk := by
  cases r <;> rfl

/-- Emissions leave marks alone. -/
theorem mark?_of_outlines {c d : Conversion} (h : Outlines c d) (n : NodeId) :
    d.mark? n = c.mark? n := by
  have hcycle := h.cycle n
  unfold mark?
  cases hd : d.survey.visit? n <;> cases hc : c.survey.visit? n <;> rw [hd, hc] at hcycle
  · cases hcycle
  · cases hcycle
  · exact Option.some.inj hcycle

/-- Whatever comes of a call, the graph has grown by it. -/
theorem run_keeps (conv : Converter) (call : Call) (desk : Desk) :
    Store.Keeps desk.conversion.store (call.run conv desk).2.conversion.store := by
  cases call with
  | process root => exact (process_within conv root desk.conversion).store
  | visit n ancestors path => exact (visit_within n ancestors path desk.conversion).store
  | emit external policy root =>
    intro hs
    refine ⟨Emission.document_grows (desk.load external), ?_⟩
    exact (Emission.document_outlines (desk.load external)).closed hs

/-- **One call.** A call is a trek, whatever comes of it. -/
theorem run_travels (call : Call) (hs : desk.conversion.store.Closed)
    (hfinal : Store.Grows (call.run conv desk).2.conversion.store final) :
    ∃ arrivals, Trek (final.ways conv.guide.settings) call.above desk.conversion.survey.order
        call.ahead arrivals (call.run conv desk).2.conversion.survey.order
        (call.run conv desk).1.isOk ∧
      Marks arrivals desk.conversion (call.run conv desk).2.conversion := by
  cases call with
  | process root =>
    obtain ⟨arrivals, htrek, hmarks⟩ := process_travels hs hfinal
    exact ⟨arrivals, (isOk_map _ _).symm ▸ htrek, hmarks⟩
  | visit n ancestors path =>
    obtain ⟨arrivals, htrek, hmarks⟩ := (visit_travels conv.guide final ancestors).travels hs hfinal
    exact ⟨arrivals, (isOk_map _ _).symm ▸ htrek, hmarks⟩
  | emit external policy root =>
    have houtlines : Outlines (desk.load external) _ :=
      Emission.document_outlines (e := conv.emission policy root) (desk.load external)
    have htravels : Travels (final.ways conv.guide.settings) [] []
        (conv.emission policy root).document (desk.load external) :=
      .quiet houtlines.order (mark?_of_outlines houtlines)
    obtain ⟨arrivals, htrek, hmarks⟩ := htravels
    exact ⟨arrivals, (isOk_map _ _).symm ▸ htrek, hmarks⟩

/-- Whatever comes of calls, the graph has grown by them. -/
theorem runAll_keeps (conv : Converter) (calls : List Call) (desk : Desk) :
    Store.Keeps desk.conversion.store (runAll conv calls desk).2.conversion.store := by
  induction calls generalizing desk with
  | nil => exact .refl _
  | cons call rest ih =>
    rw [runAll_cons]
    exact (run_keeps conv call desk).trans (ih (call.run conv desk).2)

/-- **Runs.** Calls go along an itinerary, whatever comes of each of them; and nodes that were met
    below themselves have got new marks. -/
theorem runAll_travels (calls : List Call) (hs : desk.conversion.store.Closed)
    (hfinal : Store.Grows (runAll conv calls desk).2.conversion.store final) :
    ∃ arrivals, Itinerary (final.ways conv.guide.settings) desk.conversion.survey.order
        (calls.zip ((runAll conv calls desk).1.map (·.isOk))) arrivals
        (runAll conv calls desk).2.conversion.survey.order ∧
      Marks arrivals desk.conversion (runAll conv calls desk).2.conversion := by
  induction calls generalizing desk with
  | nil => exact ⟨[], .done _, fun _ => rfl⟩
  | cons call rest ih =>
    rw [runAll_cons] at hfinal ⊢
    have hclosed := (run_keeps conv call desk hs).2
    have hgrows := (runAll_keeps conv rest (call.run conv desk).2 hclosed).1.trans hfinal
    obtain ⟨as, htrek, hmarks⟩ := run_travels call hs hgrows
    obtain ⟨bs, hrest, hmarks'⟩ := ih hclosed hfinal
    exact ⟨as ++ bs, .call htrek hrest, hmarks.append hmarks'⟩

/-- Whatever comes of calls, no node is visited twice. -/
theorem runAll_nodup (conv : Converter) (calls : List Call) (desk : Desk)
    (h : desk.conversion.survey.order.Nodup) :
    (runAll conv calls desk).2.conversion.survey.order.Nodup := by
  induction calls generalizing desk with
  | nil => exact h
  | cons call rest ih =>
    rw [runAll_cons]
    refine ih (call.run conv desk).2 ?_
    cases call with
    | process root => exact (process_within conv root desk.conversion).nodup h
    | visit n ancestors path => exact (visit_within n ancestors path desk.conversion).nodup h
    | emit external policy root =>
      have houtlines : Outlines (desk.load external) _ :=
        Emission.document_outlines (e := conv.emission policy root) (desk.load external)
      exact houtlines.order.symm ▸ h

/-- **Marks are the last ones.** Behind any calls that are made in a session, whatever comes of each
    of them, the visits have gone along an itinerary over the graph, and

    * a node carries the path on which the itinerary has last met it below itself, and no mark if that
      never happened; so every such meeting replaces the mark of the one before, and nothing else
      touches it;
    * an emission that fails for a cycle names the mark of the first node, in the order of visits, that
      has a mark and no address of its own. -/
theorem marks_latest (conv : Converter) {store : Store} (hs : store.Closed)
    (externals : List Linkage) (calls : List Call)
    (hoverride : ∀ o, conv.override = some o → ∀ s n body path,
      (o s n body).2 ≠ some (.cycle path)) :
    let desk : Desk := { conversion := start store, externals }
    let behind := (runAll conv calls desk).2
    let outcomes := calls.zip ((runAll conv calls desk).1.map (·.isOk))
    ∃ arrivals, Itinerary (behind.conversion.store.ways conv.guide.settings) [] outcomes arrivals
        behind.conversion.survey.order ∧
      (∀ n, behind.conversion.mark? n = lastLoop? arrivals n) ∧
      ∀ external policy root path,
        ((Call.emit external policy root).run conv behind).1 = .error (.cycle path) →
        let addressed := (conv.emission policy root).hasOwnAddress behind.conversion.store
          (behind.load external).linkage
        let marked := behind.conversion.survey.order.filterMap fun n =>
          (lastLoop? arrivals n).map (n, ·)
        (marked.find? fun p => !addressed p.1).map (·.2) = some path := by
  intro desk behind outcomes
  have hgrown : Store.Grows (runAll conv calls desk).2.conversion.store behind.conversion.store :=
    .refl _
  -- All calls travel over the graph as it is in the end.
  obtain ⟨arrivals, hitinerary, hmarks⟩ := runAll_travels calls (start_closed hs) hgrown
  have hmark : ∀ n, behind.conversion.mark? n = lastLoop? arrivals n := by
    intro n
    rw [hmarks n, show desk.conversion.mark? n = none from rfl, Option.or_none]
  refine ⟨arrivals, hitinerary, hmark, fun external policy root path herror => ?_⟩
  intro addressed marked
  have hrefusal : (conv.emission policy root).refusal? (behind.load external) =
      some (.cycle path) := by
    rcases Emission.document_raises (Prod.ext (error_of_map herror) rfl) with hrefusal | ⟨-, hails⟩
    · exact hrefusal
    · -- nothing else fails with a cycle
      cases hails with
      | override ho hstop => exact absurd hstop (hoverride _ ho _ _ _ _)
  -- A refusal lists the marks in the order of visits, and takes the first one without an address.
  have hcycles : behind.conversion.survey.cycles = marked := by
    rw [cycles_eq _ (runAll_nodup conv calls desk List.nodup_nil)]
    simp only [hmark, marked, behind]
  rw [← hcycles]
  exact Emission.cycle_of_refusal hrefusal

/-- A list of objects, from which two lazy nodes lead back to the object. -/
def twoWaysBack : Store where
  nodes := [{ kind := .array, element := .node 1 },
    { kind := .object, shape := some [("p", .node 2), ("q", .node 3)] },
    { kind := .lazy, getter := some 0 }, { kind := .lazy, getter := some 1 }]
  getters := [{ owner := .node 2, source := .named "a" }, { owner := .node 3, source := .named "a" }]
  names := [("a", .node 1)]

/-- No child of the two ways back is missing. -/
theorem twoWaysBack_closed : twoWaysBack.Closed :=
  .of_forall (by decide) (by decide)
    (List.forall_mem_cons.mpr ⟨trivial, List.forall_mem_singleton.mpr trivial⟩)

/-- The list is visited, its document refused, and the list visited again. -/
def visitsAndRefusal : List Call :=
  [.process (.node 0), .emit none { cycles := .reject } (.node 0), .process (.node 0)]

/-- The mark of the object is the path of the second way back to it. -/
theorem marks_latest_twoWaysBack :
    ∃ arrivals, Itinerary
        ((runAll {} visitsAndRefusal { conversion := start twoWaysBack }).2.conversion.store.ways
          ({} : Converter).guide.settings) []
        (visitsAndRefusal.zip
          ((runAll {} visitsAndRefusal { conversion := start twoWaysBack }).1.map (·.isOk)))
        arrivals
        (runAll {} visitsAndRefusal { conversion := start twoWaysBack }).2.conversion.survey.order ∧
      lastLoop? arrivals (.node 1) = some [.name "items", .name "properties", .name "q"] := by
  obtain ⟨arrivals, hitinerary, hmarks, -⟩ :=
    marks_latest {} twoWaysBack_closed [] visitsAndRefusal nofun
  refine ⟨arrivals, hitinerary, (hmarks (.node 1)).symm.trans ?_⟩
  decide +kernel

/-- The object is met below itself twice, first by the property `p`; its mark and the failure of the
    emission name the property `q`. -/
theorem marks_latest_forgets :
    let first : Path := [.name "items", .name "properties", .name "p"]
    let second : Path := [.name "items", .name "properties", .name "q"]
    let desk := (runAll {} [.process (.node 0)] { conversion := start twoWaysBack }).2
    (desk.conversion.store.events.filter fun e => e.name = "cycle_detected") =
      [cycleEvent first, cycleEvent second] ∧
    desk.conversion.mark? (.node 1) = some second ∧
    ((Call.emit none { cycles := .reject } (.node 0)).run {} desk).1 = .error (.cycle second) ∧
    first ≠ second := by
  refine ⟨?_, ?_, ?_, ?_⟩ <;> decide +kernel

end Desk

end Converter

end SchemaGraph
