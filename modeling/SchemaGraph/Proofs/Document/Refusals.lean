import SchemaGraph.Proofs.Document.Failing
import SchemaGraph.Proofs.Document.Lockstep
import SchemaGraph.Proofs.Document.Session

namespace SchemaGraph

open SchemaGraph.Action Conversion

/-!
# Refused emissions

An emission is refused before it changes anything.  What remains of it is an event at most, and as
nothing looks at events, all calls behind it come to what they would have come to without it.

* `Converter.Call`, `Converter.Desk` — the calls of a session, and what they work on
* `Converter.Desk.respects_runAll`   — calls do not look at events
* `Converter.Desk.refused_emission`  — refused emissions change nothing
-/

/-- An override that does not look at events. -/
def Override.Deaf (o : Override) : Prop :=
  ∀ (s : Store) events n body, o { s with events } n body = o s n body

/-- Rules look at the graph and its names alone. -/
theorem Override.deaf_ofRules (rules : List Override.Rule) : (Override.ofRules rules).Deaf := by
  intro s events n body
  have hholds : ∀ (c : Override.Condition) fragment,
      c.holds { s with events } n fragment = c.holds s n fragment := by
    intro c fragment
    cases n <;> rfl
  have hfails : ∀ (c : Override.Condition) fragment,
      c.fails { s with events } n fragment = c.fails s n fragment := by
    intro c fragment
    unfold Override.Condition.fails
    rw [hholds]
  induction rules generalizing body with
  | nil => rfl
  | cons rule rest ih => simp only [Override.ofRules, hholds, hfails, ih]

namespace Conversion

variable {α : Type}

/-- What the store does without a look at events, a conversion does so too. -/
theorem respects_onStore {a : Action Store α} (h : Respects Store.Echoes a) :
    Respects Echoes (onStore a) := by
  intro c d hcd
  obtain ⟨hresult, hstore⟩ := h _ _ hcd.store
  obtain ⟨events, rfl⟩ := hcd.exists_eq
  exact ⟨hresult, .of_store hstore c⟩

/-- An action that reads the conversion respects echoes if events make no difference to what it goes
    on with. -/
theorem respects_look {f : Conversion → Action Conversion α}
    (hlook : ∀ (c : Conversion) events, f { c with store := { c.store with events } } = f c)
    (hf : ∀ c, Respects Echoes (f c)) : Respects Echoes (get >>= f) := by
  refine respects_read (fun {c d} hcd => ?_) hf
  obtain ⟨events, rfl⟩ := hcd.exists_eq
  exact (hlook c events).symm

/-- A document does not show events. -/
theorem respects_finalize (v : Value) : Respects Echoes (finalize v) := by
  refine respects_look (fun c events => rfl) fun c => ?_
  split
  · exact respects_pure _
  · exact Emission.lockstep_echoes.fail _

/-! ### Descents -/

/-- One step does not look at events, if the visits it makes do not. -/
theorem respects_perform (side : Side) {visit : NodeId → Path → Action Conversion Unit}
    (hvisit : ∀ n path, Respects Echoes (visit n path)) (n : NodeId) (step : Step) :
    Respects Echoes (perform side visit n step) := by
  have hl := Emission.lockstep_echoes
  cases step with
  | write key value => exact hl.onVisit n _
  | merge entries => exact hl.onVisit n _
  | visit child path => exact hvisit child path
  | property name child => exact hl.onVisit n _
  | require shape =>
    exact (respects_onStore (Store.respects_requiredNames side shape)).bind fun _ => hl.onVisit n _
  | inherit child path => exact (hvisit child path).bind fun _ => hl.onVisit n _
  | inheritResolved path =>
    refine (respects_onStore (Store.respects_resolve n)).bind fun answer => ?_
    cases answer with
    | node child => exact (hvisit child path).bind fun _ => hl.onVisit n _
    | value v => exact hl.fail _
  | inheritSource child path =>
    exact (hl.onVisit n _).bind fun _ => (hvisit child path).bind fun _ => hl.onVisit child _
  | prefault v => exact hl.onVisit n _
  | fail f => exact hl.fail f

/-- Nor do many steps: induction on the steps. -/
theorem respects_performAll (side : Side) {visit : NodeId → Path → Action Conversion Unit}
    (hvisit : ∀ n path, Respects Echoes (visit n path)) (n : NodeId) (steps : List Step) :
    Respects Echoes (performAll side visit n steps) := by
  induction steps with
  | nil => exact respects_pure _
  | cons step rest ih => exact (respects_perform side hvisit n step).bind fun _ => ih

/-- Lowering a node does not look at events, if the visits it makes do not. -/
theorem respects_lower (guide : Guide) {visit : NodeId → Path → Action Conversion Unit}
    (hvisit : ∀ n path, Respects Echoes (visit n path)) (n : NodeId) (path : Path) :
    Respects Echoes (lower guide visit n path) := by
  have hl := Emission.lockstep_echoes
  refine (respects_onStore (Store.respects_fetch n)).bind fun node => ?_
  refine respects_look (fun c events => ?_) fun c => ?_
  · -- the kind of a child is looked up in the graph
    have hnode : ({ c.store with events } : Store).node? node.catchall
        = c.store.node? node.catchall := by
      cases node.catchall <;> rfl
    dsimp only
    rw [hnode]
  refine (respects_performAll _ hvisit n _).bind fun _ => Respects.bind ?_ fun _ => ?_
  · refine respects_look (fun c events => rfl) fun c => ?_
    split
    · exact hl.onVisit n _
    · exact respects_pure _
  · split
    · exact hl.onVisit n _
    · exact respects_pure _

/-- Entering a visit does not look at events. -/
theorem respects_enter (n : NodeId) : Respects Echoes (onSurvey fun s => s.enter n) := by
  intro c d hcd
  obtain ⟨events, rfl⟩ := hcd.exists_eq
  exact ⟨rfl, rfl⟩

/-- Arriving at a node once more does not look at events. -/
theorem respects_revisit (ancestors : List NodeId) (n : NodeId) (path : Path) :
    Respects Echoes (revisit ancestors n path) := by
  have hl := Emission.lockstep_echoes
  refine (hl.onVisit n _).bind fun _ => ?_
  split
  · exact (hl.onVisit n _).bind fun _ => hl.log _
  · exact respects_pure _

/-- Arriving at a node does not look at events: induction on the depth. -/
theorem respects_arrive (guide : Guide) (depth : Nat) (ancestors : List NodeId) (n : NodeId)
    (path : Path) : Respects Echoes (arrive guide depth ancestors n path) := by
  induction depth generalizing ancestors n path with
  | zero =>
    unfold arrive
    refine respects_look (fun c events => rfl) fun c => ?_
    split
    · exact respects_revisit ancestors n path
    · exact (respects_enter n).bind fun _ => Emission.lockstep_echoes.fail _
  | succ depth ih =>
    unfold arrive
    refine respects_look (fun c events => rfl) fun c => ?_
    split
    · exact respects_revisit ancestors n path
    · refine (respects_enter n).bind fun _ => ?_
      exact respects_lower guide (fun m path => ih (n :: ancestors) m path) n path

/-- Visits do not look at events. -/
theorem respects_visit (guide : Guide) (n : NodeId) (ancestors : List NodeId) (path : Path) :
    Respects Echoes (visit guide n ancestors path) :=
  respects_look (fun _ _ => rfl) fun _ => respects_arrive guide _ ancestors n path

end Conversion

namespace Emission

variable {e : Emission}

/-- Appending to a list of annotations does not look at events. -/
theorem respects_appendShared (number : Nat) (target : NodeId) :
    Respects Echoes (appendShared number target) := by
  refine respects_look (fun c events => rfl) fun c => ?_
  exact respects_onStore (Store.respects_change fun s events => ⟨events, rfl⟩)

/-- Showing a node to a deaf override does not look at events. -/
theorem respects_applyOverride {o : Override} (ho : o.Deaf) (n : NodeId) :
    Respects Echoes (applyOverride o n) := by
  refine (Emission.lockstep_echoes.visitOf n).bind fun v => ?_
  refine Respects.bind (respects_modify fun {c d} hcd => ?_) fun _ => ?_
  · obtain ⟨events, rfl⟩ := hcd.exists_eq
    rfl
  refine respects_look (fun c events => ?_) fun c => ?_
  · dsimp only
    rw [ho]
  · dsimp only
    refine (Emission.lockstep_echoes.onVisit n _).bind fun _ => ?_
    split
    · exact Emission.lockstep_echoes.fail _
    · exact respects_pure _

/-- Emissions do not look at events. -/
theorem respects_document (ho : ∀ o, e.override = some o → o.Deaf) :
    Respects Echoes e.document := by
  refine Emission.lockstep_echoes.document (fun hcd => ?_) (fun f hcd => ?_) (fun n alone hcd => ?_) ?_
    respects_finalize
  · exact ⟨hcd.linkage, by rw [hcd.survey], by rw [hcd.survey]⟩
  · obtain ⟨events, rfl⟩ := hcd.exists_eq
    rfl
  · obtain ⟨events, rfl⟩ := hcd.exists_eq
    rfl
  · exact Emission.lockstep_echoes.settleVisits respects_appendShared fun o h n =>
      respects_applyOverride (ho o h) n

end Emission

namespace Converter

/-- A call in a session. -/
inductive Call where
  /-- Visits a root. -/
  | process (root : NodeId)
  /-- Visits a node as if it was met below others, on a path. -/
  | visit (n : NodeId) (ancestors : List NodeId) (path : Path)
  /-- Emits the document of a root; with a number, the definitions that documents have in common
      are listed in the table of that number. -/
  | emit (external : Option Nat) (policy : EmissionSettings) (root : NodeId)

/-- What the calls of a session work on: a conversion, and tables of common definitions with the
    addresses that go with them. -/
structure Desk where
  conversion : Conversion
  externals : List Linkage := []

namespace Desk

/-- The conversion, with the addresses and the table of a number. -/
def load (desk : Desk) (external : Option Nat) : Conversion :=
  { desk.conversion with linkage := external.bind fun k => desk.externals[k]? }

/-- A desk with the conversion that an emission has left; its table goes back to its place. -/
def keep (desk : Desk) (external : Option Nat) (c : Conversion) : Desk where
  conversion := { c with linkage := desk.conversion.linkage }
  externals :=
    match external, c.linkage with
    | some k, some l => desk.externals.set k l
    | _, _ => desk.externals

end Desk

/-- A call, which returns a document if it emits one. -/
def Call.run (conv : Converter) : Call → Action Desk (Option Json)
  | .process root => fun desk =>
    let (result, c) := conv.process root desk.conversion
    (result.map fun _ => none, { desk with conversion := c })
  | .visit n ancestors path => fun desk =>
    let (result, c) := Conversion.visit conv.guide n ancestors path desk.conversion
    (result.map fun _ => none, { desk with conversion := c })
  | .emit external policy root => fun desk =>
    let (result, c) := conv.emit policy root (desk.load external)
    (result.map some, desk.keep external c)

/-- What returns when it is mapped has returned. -/
theorem isOk_of_map {α β : Type} {f : α → β} {r : Except Failure α}
    (h : (r.map f).isOk = true) : r.isOk = true := by
  cases r with
  | ok x => rfl
  | error f => cases h

namespace Desk

variable {conv : Converter} {desk desk' : Desk}

/-- Calls made in order, each whatever the ones before it came to; with what they came to. -/
def runAll (conv : Converter) : List Call → Desk → List (Except Failure (Option Json)) × Desk
  | [], desk => ([], desk)
  | call :: rest, desk =>
    let (result, next) := call.run conv desk
    let (results, last) := runAll conv rest next
    (result :: results, last)

/-- The first call is run, and the rest behind it. -/
theorem runAll_cons (call : Call) (rest : List Call) :
    runAll conv (call :: rest) desk =
      ((call.run conv desk).1 :: (runAll conv rest (call.run conv desk).2).1,
        (runAll conv rest (call.run conv desk).2).2) := rfl

/-- The tables are the same, and the conversions differ in their events alone. -/
structure Echoes (desk desk' : Desk) : Prop where
  conversion : desk.conversion.Echoes desk'.conversion
  externals : desk'.externals = desk.externals

/-- A table of common definitions is loaded alike. -/
theorem Echoes.load (h : Echoes desk desk') (external : Option Nat) :
    (desk.load external).Echoes (desk'.load external) := by
  obtain ⟨events, hconversion⟩ := h.conversion.exists_eq
  unfold Desk.load
  rw [hconversion, h.externals]
  rfl

/-- A table of common definitions is kept alike. -/
theorem Echoes.keep {c d : Conversion} (h : Echoes desk desk') (external : Option Nat)
    (hcd : c.Echoes d) : (desk.keep external c).Echoes (desk'.keep external d) := by
  obtain ⟨events, rfl⟩ := hcd.exists_eq
  refine ⟨?_, ?_⟩
  · unfold Desk.keep
    rw [h.conversion.linkage]
    rfl
  · unfold Desk.keep
    rw [h.externals]

/-- What an emission leaves that changes nothing but events. -/
theorem keep_load (external : Option Nat) {d : Conversion} (h : (desk.load external).Echoes d) :
    desk.Echoes (desk.keep external d) := by
  obtain ⟨events, rfl⟩ := h.exists_eq
  refine ⟨rfl, ?_⟩
  unfold Desk.keep Desk.load
  cases external with
  | none => rfl
  | some k =>
    dsimp only [Option.bind_some]
    cases hl : desk.externals[k]? with
    | none => rfl
    | some l =>
      obtain ⟨hk, rfl⟩ := List.getElem?_eq_some_iff.mp hl
      exact List.set_getElem_self hk

/-- A call does not look at events. -/
theorem respects_run (ho : ∀ o, conv.override = some o → o.Deaf) (call : Call) :
    Respects Echoes (call.run conv) := by
  intro desk desk' h
  cases call with
  | process root =>
    have hprocess : Respects Conversion.Echoes (conv.process root) := by
      refine (respects_visit conv.guide root [] []).bind fun _ => ?_
      refine Conversion.respects_look (fun c events => ?_) fun c => Emission.lockstep_echoes.log _
      cases root <;> rfl
    obtain ⟨hresult, hstate⟩ := hprocess _ _ h.conversion
    exact ⟨congrArg (Except.map fun _ => none) hresult, hstate, h.externals⟩
  | visit n ancestors path =>
    obtain ⟨hresult, hstate⟩ := respects_visit conv.guide n ancestors path _ _ h.conversion
    exact ⟨congrArg (Except.map fun _ => none) hresult, hstate, h.externals⟩
  | emit external policy root =>
    obtain ⟨hresult, hstate⟩ := Emission.respects_document (e := conv.emission policy root) ho
      _ _ (h.load external)
    exact ⟨congrArg (Except.map some) hresult, h.keep external hstate⟩

/-- Calls do not look at events. -/
theorem respects_runAll (ho : ∀ o, conv.override = some o → o.Deaf) (calls : List Call)
    (h : Echoes desk desk') :
    (runAll conv calls desk').1 = (runAll conv calls desk).1 ∧
      Echoes (runAll conv calls desk).2 (runAll conv calls desk').2 := by
  induction calls generalizing desk desk' with
  | nil => exact ⟨rfl, h⟩
  | cons call rest ih =>
    obtain ⟨hresult, hnext⟩ := respects_run ho call _ _ h
    obtain ⟨hresults, hlast⟩ := ih hnext
    rw [runAll_cons, runAll_cons]
    exact ⟨congrArg₂ List.cons hresult.symm hresults, hlast⟩

/-- **Refused emissions change nothing.** An emission fails with a report of the classes in which
    emissions are refused, and the failure is not one of the override.  Then it leaves all but events
    as it was, and calls made behind it come to what they come to without it; so does an emission of
    the same root under another policy. -/
theorem refused_emission (ho : ∀ o, conv.override = some o → o.Deaf) (desk : Desk)
    (external : Option Nat) (policy : EmissionSettings) (root : NodeId) {f : Failure}
    {report : Report} (hf : ((Call.emit external policy root).run conv desk).1 = .error f)
    (hreport : f.report? = some report)
    (hkind : report.kind ∈ [ReportKind.unprocessed, .reemission, .cycle])
    (hown : ∀ o, conv.override = some o → ∀ store n body, (o store n body).2 ≠ some f) :
    let behind := ((Call.emit external policy root).run conv desk).2
    desk.Echoes behind ∧
      (∀ calls, (runAll conv calls behind).1 = (runAll conv calls desk).1 ∧
        (runAll conv calls desk).2.Echoes (runAll conv calls behind).2) ∧
      ∀ policy', ((Call.emit external policy' root).run conv behind).1 =
        ((Call.emit external policy' root).run conv desk).1 := by
  intro behind
  -- The call fails as the emission does.
  have hdocument : ((conv.emission policy root).document (desk.load external)).1 = .error f := by
    cases hrun : ((conv.emission policy root).document (desk.load external)).1 with
    | ok json =>
      have hok : ((Call.emit external policy root).run conv desk).1 = .ok (some json) :=
        congrArg (Except.map some) hrun
      rw [hok] at hf
      cases hf
    | error g =>
      have herror : ((Call.emit external policy root).run conv desk).1 = .error g :=
        congrArg (Except.map some) hrun
      exact congrArg Except.error (Except.error.inj (herror.symm.trans hf))
  have hechoes : desk.Echoes behind := by
    rcases Emission.document_raises (Prod.ext hdocument rfl) with hrefusal | ⟨-, hails⟩
    · obtain ⟨d, hrun, hd⟩ := Emission.document_echoes hrefusal
      have hleft : ((conv.emission policy root).document (desk.load external)).2 = d :=
        congrArg (·.2) hrun
      exact keep_load external (hleft ▸ hd)
    · -- what else an emission fails with has another class, or none
      cases hails with
      | misuse => cases hreport
      | missingChild => cases hreport
      | notData reason =>
        cases hreport
        have hother : ReportKind.serialization ∉ [.unprocessed, .reemission, .cycle] := by decide
        exact absurd hkind hother
      | override hoverride hstop => exact absurd hstop (hown _ hoverride _ _ _)
  refine ⟨hechoes, fun calls => respects_runAll ho calls hechoes, fun policy' => ?_⟩
  exact (respects_run ho (.emit external policy' root) _ _ hechoes).1.symm

/-- The emission of the held pair from its first holder is refused for a cycle; that it may be
    referred to afterwards makes the document that it makes at once. -/
theorem refused_emission_heldPair :
    let conv : Converter :=
      { override := some (.ofRules [{ edits := [.set (.str "title") (.str "x")] }]) }
    let desk : Desk := { conversion := heldPairConverted (.node 2) }
    let behind := ((Call.emit none { cycles := .reject } (.node 2)).run conv desk).2
    desk.Echoes behind ∧ ((Call.emit none {} (.node 2)).run conv behind).1 =
      ((Call.emit none {} (.node 2)).run conv desk).1 := by
  intro conv desk behind
  have hdeaf : ∀ o, conv.override = some o → o.Deaf := by
    rintro o ho
    cases ho
    exact Override.deaf_ofRules _
  have hf : ((Call.emit none { cycles := .reject } (.node 2)).run conv desk).1 =
      .error (.cycle [.name "properties", .name "p", .name "properties", .name "q",
        .name "properties", .name "r"]) := by decide +kernel
  -- The override fails never, hence not with this cycle either.
  have hown : ∀ o, conv.override = some o → ∀ store n body, (o store n body).2 ≠
      some (.cycle [.name "properties", .name "p", .name "properties", .name "q",
        .name "properties", .name "r"]) := by
    rintro o ho store n body
    cases ho
    nofun
  obtain ⟨hechoes, -, hpolicy⟩ := refused_emission hdeaf desk none { cycles := .reject } (.node 2)
    hf rfl (by decide) hown
  exact ⟨hechoes, hpolicy {}⟩

/-- A text. -/
def text : Store where
  nodes := [{ kind := .string }]

/-- An override may fail with a cycle itself.  Then the root counts as emitted, and another attempt
    to emit it comes to something else. -/
theorem refused_emission_override :
    let conv : Converter :=
      { override := some (.ofRules [{ edits := [.raise (.because "CycleError" "x")] }]) }
    let desk : Desk := { conversion := (conv.process (.node 0) (.start text)).2 }
    let call := Call.emit none {} (.node 0)
    let behind := (call.run conv desk).2
    (∃ f report, (call.run conv desk).1 = .error f ∧ f.report? = some report ∧
      report.kind = .cycle) ∧
    ¬ desk.Echoes behind ∧ (call.run conv behind).1 ≠ (call.run conv desk).1 := by
  intro conv desk call behind
  refine ⟨?_, fun h => ?_, by decide +kernel⟩
  · refine ⟨.reported ⟨.cycle, .str (cycleMessage [.name "x"]), .null, .path [.name "x"]⟩, _, ?_,
      rfl, rfl⟩
    decide +kernel
  · have hemitted : behind.conversion.survey.emitted = desk.conversion.survey.emitted := by
      obtain ⟨events, hconversion⟩ := h.conversion.exists_eq
      rw [hconversion]
    revert hemitted
    decide +kernel

end Desk

end Converter

end SchemaGraph
