import SchemaGraph.Proofs.Document.Composing

namespace SchemaGraph

open SchemaGraph.Action Conversion

/-!
# How emissions fail

An emission that is not refused fails in few ways only: an id that cannot be a key or part of
an address, an annotation that asks for something besides but holds no list, a document that is
no data, and whatever the override fails with.  That a cycle is rejected is always a refusal.

* `Emission.Stalls`          — the failures of putting together a document
* `Emission.Ails`            — the failures of an emission that was not refused
* `Emission.document_raises` — an emission is refused, or fails in one of these ways
-/

/-- An action that fails raises its failure alone. -/
theorem Conversion.raises_fail {α : Type} {P : Failure → Prop} {f : Failure} (h : P f) :
    Raises P (fail f : Action Conversion α) := by
  intro c g c' hrun
  obtain ⟨d, hfail, -⟩ := run_fail α f c
  rw [hfail] at hrun
  obtain ⟨hf, -⟩ := Prod.mk.inj hrun
  rw [← Except.error.inj hf]
  exact h

/-- An action on the store raises the same within a conversion. -/
theorem Conversion.raises_onStore {α : Type} {P : Failure → Prop} {a : Action Store α}
    (h : Raises P a) : Raises P (onStore a) := by
  intro c f c' hrun
  unfold onStore at hrun
  rcases ha : a c.store with ⟨r, s⟩
  rw [ha] at hrun
  cases hrun
  exact h c.store f s ha

/-- Reading a visit raises nothing. -/
theorem Conversion.raises_visitOf (P : Failure → Prop) (n : NodeId) : Raises P (visitOf n) :=
  .bind raises_get fun _ => raises_pure _

/-- Changing a visit raises nothing. -/
theorem Conversion.raises_onVisit (P : Failure → Prop) (n : NodeId) (f : Visit → Visit) :
    Raises P (onVisit n f) := raises_modify _

/-- Noting an event raises nothing. -/
theorem Conversion.raises_log (P : Failure → Prop) (e : Event) : Raises P (log e) :=
  raises_onStore (raises_modify _)

namespace Emission

/-- The ways in which putting together a document fails. -/
inductive Stalls (e : Emission) : Failure → Prop
  | misuse : Stalls e .misuse
  | missingChild : Stalls e .missingChild
  | override {o : Override} {s : Store} {n : NodeId} {body : Entries} {f : Failure}
      (ho : e.override = some o) (h : (o s n body).2 = some f) : Stalls e f

/-- The ways in which an emission fails that was not refused. -/
inductive Ails (e : Emission) : Failure → Prop
  | misuse : Ails e .misuse
  | missingChild : Ails e .missingChild
  | notData (reason : NotData) : Ails e (.notData reason)
  | override {o : Override} {s : Store} {n : NodeId} {body : Entries} {f : Failure}
      (ho : e.override = some o) (h : (o s n body).2 = some f) : Ails e f

variable {e : Emission}

/-- What stalls a document makes the emission fail. -/
theorem Stalls.ails {f : Failure} (h : e.Stalls f) : e.Ails f := by
  cases h with
  | misuse => exact .misuse
  | missingChild => exact .missingChild
  | override ho hstop => exact .override ho hstop

/-- Choosing an id raises nothing. -/
theorem raises_chooseId (P : Failure → Prop) (first second : Value) (stem : String) :
    Raises P (chooseId first second stem) := by
  unfold chooseId
  split
  · exact raises_pure _
  · split
    · exact raises_pure _
    · exact .bind raises_get fun c => .bind (raises_modify _) fun _ => raises_pure _

/-- A reference fails only for an id that cannot be part of an address. -/
theorem referenceFor_raises (n : NodeId) (v : Visit) : Raises e.Stalls (e.referenceFor n v) := by
  refine .bind raises_get fun c => ?_
  dsimp only
  split
  · split
    · split
      · exact raises_pure _
      · -- only an id that is no text has no address
        rename_i f haddress
        unfold Addressing.address? at haddress
        split at haddress <;> cases haddress
        exact raises_fail .misuse
    · exact .bind (raises_chooseId _ _ _ _) fun id =>
        .bind (raises_onVisit _ _ _) fun _ => raises_pure _
  · split
    · exact raises_pure _
    · exact .bind (raises_chooseId _ _ _ _) fun id => raises_pure _

/-- A definition is made unless its reference stalls. -/
theorem extract_raises (n : NodeId) : Raises e.Stalls (e.extract n) := by
  refine .bind (raises_visitOf _ n) fun v => ?_
  split
  · exact raises_pure _
  · exact .bind (referenceFor_raises n v) fun _ =>
      .bind (raises_onVisit _ _ _) fun _ => raises_log _ _

/-- Hoisting stalls only where one definition does: induction on the nodes. -/
theorem hoistAll_raises (ns : List NodeId) : Raises e.Stalls (e.hoistAll ns) := by
  induction ns with
  | nil => exact raises_pure _
  | cons n rest ih =>
    unfold hoistAll
    refine .bind raises_get fun c => .bind (raises_visitOf _ n) fun v => ?_
    have hextract : Raises e.Stalls
        (if e.isHoisted c.store c.linkage n v = true then do e.extract n; e.hoistAll rest
          else e.hoistAll rest) := by
      split
      · exact .bind (extract_raises n) fun _ => ih
      · exact ih
    dsimp only
    split
    · exact .bind (raises_fail .misuse) fun _ => hextract
    · exact hextract

section Settling

variable {P : Failure → Prop} (hmissing : P .missingChild)

include hmissing in
/-- Taking over content fails only at an annotation that holds no list. -/
theorem inherit_raises (own : Entries) (t : NodeId) : Raises P (e.inherit own t) := by
  intro c f d h
  obtain ⟨-, hrun⟩ | ⟨-, ⟨xs, -, hrun⟩ | ⟨number, -, hrun⟩ | ⟨-, hrun⟩⟩ := e.inherit_cases own t c
  · cases hrun.symm.trans h
  · cases hrun.symm.trans h
  · cases hrun.symm.trans h
  · exact raises_fail hmissing c f d (hrun.symm.trans h)

/-- The override fails only with what it raises. -/
theorem applyOverride_raises {o : Override} (h : ∀ {s n body f}, (o s n body).2 = some f → P f)
    (n : NodeId) : Raises P (applyOverride o n) := by
  refine .bind (raises_visitOf _ n) fun v => ?_
  refine .bind (raises_modify _) fun _ => .bind raises_get fun c => ?_
  refine .bind (raises_onVisit _ _ _) fun _ => ?_
  split
  · rename_i f hf
    exact raises_fail (h hf)
  · exact raises_pure _

variable (hoverride : ∀ {o s n body f}, e.override = some o → (o s n body).2 = some f → P f)
include hmissing hoverride

/-- Settling one node fails only at such an annotation, or with what the override raises:
    induction on the links. -/
theorem settle_raises (links : Nat) (n : NodeId) : Raises P (e.settle links n) := by
  induction links generalizing n with
  | zero => exact raises_pure _
  | succ links ih =>
    rw [settle_eq]
    refine .bind (raises_visitOf _ n) fun v => ?_
    split
    · exact raises_pure _
    · refine .bind (raises_onVisit _ _ _) fun _ => .bind ?_ fun _ => ?_
      -- Its target is no further away than the links that are left.
      · unfold finish
        split
        · exact raises_pure _
        · exact .bind (ih _) fun _ => .bind (inherit_raises hmissing _ _) fun _ =>
            raises_onVisit _ _ _
      · unfold amend
        split
        · rename_i o ho
          split
          · exact raises_pure _
          · exact applyOverride_raises (hoverride ho) n
        · exact raises_pure _

/-- So does settling many. -/
theorem settleAll_raises (links : Nat) (ns : List NodeId) : Raises P (e.settleAll links ns) := by
  induction ns with
  | nil => exact raises_pure _
  | cons n rest ih => exact .bind (settle_raises hmissing hoverride links n) fun _ => ih

/-- So does settling all. -/
theorem settleVisits_raises : Raises P e.settleVisits :=
  .bind raises_get fun _ => settleAll_raises hmissing hoverride _ _

end Settling

/-- The listing of definitions stops at an id that cannot be a key only. -/
theorem listed_stop {visits : List (NodeId × Visit)} {table : List (Value × NodeId)} {f : Failure}
    (h : (listed visits table).2 = some f) : f = .misuse := by
  induction visits generalizing table with
  | nil => cases h
  | cons p rest ih =>
    obtain ⟨n, v⟩ := p
    unfold listed at h
    split at h
    · split at h
      · exact ih h
      · cases h
        rfl
    · exact ih h

/-- Listing the definitions stalls only at an id that cannot be a key. -/
theorem listDefinitions_raises : Raises e.Stalls e.listDefinitions := by
  refine .bind raises_get fun c => ?_
  refine .bind (raises_modify _) fun _ => ?_
  split
  · rename_i f hf
    rw [listed_stop hf]
    exact raises_fail .misuse
  · exact raises_pure _

/-- Finishing a document fails only because it is no data. -/
theorem finalize_raises (v : Value) : Raises e.Ails (finalize v) := by
  refine .bind raises_get fun c => ?_
  split
  · exact raises_pure _
  · rename_i f hf
    unfold Value.document at hf
    cases hjson : (c.view.settle v).toJson with
    | ok j =>
      rw [hjson] at hf
      cases hf
    | error reason =>
      rw [hjson] at hf
      cases hf
      exact raises_fail (.notData reason)

/-- Putting together a document fails in these ways only. -/
theorem compose_raises : Raises e.Stalls e.compose := by
  refine .bind (.bind raises_get fun c => raises_modify _) fun _ => ?_
  refine .bind (.bind raises_get fun c => hoistAll_raises _) fun _ => ?_
  exact .bind (settleVisits_raises .missingChild .override) fun _ => listDefinitions_raises

/-- **Failures of emissions.** An emission is refused, or it fails in one of few ways. -/
theorem document_raises {c d : Conversion} {f : Failure} (h : e.document c = (.error f, d)) :
    e.refusal? c = some f ∨ e.refusal? c = none ∧ e.Ails f := by
  unfold document at h
  rw [run_bind, run_get] at h
  dsimp only at h
  cases hrefusal : e.refusal? c with
  | some g =>
    rw [hrefusal] at h
    exact .inl (congrArg some (raises_fail (P := fun f => g = f) rfl _ _ _ h))
  | none =>
    rw [hrefusal] at h
    -- Behind the refusal it is the stages that fail, one after the other.
    have hrest : Raises e.Ails (do
        let entries ← e.compose
        let json ← Conversion.finalize (.dict entries)
        e.completed
        pure json) := by
      refine .bind (compose_raises.mono fun _ => Stalls.ails) fun entries =>
        .bind (finalize_raises _) fun json => ?_
      exact .bind (.bind raises_get fun c => raises_log _ _) fun _ => raises_pure _
    exact .inr ⟨rfl, hrest _ _ _ h⟩

/-- An emission that is refused fails so, and changes nothing but events. -/
theorem document_refused {c : Conversion} {f : Failure} (h : e.refusal? c = some f) :
    ∃ d, e.document c = (.error f, d) ∧ Rewrites c d ∧ d.survey = c.survey := by
  unfold document
  rw [run_bind, run_get]
  dsimp only
  rw [h]
  exact run_fail Json f c

end Emission

end SchemaGraph
