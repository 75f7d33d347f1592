import SchemaGraph.Proofs.Document.Failing
import SchemaGraph.Proofs.Document.Repeating
import SchemaGraph.Proofs.Survey.Relaxing

namespace SchemaGraph

open SchemaGraph.Action Conversion

/-!
# Strict settings

Two settings make conversions fail that would return otherwise: what has no counterpart in documents
may be rejected, and so may be cycles.  That is all they do.  What is converted in spite of a strict
setting is converted to the same documents without it; and where everything is accepted, a failure
says that something has no counterpart only if it was raised by a function that the user has given.

* `Export.Relaxed`              — two exports, the second of which accepts no less
* `Conversion.Throws`           — what functions raise that a conversion is given
* `Export.convert_conservative` — strict settings only refuse
-/

/-! ### Emissions -/

/-- Settings that allow no fewer cycles than others and are the same besides. -/
structure EmissionSettings.Relaxed (strict lax : EmissionSettings) : Prop where
  reused : lax.reused = strict.reused := by rfl
  cycles : lax.cycles = strict.cycles ∨ lax.cycles = .refer

namespace Emission

/-- The emission with cycles allowed. -/
def lenient (e : Emission) : Emission := { e with policy := { e.policy with cycles := .refer } }

variable {e : Emission}

/-- Hoisting does not ask whether cycles are allowed. -/
theorem hoistAll_lenient (ns : List NodeId) : e.lenient.hoistAll ns = e.hoistAll ns := by
  induction ns with
  | nil => rfl
  | cons n rest ih =>
    unfold hoistAll
    rw [ih]
    rfl

/-- Settling a node does not ask it either. -/
theorem settle_lenient (links : Nat) (n : NodeId) : e.lenient.settle links n = e.settle links n := by
  induction links generalizing n with
  | zero => rfl
  | succ links ih =>
    unfold settle
    simp only [ih]
    rfl

/-- Nor does settling many. -/
theorem settleAll_lenient (links : Nat) (ns : List NodeId) :
    e.lenient.settleAll links ns = e.settleAll links ns := by
  induction ns with
  | nil => rfl
  | cons n rest ih =>
    unfold settleAll
    rw [settle_lenient, ih]

/-- Whether cycles are allowed makes no difference to a document that is put together. -/
theorem compose_lenient : e.lenient.compose = e.compose := by
  have hhoist : e.lenient.hoist = e.hoist := by
    unfold hoist
    simp only [hoistAll_lenient]
  have hsettle : e.lenient.settleVisits = e.settleVisits := by
    unfold settleVisits
    simp only [settleAll_lenient]
  unfold compose
  rw [hhoist, hsettle]
  rfl

/-- What is not refused by strict settings is not refused by lenient ones. -/
theorem refusal?_lenient {c : Conversion} (h : e.refusal? c = none) :
    e.lenient.refusal? c = none := by
  unfold refusal? at h ⊢
  dsimp only at h ⊢
  split at h
  · cases h
  · rename_i hvisited
    rw [if_neg (show ¬ c.survey.has e.lenient.root = false from hvisited)]
    split at h
    · cases h
    · rename_i hfresh
      rw [if_neg (show e.lenient.root ∉ c.survey.emitted from hfresh)]
      split at h
      · cases h
      · rename_i hshared
        rw [if_neg hshared]
        exact if_neg (by nofun)

/-- A document that is emitted where cycles are rejected is emitted where they are allowed. -/
theorem document_lenient : Retains e.document e.lenient.document := by
  intro c json d h
  unfold document at h ⊢
  obtain ⟨b, _, hget, h⟩ := returns_bind.mp h
  refine returns_bind.mpr ⟨b, _, hget, ?_⟩
  cases hrefusal : e.refusal? b with
  | some f =>
    rw [hrefusal] at h
    exact (not_returns_fail h).elim
  | none =>
    rw [hrefusal] at h
    rw [refusal?_lenient hrefusal, compose_lenient]
    exact h

end Emission

namespace Converter

variable {conv conv' : Converter} {policy policy' : EmissionSettings}

/-- What is emitted under a strict policy is emitted under a lax one. -/
theorem emit_retains (h : conv.Relaxed conv') (hpolicy : policy.Relaxed policy') (root : NodeId) :
    Retains (conv.emit policy root) (conv'.emit policy' root) := by
  have hemission : conv'.emission policy' root = conv.emission policy root ∨
      conv'.emission policy' root = (conv.emission policy root).lenient := by
    unfold emission Emission.lenient
    rw [h.guide.settings.target, h.guide.catalog, h.override]
    rcases hpolicy.cycles with hsame | hrefer
    · left
      congr
      cases policy'
      cases policy
      obtain ⟨hreused, -⟩ := hpolicy
      congr
    · right
      congr
      cases policy'
      cases policy
      obtain ⟨hreused, -⟩ := hpolicy
      congr
  unfold emit
  rcases hemission with hsame | hlenient
  · rw [hsame]
    exact .refl _
  · rw [hlenient]
    exact Emission.document_lenient

/-- A document that strict settings return is returned by lenient ones. -/
theorem document_retains (h : conv.Relaxed conv') (hpolicy : policy.Relaxed policy')
    (root : NodeId) : Retains (conv.document policy root) (conv'.document policy' root) :=
  (process_retains h root).bind fun _ => emit_retains h hpolicy root

/-- So are the documents of many roots: induction on the roots. -/
theorem emitAll_retains (h : conv.Relaxed conv') (hpolicy : policy.Relaxed policy')
    (roots : List (Value × NodeId)) :
    Retains (conv.emitAll policy roots) (conv'.emitAll policy' roots) := by
  induction roots with
  | nil => exact .refl _
  | cons p rest ih =>
    exact (emit_retains h hpolicy p.2).bind fun _ => ih.bind fun _ => .refl _

/-- So are the documents of a catalog. -/
theorem documents_retains (h : conv.Relaxed conv') (hpolicy : policy.Relaxed policy')
    (catalog : String) (addressing : Addressing) :
    Retains (conv.documents policy catalog addressing)
      (conv'.documents policy' catalog addressing) := by
  refine (Retains.refl _).bind fun c => (processAll_retains h _).bind fun _ => ?_
  refine (Retains.refl _).bind fun _ => (emitAll_retains h hpolicy _).bind fun docs => ?_
  rw [h.guide.settings.target]
  exact .refl _

end Converter

/-! ### Failures -/

/-- What the functions raise that a conversion is given: those in its store, and the override. -/
inductive Conversion.Throws (override : Option Override) (c : Conversion) : Failure → Prop
  | store {f : Failure} (h : c.store.Throws f) : Throws override c f
  | override {o : Override} {s : Store} {n : NodeId} {body : Entries} {f : Failure}
      (ho : override = some o) (h : (o s n body).2 = some f) : Throws override c f

/-- The failure is ordinary, or one of the functions raises it. -/
def Conversion.Admits (override : Option Override) (c : Conversion) (f : Failure) : Prop :=
  f.Ordinary ∨ c.Throws override f

/-- An action whose failures are accounted for by the store has failures that are admitted. -/
theorem Conversion.explains_admits {α : Type} {override : Option Override} {a : Action Conversion α}
    {c : Conversion} (h : Explains Accounts a c) : Explains (Admits override) a c :=
  fun f d hrun => (h f d hrun).imp id .store

namespace Emission

variable {e : Emission} {c : Conversion} {f : Failure}

/-- Refusals are ordinary failures. -/
theorem refusal?_ordinary (h : e.refusal? c = some f) : f.Ordinary := by
  unfold refusal? at h
  dsimp only at h
  split at h
  · cases h
    exact .unprocessed _
  · split at h
    · cases h
      exact .reemitted _
    · split at h
      · cases h
        exact .sharedSurvey
      · split at h
        · obtain ⟨path, -, rfl⟩ := Option.map_eq_some_iff.mp h
          exact .cycle path
        · cases h

/-- The failures of an emission are ordinary, or raised by the override. -/
theorem Ails.admits (h : e.Ails f) : c.Admits e.override f := by
  cases h with
  | misuse => exact .inl .misuse
  | missingChild => exact .inl .missingChild
  | notData reason => exact .inl (.notData reason)
  | override ho hstop => exact .inr (.override ho hstop)

/-- An emission fails for ordinary reasons, or because the override does. -/
theorem explains_document : Explains (Admits e.override) e.document c := by
  intro f d hrun
  rcases document_raises hrun with hrefusal | ⟨-, hails⟩
  · exact .inl (refusal?_ordinary hrefusal)
  · exact hails.admits

end Emission

namespace Converter

variable {conv : Converter} {policy : EmissionSettings} {c : Conversion}

/-- Where everything is accepted, a document fails only as admitted. -/
theorem explains_document (hpolicy : conv.guide.settings.unrepresentable = .accept)
    (root : NodeId) : Explains (Admits conv.override) (conv.document policy root) c :=
  (explains_admits (explains_process hpolicy root)).bind fun _ _ _ =>
    Emission.explains_document (e := conv.emission policy root)

/-- So do the documents of many roots: induction on the roots. -/
theorem explains_emitAll (roots : List (Value × NodeId)) :
    Explains (Admits conv.override) (conv.emitAll policy roots) c := by
  induction roots generalizing c with
  | nil => exact explains_pure _
  | cons p rest ih =>
    exact (Emission.explains_document (e := conv.emission policy p.2)).bind fun _ _ _ =>
      ih.bind fun _ _ _ => explains_pure _

/-- Finishing a document fails only in an ordinary way. -/
theorem explains_finalize (v : Value) : Explains (Admits conv.override) (finalize v) c :=
  (Emission.finalize_raises (e := conv.emission {} .gap) v).explains fun _ _ => Emission.Ails.admits

/-- Where everything is accepted, a catalog fails only as admitted. -/
theorem explains_documents (hpolicy : conv.guide.settings.unrepresentable = .accept)
    (catalog : String) (addressing : Addressing) :
    Explains (Admits conv.override) (conv.documents policy catalog addressing) c := by
  refine explains_get.bind fun _ _ _ =>
    (explains_admits (explains_processAll hpolicy _)).bind fun _ _ _ => ?_
  refine (explains_modify _).bind fun _ _ _ => (explains_emitAll _).bind fun docs _ _ =>
    explains_get.bind fun _ _ _ => ?_
  dsimp only
  split
  · exact explains_pure _
  · exact (explains_finalize _).bind fun _ _ _ => explains_pure _

end Converter

namespace Export

/-- Two exports that differ at most in that the second accepts what the first rejects. -/
structure Relaxed (strict lax : Export) (settings settings' : ExportSettings) : Prop where
  read : strict.settings = .ok settings
  read' : lax.settings = .ok settings'
  lowering : settings.lowering.Relaxed settings'.lowering
  emission : settings.emission.Relaxed settings'.emission
  uriTemplate : settings'.uriTemplate = settings.uriTemplate := by rfl
  annotations : lax.annotations = strict.annotations := by rfl
  override : lax.override = strict.override := by rfl
  addressing : lax.addressing = strict.addressing := by rfl

variable {x y : Export} {settings settings' : ExportSettings}

/-- Relaxed exports have relaxed converters. -/
theorem Relaxed.converter (h : Relaxed x y settings settings') (catalog : String) :
    (x.converter settings catalog).Relaxed (y.converter settings' catalog) where
  guide := ⟨h.lowering, rfl⟩
  override := h.override

/-- **Strict settings only refuse.** Of two exports that differ at most in that the second one
    accepts what the first one rejects, be it things without counterpart in documents or cycles,
    the second one converts everything that the first one does, to the same documents, and leaves
    the same state.  If it accepts all that has no counterpart, then it fails with the report that
    something has none only if a function that was given raises this report: a getter, the maker of
    a default, a custom lowering, or the override. -/
theorem convert_conservative (h : Relaxed x y settings settings') (c : Conversion) :
    (∀ root json d, Returns (x.convert root) c json d → Returns (y.convert root) c json d) ∧
    (∀ catalog docs d, Returns (x.convertAll catalog) c docs d →
      Returns (y.convertAll catalog) c docs d) ∧
    (settings'.lowering.unrepresentable = .accept → ∀ f d,
      (∃ root, y.convert root c = (.error f, d)) ∨ (∃ catalog, y.convertAll catalog c = (.error f, d)) →
      f.label = ReportKind.unrepresentable.name → d.Throws y.override f) := by
  refine ⟨fun root => ?_, fun catalog => ?_, fun haccept f d hfails hlabel => ?_⟩
  · rw [convert_eq h.read, convert_eq h.read', h.annotations]
    exact fun json d => Converter.document_retains (h.converter _) h.emission root c json d
  · rw [convertAll_eq h.read, convertAll_eq h.read', h.annotations, h.addressing, h.uriTemplate]
    exact fun docs d => Converter.documents_retains (h.converter _) h.emission catalog _ c docs d
  · have hadmits : d.Admits y.override f := by
      rcases hfails with ⟨root, hrun⟩ | ⟨catalog, hrun⟩
      · rw [convert_eq h.read'] at hrun
        have hexplains : Explains (Admits y.override)
            ((y.converter settings' (y.annotations.getD "global")).document settings'.emission root) c :=
          Converter.explains_document haccept root
        exact hexplains f d hrun
      · rw [convertAll_eq h.read'] at hrun
        have hexplains : Explains (Admits y.override)
            ((y.converter settings' (y.annotations.getD catalog)).documents settings'.emission catalog
              (y.addressing.getD (.template settings'.uriTemplate))) c :=
          Converter.explains_documents haccept catalog _
        exact hexplains f d hrun
    exact hadmits.resolve_left fun hordinary => hordinary.label_ne hlabel

/-- An export that rejects cycles, and what has no counterpart in documents. -/
def severe : Export where
  options := [(.str "unrepresentable", .str "throw"), (.str "cycles", .str "throw")]

/-- An export that accepts both. -/
def mild : Export where
  options := [(.str "unrepresentable", .str "any"), (.str "cycles", .str "ref")]

/-- The mild export accepts what the severe one rejects, and differs in nothing else. -/
theorem severe_mild_relaxed :
    Relaxed severe mild
      { lowering := { unrepresentable := .reject }, emission := { cycles := .reject } }
      { lowering := { unrepresentable := .accept }, emission := { cycles := .refer } } where
  read := rfl
  read' := rfl
  lowering := { unrepresentable := .inr rfl }
  emission := { cycles := .inr rfl }

/-- A text with a custom lowering that raises a report. -/
def datelessText : Store where
  nodes := [{ kind := .string
              lowering := .foreign (.raiser 0 "UnrepresentableTypeError" "date") }]

/-- The report that the lowering raises. -/
def dateless : Failure :=
  .reported ⟨.unrepresentable, .str "Date cannot be represented in JSON Schema", .null,
    .variant (.str "date")⟩

/-- Nested lists come to one document under both exports, since the cycle leads through the root.
    The text fails under the mild one with the report that its lowering raises. -/
theorem convert_conservative_nestedLists :
    (∃ json c, Returns (severe.convert (.node 0)) (start Converter.nestedLists) json c ∧
      Returns (mild.convert (.node 0)) (start Converter.nestedLists) json c) ∧
    ∃ d, mild.convert (.node 0) (start datelessText) = (.error dateless, d) ∧
      d.Throws mild.override dateless := by
  obtain ⟨json, h⟩ : ∃ json, Returns (severe.convert (.node 0))
      (start Converter.nestedLists) json _ := exists_returns (by decide +kernel)
  have hfails : mild.convert (.node 0) (start datelessText) = (.error dateless, _) :=
    Prod.ext (by decide +kernel) rfl
  exact ⟨⟨json, _, h, (convert_conservative severe_mild_relaxed _).1 _ _ _ h⟩, _, hfails,
    (convert_conservative severe_mild_relaxed _).2.2 rfl _ _ (.inl ⟨_, hfails⟩) rfl⟩

/-- A function that was given may raise the report that something has no counterpart; then the
    conversion fails with it although it accepts everything. -/
theorem convert_raises_unrepresentable :
    mild.settings.toOption.map (·.lowering.unrepresentable) = some .accept ∧
      (mild.convert (.node 0) (start datelessText)).1 = .error dateless ∧
      dateless.label = "UnrepresentableTypeError" :=
  ⟨rfl, by decide +kernel, rfl⟩

end Export

end SchemaGraph
