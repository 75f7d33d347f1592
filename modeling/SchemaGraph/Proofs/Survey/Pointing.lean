import SchemaGraph.Proofs.Survey.Outside
import SchemaGraph.Proofs.Value.Places

namespace SchemaGraph

/-!
# Where contents point at

The values that a node contributes are those that it carries, those that are supplied for it, and
pointers to the fragments of nodes that it leads to.  So they point at these fragments alone, if
what is carried and supplied points at nothing.  They hold no keyword that is neither written by a
rule nor supplied.

* `Value.Spreads`         — a property that what steps write has
* `Store.contents?_each`  — all values that a node contributes have it, if what is supplied does
* `Store.Sparing`         — what is supplied for a node is data without some keywords
* `Store.contents?_leads` — contents point at the nodes that an edge leads to
* `Store.contents?_asks`  — a node that passes content on leaves `allOf` to its annotation
-/

/-- A property of values that pointers to some nodes have, values that point at nothing, and
    collections of which all elements have it. -/
structure Value.Spreads (reach : NodeId → Prop) (P : Value → Prop) : Prop where
  fragment : ∀ {n}, reach n → P (.fragment n)
  plain : ∀ {v : Value}, v.isPlain = true → P v
  items : ∀ {form xs}, P (.items form xs) ↔ ∀ v ∈ xs, P v
  dict : ∀ {es : List (Value × Value)}, P (.dict es) ↔ ∀ q ∈ es, P q.2

/-- That a value leads to some nodes spreads. -/
theorem Value.spreads_leads (reach : NodeId → Prop) : Value.Spreads reach (Value.Leads reach) :=
  ⟨leads_fragment, leads_of_plain, leads_items, leads_dict⟩

/-- What a step writes has a property, and its children are some nodes only. -/
def Step.Writes (reach : NodeId → Prop) (P : Value → Prop) : Step → Prop
  | .write _ v => P v
  | .merge es => es.Each P
  | .property _ child => reach child
  | .prefault v => P v
  | _ => True

/-- What a visit holds has a property. -/
structure Visit.Holds (P : Value → Prop) (v : Visit) : Prop where
  fragment : v.fragment.Each P
  prefault : P v.prefault

section Steps

variable {reach : NodeId → Prop} {P : Value → Prop}

/-- What spreads holds of an element under a keyword of elements. -/
theorem Value.Element.spreads (hP : Value.Spreads reach P) {v : Value} (h : v.Element reach) :
    P v := by
  cases h with
  | fragment h => exact hP.fragment h
  | data hp => exact hP.plain hp

/-- What spreads holds of a value that fits its keyword. -/
theorem Value.Fits.spreads (hP : Value.Spreads reach P) {key : String} {v : Value}
    (h : v.Fits reach key) : P v := by
  cases h with
  | data hp => exact hP.plain hp
  | fragment _ _ h => exact hP.fragment h
  | list _ _ _ h => exact hP.items.mpr fun x hx => (h x hx).spreads hP
  | members _ _ _ h =>
    refine hP.dict.mpr fun q hq => ?_
    obtain ⟨n, hn, hreach⟩ := h q hq
    rw [hn]
    exact hP.fragment hreach

/-- What spreads holds of what a fitting step writes. -/
theorem Step.Fits.writes (hP : Value.Spreads reach P) {step : Step} (h : step.Fits reach) :
    step.Writes reach P := by
  cases step with
  | write key v => exact h.2.1.spreads hP
  | merge es => exact h.elim
  | property name child => exact h
  | prefault v => exact hP.plain h
  | _ => trivial

/-- What spreads holds of properties with one more child. -/
theorem Conversion.each_putProperty (hP : Value.Spreads reach P) {name : String} {child : NodeId}
    {e : Entries} (h : e.Each P) (hchild : reach child) : (putProperty name child e).Each P := by
  unfold putProperty
  refine h.set _ (hP.dict.mpr (Entries.Each.set ?_ _ (hP.fragment hchild)))
  split
  · rename_i es hget
    exact hP.dict.mp (h.get? hget)
  · exact .nil

/-- What spreads is kept by one step. -/
theorem Visit.Holds.replay (hP : Value.Spreads reach P)
    {required : List (String × NodeId) → Option (List String)} {answer : Option Resolved}
    {v v' : Visit} (h : v.Holds P) {step : Step} (hstep : step.Writes reach P)
    (hv : Step.replay required answer v step = some v') : v'.Holds P := by
  cases step with
  | write key value =>
    cases hv
    exact ⟨h.fragment.set _ hstep, h.prefault⟩
  | merge entries =>
    cases hv
    exact ⟨h.fragment.update hstep, h.prefault⟩
  | property name child =>
    cases hv
    exact ⟨Conversion.each_putProperty hP h.fragment hstep, h.prefault⟩
  | require shape =>
    obtain ⟨names, -, rfl⟩ := Step.replay_require.mp hv
    -- Names of required properties are plain texts.
    refine ⟨h.fragment.set _ (hP.items.mpr fun x hx => ?_), h.prefault⟩
    obtain ⟨s, -, rfl⟩ := List.mem_map.mp hx
    exact hP.plain rfl
  | inheritResolved path =>
    obtain ⟨child, -, rfl⟩ := Step.replay_inheritResolved.mp hv
    exact ⟨h.fragment, h.prefault⟩
  | prefault value =>
    cases hv
    exact ⟨h.fragment, hstep⟩
  | fail f => cases hv
  | visit | inherit | inheritSource =>
    cases hv
    exact ⟨h.fragment, h.prefault⟩

/-- What spreads is kept by many steps. -/
theorem Visit.Holds.replayAll (hP : Value.Spreads reach P)
    {required : List (String × NodeId) → Option (List String)} {answer : Option Resolved}
    {steps : List Step} {v v' : Visit} (h : v.Holds P)
    (hsteps : ∀ step ∈ steps, step.Writes reach P)
    (hv : Step.replayAll required answer steps v = some v') : v'.Holds P :=
  Step.replayAll_keeps (fun step hstep _ _ hu hholds => hholds.replay hP (hsteps step hstep) hu) hv h

/-- What spreads is kept when the default is settled. -/
theorem Visit.Holds.settled {v : Visit} (h : v.Holds P) (side : Side) (kind : Kind) :
    (v.settled side kind).fragment.Each P := by
  rcases v.settled_fragment side kind with hsame | ⟨e, he, hset⟩
  · exact hsame ▸ h.fragment
  · have hkept : e.Each P := by
      rcases he with rfl | rfl
      · exact h.fragment
      · exact (h.fragment.erase _).erase _
    rcases hset with hset | hset
    · exact hset ▸ hkept
    · rw [hset]
      exact hkept.set _ h.prefault

end Steps

namespace Store

variable {s : Store} {guide : Guide} {links : Nat} {n : NodeId} {v : Visit} {P : Value → Prop}

/-- The recipe of a node writes what it carries, what is supplied for it, and pointers to the nodes
    that it leads to. -/
theorem writes_recipe (hP : Value.Spreads (s.Edge guide.settings.side n) P) {node : Node}
    (hn : s.node? n = some node) (hplain : node.Plain)
    (hsupplied : ∀ es, s.Supplied guide.catalog n es → es.Each P) {step : Step}
    (hstep : step ∈ node.recipe guide.settings (s.catchallKind node) []) :
    step.Writes (s.Edge guide.settings.side n) P := by
  unfold Node.recipe at hstep
  by_cases hl : node.lowering ≠ .null
  · rw [if_pos hl] at hstep
    unfold loweringSteps at hstep
    split at hstep
    · rw [List.mem_singleton.mp hstep]
      trivial
    · rename_i value hcall
      have hmerge : (Step.merge value.mergeable.1).Writes (s.Edge guide.settings.side n) P :=
        hsupplied _ (.inl ⟨node, value, hn, hcall, rfl⟩)
      dsimp only at hstep
      split at hstep
      · rw [List.mem_singleton.mp hstep]
        exact hmerge
      · rcases List.mem_cons.mp hstep with rfl | hstep
        · exact hmerge
        · rw [List.mem_singleton.mp hstep]
          trivial
  · rw [if_neg hl] at hstep
    by_cases hp : node.parent ≠ .gap
    · rw [if_pos hp] at hstep
      rw [List.mem_singleton.mp hstep]
      trivial
    -- The rules of a kind write pointers to the leads of the node, and data that it carries.
    · rw [if_neg hp] at hstep
      refine (fits_kindSteps hplain (fun child hchild => ?_) hstep).writes hP
      refine ⟨.child child, ?_, rfl⟩
      simp only [leads, hn]
      rw [Node.leads, if_neg hl, if_neg hp]
      exact hchild

/-- **Contents.** All values that a node contributes have a property, if those have it that it
    carries and that are supplied for it. -/
theorem contents?_each (hP : Value.Spreads (s.Edge guide.settings.side n) P)
    (hplain : ∀ node, s.node? n = some node → node.Plain)
    (hsupplied : ∀ es, s.Supplied guide.catalog n es → es.Each P)
    (hv : s.contents? guide links n = some v) : v.fragment.Each P := by
  obtain ⟨node, w, hn, hw, rfl⟩ := contents?_eq_some.mp hv
  have hnew : Visit.Holds P {} := ⟨.nil, hP.plain rfl⟩
  have hrecipe := hnew.replayAll hP
    (fun step hstep => writes_recipe hP hn (hplain node hn) hsupplied hstep) hw
  refine Visit.Holds.settled ?_ _ _
  cases hnotes : (s.catalog guide.catalog).get? n with
  | none => exact hrecipe
  | some notes =>
    exact ⟨hrecipe.fragment.update (hsupplied notes (.inr hnotes)), hrecipe.prefault⟩

end Store

/-- What a node carries and what is supplied for it is data; what is supplied has texts as keys, and
    no value under one of the given keywords. -/
structure Store.Sparing (s : Store) (catalog : String) (keywords : List String) (n : NodeId) :
    Prop where
  plain : ∀ node, s.node? n = some node → node.Plain
  supplied : ∀ es, s.Supplied catalog n es → ∀ p ∈ es, p.2.isPlain = true
  texts : ∀ es, s.Supplied catalog n es → es.Texts
  spared : ∀ es, s.Supplied catalog n es → ∀ name ∈ keywords, es.get? (.str name) = none

/-- What is supplied spares keywords if all annotations do, and no node is lowered by a function of
    its own. -/
theorem Store.Sparing.of_forall {s : Store} {catalog : String} {keywords : List String} {n : NodeId}
    (hnodes : ∀ node ∈ s.nodes, node.Plain ∧ node.lowering = .null)
    (hnotes : ∀ p ∈ (s.catalog catalog).entries, (∀ q ∈ p.2, q.2.isPlain = true) ∧ p.2.Texts ∧
      ∀ name ∈ keywords, p.2.get? (.str name) = none) : s.Sparing catalog keywords n := by
  have hnode : ∀ node, s.node? n = some node → node.Plain ∧ node.lowering = .null := by
    intro node hn
    cases n with
    | gap => cases hn
    | node i => exact hnodes node (List.mem_of_getElem? hn)
  have hsupplied : ∀ es, s.Supplied catalog n es → (∀ q ∈ es, q.2.isPlain = true) ∧ es.Texts ∧
      ∀ name ∈ keywords, es.get? (.str name) = none := by
    rintro es (⟨node, v, hn, hcall, -⟩ | hn)
    · rw [(hnode node hn).2] at hcall
      cases hcall
    · exact hnotes _ (Catalog.mem_of_get? hn)
  exact ⟨fun node hn => (hnode node hn).1, fun es hes => (hsupplied es hes).1,
    fun es hes => (hsupplied es hes).2.1, fun es hes => (hsupplied es hes).2.2⟩

namespace Store

variable {s : Store} {guide : Guide} {links : Nat} {n : NodeId} {v : Visit}
  {keywords : List String}

/-- **Pointers.** What a node contributes points at the nodes that it leads to. -/
theorem contents?_leads (h : s.Sparing guide.catalog keywords n)
    (hv : s.contents? guide links n = some v) :
    v.fragment.Each (Value.Leads (s.Edge guide.settings.side n)) :=
  contents?_each (Value.spreads_leads _) h.plain
    (fun es hes p hp => Value.leads_of_plain (h.supplied es hes p hp)) hv

/-! ### Keywords that are not there -/

/-- A keyword that no rule writes is not there, if it is not supplied. -/
theorem contents?_outside (h : s.Sparing guide.catalog keywords n)
    (hv : s.contents? guide links n = some v) {name : String} (hname : name ∈ keywords)
    (houtside : name ∈ outsideKeywords) : v.fragment.get? (.str name) = none := by
  rw [get?_contents?_outside hv houtside]
  unfold supplied
  have hlowered : (((s.node? n).map Node.lowered).getD []).get? (.str name) = none := by
    cases hn : s.node? n with
    | none => rfl
    | some node =>
      show node.lowered.get? (.str name) = none
      unfold Node.lowered
      split
      · rename_i value hcall
        exact Entries.get?_update_none rfl (h.spared _ (.inl ⟨node, value, hn, hcall, rfl⟩) name hname)
      · rfl
  refine Entries.get?_update_none hlowered ?_
  cases hnotes : (s.catalog guide.catalog).get? n with
  | none => rfl
  | some notes => exact h.spared notes (.inr hnotes) name hname

/-- Where a node passes content on, what stands under `allOf` is what it is annotated with. -/
theorem contents?_asks (hv : s.contents? guide links n = some v) (hsome : v.target.isSome)
    {x : Value} (hx : v.fragment.get? "allOf" = some x) :
    ∃ notes, (s.catalog guide.catalog).get? n = some notes ∧ (Value.str "allOf", x) ∈ notes := by
  have htarget := hv
  obtain ⟨node, w, hn, hw, rfl⟩ := contents?_eq_some.mp hv
  obtain ⟨m, hm⟩ := Option.isSome_iff_exists.mp hsome
  obtain ⟨node', lead, hn', hlead, -⟩ := passes_of_contents? htarget hm
  obtain rfl : node' = node := Option.some.inj (hn'.symm.trans hn)
  -- No rule that passes content on writes `allOf`, so it comes from the annotation.
  have hrecipe : w.fragment.get? "allOf" = none :=
    Step.get?_replayAll (fun step hstep => spares_allOf_recipe hlead hstep) hw
  rw [Visit.get?_settled_of_ne (by decide) (by decide)] at hx
  cases hnotes : (s.catalog guide.catalog).get? n with
  | none =>
    rw [hnotes] at hx
    cases hrecipe.symm.trans hx
  | some notes =>
    rw [hnotes] at hx
    rcases Entries.get?_update_cases hx with ⟨key, hmem, hkey⟩ | hold
    · exact ⟨notes, rfl, Value.canonical_eq_str hkey ▸ hmem⟩
    · cases hrecipe.symm.trans hold

/-- A node that passes content on asks for nothing besides if nothing is supplied for it under
    `allOf`. -/
theorem contents?_spares (h : s.Sparing guide.catalog keywords n)
    (hv : s.contents? guide links n = some v) (hall : "allOf" ∈ keywords)
    (hsome : v.target.isSome) : v.fragment.get? "allOf" = none := by
  rw [Option.eq_none_iff_forall_ne_some]
  intro x hx
  obtain ⟨notes, hnotes, hmem⟩ := contents?_asks hv hsome hx
  have hspared := h.spared notes (.inr hnotes) _ hall
  exact Entries.canonical_ne_of_get? hspared hmem rfl

end Store

end SchemaGraph
