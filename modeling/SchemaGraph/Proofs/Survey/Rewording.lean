import SchemaGraph.Proofs.Survey.Abreast
import SchemaGraph.Proofs.Survey.Outside
import SchemaGraph.Proofs.Value.Renaming

namespace SchemaGraph

/-!
# Contents in two dialects

What a node contributes is the same in two dialects, entry by entry, but for the keywords of tuples.
This takes that nothing is supplied under keywords that dialects spell differently.

* `Node.spelling`    — which of these keywords the rules write for a node
* `Step.Reworded`    — steps that write the same in two dialects
* `Store.Neutral`    — what is supplied for a node leaves these keywords alone
* `Store.contents?_reworded` — what a node contributes in two dialects
-/

/-! ### Steps -/

/-- The special keywords that the rules write for a kind. -/
def Kind.spelling : Kind → Spelling
  | .array => .common
  | .intersection => .common
  | .tuple => .tuple
  | _ => .neutral

/-- The special keywords that are written for a node. -/
def Node.spelling (node : Node) : Spelling :=
  if node.lowering ≠ .null ∨ node.parent ≠ .gap then .neutral else node.kind.spelling

/-- Before emission no node refers to an address. -/
def refersNowhere (_ : NodeId) (_ : String) : Prop := False

/-- Steps that write the same in two dialects. -/
inductive Step.Reworded (form : Spelling) : Step → Step → Prop
  | write {key key' : String} {v v' : Value}
    (h : Value.Reworded none refersNowhere form (.str key, v) (.str key', v'))
    (hproperties : key = "properties" → v = .dict []) :
    Reworded form (.write key v) (.write key' v')
  | visit (child : NodeId) (path : Path) : Reworded form (.visit child path) (.visit child path)
  | property (name : String) (child : NodeId) :
    Reworded form (.property name child) (.property name child)
  | require (shape : List (String × NodeId)) : Reworded form (.require shape) (.require shape)
  | inherit (child : NodeId) (path : Path) :
    Reworded form (.inherit child path) (.inherit child path)
  | inheritResolved (path : Path) : Reworded form (.inheritResolved path) (.inheritResolved path)
  | prefault {v : Value} (h : v.isPlain = true) : Reworded form (.prefault v) (.prefault v)
  | fail (f : Failure) : Reworded form (.fail f) (.fail f)

section Steps

variable {form : Spelling} {node : Node} {path : Path} {step : Step} {key : String} {v : Value}

namespace Step

/-- Data is written in the same way in both dialects. -/
theorem reworded_data (hkey : key ∉ dialectKeywords) (hproperties : key ≠ "properties")
    (hv : v.isPlain = true) : (write key v).Reworded form (write key v) :=
  .write (.same (Value.neutral_str.mpr hkey) (.data _ hv)) fun h => absurd h hproperties

/-- So is the schema of another node. -/
theorem reworded_schema (hkey : key ∈ ["additionalProperties", "propertyNames"]) (n : NodeId) :
    (write key (.fragment n)).Reworded form (write key (.fragment n)) := by
  refine .write (.same (Value.neutral_str.mpr fun h => ?_) (.schema n hkey)) fun h => ?_
  · revert hkey h
    have hapart : ∀ key ∈ dialectKeywords, key ∉ ["additionalProperties", "propertyNames"] := by
      decide
    exact fun hkey h => hapart _ h hkey
  · rw [h] at hkey
    exact absurd hkey (by decide)

/-- A bound is written alike, under any keyword that dialects spell alike. -/
theorem reworded_numberKeyword (hkey : key ∉ dialectKeywords) (hproperties : key ≠ "properties")
    (h : step ∈ numberKeyword key v) : step.Reworded form step := by
  unfold numberKeyword at h
  split at h
  · rename_i hv
    obtain rfl := List.mem_singleton.mp h
    exact reworded_data hkey hproperties (Value.isPlain_of_number? hv)
  · cases h

/-- Children are visited under the same key in both dialects. -/
theorem reworded_visitSteps {children : List NodeId} (h : step ∈ visitSteps key children path) :
    step.Reworded form step := by
  obtain ⟨e, -, rfl⟩ := List.mem_map.mp h
  exact .visit _ _

end Step

open Step

/-- Alternatives stand under a key that is taken over. -/
theorem reworded_alternatives {xs : List Value} (h : ∀ x ∈ xs, x.Schematic) :
    (write "anyOf" (.list xs)).Reworded form (write "anyOf" (.list xs)) :=
  .write (.same (Value.neutral_str.mpr (by decide)) (.alternatives h)) nofun

/-- The rules of all kinds but tuples write the same in both dialects. -/
theorem reworded_kindSteps (hp : node.Plain) {settings : LoweringSettings}
    {catchall : Option Kind} (hkind : node.kind ≠ .tuple)
    (h : step ∈ kindSteps settings catchall node path) :
    step.Reworded node.kind.spelling step := by
  have hdata : ∀ key ∈ dataKeywords, key ∉ dialectKeywords ∧ key ≠ "properties" := by decide
  cases byRule_kindSteps h with
  | data hkey hv => exact reworded_data (hdata _ hkey).1 (hdata _ hkey).2 (hp.yields hv)
  | fail => exact .fail _
  | visit => exact .visit _ _
  | inherit => exact .inherit _ _
  | inheritResolved => exact .inheritResolved _
  | property => exact .property _ _
  | require => exact .require _
  | properties => exact .write (.same (Value.neutral_str.mpr (by decide)) (.data _ rfl)) fun _ => rfl
  | closed => exact reworded_data (by decide) (by decide) rfl
  | schema _ hkey => exact reworded_schema hkey _
  | default _ hv => exact reworded_data (by decide) (by decide) (hp.yields hv)
  | prefault _ hv => exact .prefault (hp.yields hv)
  | options =>
    refine reworded_alternatives fun x hx => ?_
    obtain ⟨child, -, rfl⟩ := List.mem_map.mp hx
    exact .fragment child
  | nullable =>
    refine reworded_alternatives (List.forall_mem_cons.mpr ⟨.fragment _, ?_⟩)
    exact List.forall_mem_cons.mpr ⟨.null, List.forall_mem_nil _⟩
  -- Arrays and intersections write a special keyword, with the same in both dialects.
  | items harray =>
    rw [harray]
    exact .write (.items _) fun h => absurd h (by decide)
  | sides hsides =>
    rw [hsides]
    exact .write (.sides _) fun h => absurd h (by decide)
  -- The tuple is the one kind whose rule asks for the dialect.
  | leading htuple | rest htuple => exact absurd htuple hkind

/-- The items of a tuple are written under other keywords in the second dialect. -/
theorem reworded_tupleSteps (node : Node) (path : Path) :
    List.Forall₂ (Step.Reworded .tuple) (tupleSteps node .draft2020 path)
      (tupleSteps node .draft7 path) := by
  have hvisits : List.Forall₂ (Step.Reworded .tuple) (visitSteps "prefixItems" node.items path)
      (visitSteps "prefixItems" node.items path) :=
    List.forall₂_same.mpr fun _ h => reworded_visitSteps h
  have hnumber : ∀ key v, key ∉ dialectKeywords → key ≠ "properties" →
      List.Forall₂ (Step.Reworded .tuple) (numberKeyword key v) (numberKeyword key v) :=
    fun key v hkey hproperties =>
      List.forall₂_same.mpr fun _ h => reworded_numberKeyword hkey hproperties h
  unfold tupleSteps
  simp only [List.append_assoc]
  refine List.rel_append (.cons (reworded_data (by decide) (by decide) rfl) .nil)
    (List.rel_append hvisits (List.rel_append (.cons (.write (.leading _) nofun) .nil)
      (List.rel_append ?_ (List.rel_append (hnumber _ _ (by decide) (by decide))
        (hnumber _ _ (by decide) (by decide))))))
  split
  · exact .nil
  · exact .cons (.visit _ _) (.cons (.write (.rest _) nofun) .nil)

end Steps

/-! ### Visits -/

/-- What a visit holds in two dialects, before emission. -/
structure Visit.Reworded (form : Spelling) (v w : Visit) : Prop where
  fragment : v.fragment.Reworded none refersNowhere form w.fragment
  distinct : v.fragment.Distinct
  target : w.target = v.target
  prefault : w.prefault = v.prefault
  plain : v.prefault.isPlain = true

/-- The properties of an object, as far as they are written: each stands for a node. -/
def Entries.OpenProperties (e : Entries) : Prop :=
  ∀ x, e.get? "properties" = some x →
    ∃ es : Entries, x = .dict es ∧ ∀ p ∈ es, ∃ n, p.2 = .fragment n

section Replay

variable {form : Spelling} {required : List (String × NodeId) → Option (List String)}
  {answer : Option Resolved} {v w v' w' : Visit} {step step' : Step}

/-- One more property in both dialects. -/
theorem Entries.Reworded.putProperty {es fs : Entries} (h : es.Reworded none refersNowhere form fs)
    (hopen : es.OpenProperties) (name : String) (child : NodeId) :
    (Conversion.putProperty name child es).Reworded none refersNowhere form
        (Conversion.putProperty name child fs) ∧
      (Conversion.putProperty name child es).OpenProperties := by
  have hneutral : (Value.str "properties").Neutral := Value.neutral_str.mpr (by decide)
  -- Both sides find the same properties, all of them fragments, and add the same one.
  obtain ⟨old, hall, hes, hfs⟩ : ∃ old : Entries, (∀ p ∈ old, ∃ n, p.2 = .fragment n) ∧
      Conversion.putProperty name child es =
        Entries.set "properties" (.dict (old.set (.str name) (.fragment child))) es ∧
      Conversion.putProperty name child fs =
        Entries.set "properties" (.dict (old.set (.str name) (.fragment child))) fs := by
    unfold Conversion.putProperty
    rw [h.get? hneutral]
    cases hget : es.get? "properties" with
    | none => exact ⟨[], nofun, rfl, rfl⟩
    | some x =>
      obtain ⟨old, rfl, hall⟩ := hopen x hget
      exact ⟨old, hall, rfl, rfl⟩
  have hall' : ∀ p ∈ old.set (.str name) (.fragment child), ∃ n, p.2 = .fragment n := by
    intro p hp
    rcases Entries.mem_set hp with hp | ⟨hv, -, -⟩
    · exact hall p hp
    · exact ⟨child, hv⟩
  rw [hes, hfs]
  refine ⟨h.set (.same hneutral (.properties hall')), fun x hx => ?_⟩
  rw [Entries.get?_set_self] at hx
  cases hx
  exact ⟨_, rfl, hall'⟩

/-- What steps write in two dialects. -/
theorem Visit.Reworded.replay (h : v.Reworded form w) (hopen : v.fragment.OpenProperties)
    (hstep : step.Reworded form step') (hv : Step.replay required answer v step = some v')
    (hw : Step.replay required answer w step' = some w') :
    v'.Reworded form w' ∧ v'.fragment.OpenProperties := by
  -- Writes go to corresponding keywords; everything else is the same step on both sides.
  cases hstep with
  | @write key key' x x' hentry hproperties =>
    cases hv
    cases hw
    refine ⟨⟨h.fragment.set hentry, h.distinct.set _ _, h.target, h.prefault, h.plain⟩,
      fun y hy => ?_⟩
    rw [Entries.get?_set_str] at hy
    split at hy
    · rename_i hkey
      cases hy
      exact ⟨[], hproperties hkey.symm, nofun⟩
    · exact hopen y hy
  | property name child =>
    cases hv
    cases hw
    obtain ⟨hfragment, hopen'⟩ := h.fragment.putProperty hopen name child
    exact ⟨⟨hfragment, h.distinct.set _ _, h.target, h.prefault, h.plain⟩, hopen'⟩
  | require shape =>
    obtain ⟨names, hnames, rfl⟩ := Step.replay_require.mp hv
    obtain ⟨names', hnames', rfl⟩ := Step.replay_require.mp hw
    obtain rfl := Option.some.inj (hnames.symm.trans hnames')
    refine ⟨⟨h.fragment.set
        (.same (Value.neutral_str.mpr (by decide)) (.data _ (Value.isPlain_names names))),
      h.distinct.set _ _, h.target, h.prefault, h.plain⟩, fun y hy => ?_⟩
    rw [Entries.get?_set_str, if_neg (by decide)] at hy
    exact hopen y hy
  | inheritResolved path =>
    obtain ⟨child, hchild, rfl⟩ := Step.replay_inheritResolved.mp hv
    obtain ⟨child', hchild', rfl⟩ := Step.replay_inheritResolved.mp hw
    obtain rfl := Resolved.node.inj (Option.some.inj (hchild.symm.trans hchild'))
    exact ⟨⟨h.fragment, h.distinct, rfl, h.prefault, h.plain⟩, hopen⟩
  | inherit child path =>
    cases hv
    cases hw
    exact ⟨⟨h.fragment, h.distinct, rfl, h.prefault, h.plain⟩, hopen⟩
  | prefault hplain =>
    cases hv
    cases hw
    exact ⟨⟨h.fragment, h.distinct, h.target, rfl, hplain⟩, hopen⟩
  | visit child path =>
    cases hv
    cases hw
    exact ⟨h, hopen⟩
  | fail f => cases hv

/-- Reworded steps take reworded visits to reworded visits: induction on the steps, with the
    properties kept open on the way. -/
theorem Visit.Reworded.replayAll {steps steps' : List Step} (h : v.Reworded form w)
    (hopen : v.fragment.OpenProperties)
    (hsteps : List.Forall₂ (Step.Reworded form) steps steps')
    (hv : Step.replayAll required answer steps v = some v')
    (hw : Step.replayAll required answer steps' w = some w') : v'.Reworded form w' := by
  induction hsteps generalizing v w with
  | nil =>
    cases hv
    cases hw
    exact h
  | cons hstep _ ih =>
    obtain ⟨u, hu, hv⟩ := Step.replayAll_cons.mp hv
    obtain ⟨x, hx, hw⟩ := Step.replayAll_cons.mp hw
    obtain ⟨hux, hopen'⟩ := h.replay hopen hstep hu hx
    exact ih hux hopen' hv hw

/-- Annotations keep visits reworded if they are data and leave the special keywords alone. -/
theorem Visit.Reworded.annotated (h : v.Reworded form w) {notes : Option Entries}
    (hnotes : ∀ es, notes = some es → ∀ p ∈ es, p.1.Neutral ∧ p.2.isPlain = true) :
    (v.annotated notes).Reworded form (w.annotated notes) := by
  cases notes with
  | none => exact h
  | some es =>
    exact ⟨h.fragment.update (.refl (hnotes es rfl)), h.distinct.update es, h.target, h.prefault,
      h.plain⟩

/-- The last rule of a visit, which turns `not` of an empty fragment and the like, treats both
    visits alike. -/
theorem Visit.Reworded.settled (h : v.Reworded form w) (side : Side) (kind : Kind) :
    (v.settled side kind).Reworded form (w.settled side kind) := by
  have hexamples : (Value.str "examples").Neutral := Value.neutral_str.mpr (by decide)
  have hneutral : (Value.str "default").Neutral := Value.neutral_str.mpr (by decide)
  unfold Visit.settled
  split
  · unfold Conversion.settleDefault
    -- the fragments before a default found on the way is put in
    have hkept :
        (if kind = .pipe then (v.fragment.erase "examples").erase "default"
            else v.fragment).Reworded none refersNowhere form
            (if kind = .pipe then (w.fragment.erase "examples").erase "default" else w.fragment) ∧
          (if kind = .pipe then (v.fragment.erase "examples").erase "default"
            else v.fragment).Distinct := by
      split
      · exact ⟨(h.fragment.erase hexamples).erase hneutral,
          (h.distinct.erase "examples").erase "default"⟩
      · exact ⟨h.fragment, h.distinct⟩
    dsimp only
    revert hkept
    generalize (if kind = .pipe then _ else v.fragment) = e
    generalize (if kind = .pipe then _ else w.fragment) = f
    rintro ⟨hfragment, hdistinct⟩
    rw [hfragment.get? hneutral, h.prefault]
    split
    · exact ⟨hfragment.set (.same hneutral (.data _ h.plain)), hdistinct.set _ _, h.target, rfl,
        h.plain⟩
    · exact ⟨hfragment, hdistinct, h.target, rfl, h.plain⟩
  · exact h

/-- Keywords that are written stay. -/
theorem Step.has_replay {key : Value} (h : v.fragment.has key = true)
    (hv : Step.replay required answer v step = some v') : v'.fragment.has key = true := by
  cases step with
  | write name x =>
    cases hv
    exact Entries.has_set h _ _
  | merge entries =>
    cases hv
    exact Entries.has_update h _
  | property name child =>
    cases hv
    exact Entries.has_set h _ _
  | require shape =>
    obtain ⟨names, -, rfl⟩ := replay_require.mp hv
    exact Entries.has_set h _ _
  | inheritResolved path =>
    obtain ⟨child, -, rfl⟩ := replay_inheritResolved.mp hv
    exact h
  | fail f => cases hv
  | visit | inherit | inheritSource | prefault =>
    cases hv
    exact h

/-- A keyword that one of the steps writes is there behind them. -/
theorem Step.has_replayAll {name : String} {steps : List Step}
    (h : v.fragment.has (.str name) = true ∨ ∃ x, Step.write name x ∈ steps)
    (hv : Step.replayAll required answer steps v = some v') :
    v'.fragment.has (.str name) = true := by
  induction steps generalizing v with
  | nil =>
    cases hv
    exact h.resolve_right nofun
  | cons step rest ih =>
    obtain ⟨u, hu, hv⟩ := replayAll_cons.mp hv
    refine ih ?_ hv
    -- The key was there, or the step at hand writes it, or a later one does.
    rcases h with h | ⟨x, hmem⟩
    · exact .inl (Step.has_replay h hu)
    · rcases List.mem_cons.mp hmem with rfl | hmem
      · cases hu
        refine .inl ?_
        unfold Entries.has
        rw [Entries.get?_set_self]
        rfl
      · exact .inr ⟨x, hmem⟩

end Replay

/-! ### Contents -/

/-- What a node carries and what is supplied for it is data, and none of it stands under a keyword
    that dialects spell differently. -/
structure Store.Neutral (s : Store) (catalog : String) (n : NodeId) : Prop where
  plain : ∀ node, s.node? n = some node → node.Plain
  supplied : ∀ es, s.Supplied catalog n es → ∀ p ∈ es, p.2.isPlain = true
  spared : ∀ es, s.Supplied catalog n es → ∀ name ∈ dialectKeywords, es.get? (.str name) = none

namespace Store

variable {s : Store} {guide : Guide} {links : Nat} {n : NodeId} {v w : Visit} {es : Entries}

/-- Whatever is supplied for a node of a neutral store is data under neutral keywords. -/
theorem Neutral.entries {catalog : String} (h : s.Neutral catalog n)
    (hes : s.Supplied catalog n es) :
    ∀ p ∈ es, p.1.Neutral ∧ p.2.isPlain = true := by
  refine fun p hp => ⟨Value.neutral_of_ne fun name hname hkey => ?_, h.supplied es hes p hp⟩
  exact Entries.canonical_ne_of_get? (h.spared es hes name hname) hp (by rw [hkey])

/-- Where no node has a lowering of its own, all nodes are neutral that carry data and are annotated
    with data under neutral keys. -/
theorem Neutral.of_forall {catalog : String}
    (hnodes : ∀ node ∈ s.nodes, node.lowering = .null ∧ ∀ v ∈ node.carried, v.isPlain = true)
    (hnotes : ∀ p ∈ (s.catalog catalog).entries, (∀ q ∈ p.2, q.2.isPlain = true) ∧
      ∀ name ∈ dialectKeywords, p.2.get? (.str name) = none) (n : NodeId) :
    s.Neutral catalog n := by
  have hmem : ∀ {node}, s.node? n = some node → node ∈ s.nodes := by
    intro node hn
    cases n with
    | gap => cases hn
    | node i => exact List.mem_of_getElem? hn
  have hsupplied : ∀ es, s.Supplied catalog n es → (n, es) ∈ (s.catalog catalog).entries := by
    rintro es (⟨node, v, hn, hcall, -⟩ | hnote)
    · rw [(hnodes node (hmem hn)).1] at hcall
      cases hcall
    · exact Catalog.mem_of_get? hnote
  exact
    { plain := fun node hn => (hnodes node (hmem hn)).2
      supplied := fun es hes => (hnotes _ (hsupplied es hes)).1
      spared := fun es hes => (hnotes _ (hsupplied es hes)).2 }

/-- A node that passes content on writes none of the special keywords. -/
theorem spelling_of_passes {side : Side} {node : Node} {lead : Lead}
    (h : node.passes? side = some lead) : node.spelling = .neutral := by
  unfold Node.passes? at h
  unfold Node.spelling
  split at h
  · cases h
  · split at h
    · rename_i hp
      rw [if_pos (.inr hp)]
    · split
      · rfl
      · split at h <;> rename_i hk <;> first | (rw [hk]; rfl) | cases h

/-- What a tuple contributes holds the keyword for its items. -/
theorem has_prefixItems {node : Node} (htarget : guide.settings.target = .draft2020)
    (hn : s.node? n = some node) (hspelling : node.spelling = .tuple)
    (hv : s.contents? guide links n = some v) : v.fragment.has (.str "prefixItems") = true := by
  obtain ⟨hplain, hkind⟩ : ¬ (node.lowering ≠ .null ∨ node.parent ≠ .gap) ∧ node.kind = .tuple := by
    unfold Node.spelling at hspelling
    split at hspelling
    · cases hspelling
    · rename_i hplain
      refine ⟨hplain, ?_⟩
      revert hspelling
      cases node.kind <;> first | exact fun _ => rfl | exact nofun
  obtain ⟨node', u, hn', hu, rfl⟩ := contents?_eq_some.mp hv
  obtain rfl := Option.some.inj (hn.symm.trans hn')
  -- The rule of tuples writes it, and nothing takes a keyword away.
  have hwrite : ∃ x, Step.write "prefixItems" x ∈
      node.recipe guide.settings (s.catchallKind node) [] := by
    unfold Node.recipe
    rw [if_neg (not_or.mp hplain).1, if_neg (not_or.mp hplain).2]
    simp only [kindSteps, hkind, htarget]
    exact ⟨fragments node.items, by simp [tupleSteps]⟩
  have hrecipe := Step.has_replayAll (.inr hwrite) hu
  unfold Entries.has
  rw [Visit.get?_settled_of_ne (by decide) (by decide)]
  unfold Visit.annotated
  split
  · exact Entries.has_update hrecipe _
  · exact hrecipe

/-- What the recipe of a node writes, before annotations and defaults. -/
theorem reworded_recipe {node : Node} {catchall : Option Kind} {answer : Option Resolved}
    {required : List (String × NodeId) → Option (List String)} (h : s.Neutral guide.catalog n)
    (hn : s.node? n = some node) (htarget : guide.settings.target = .draft2020)
    (hv : Step.replayAll required answer (node.recipe guide.settings catchall []) {} = some v)
    (hw : Step.replayAll required answer
      (node.recipe (guide.inDialect .draft7).settings catchall []) {} = some w) :
    v.Reworded node.spelling w := by
  unfold Node.recipe at hv hw
  unfold Node.spelling
  by_cases hl : node.lowering ≠ .null
  · rw [if_pos hl] at hv hw
    rw [if_pos (.inl hl)]
    cases hv.symm.trans hw
    unfold loweringSteps at hv
    split at hv
    · cases hv
    · rename_i value hcall
      have hmerged := h.entries (.inl ⟨node, value, hn, hcall, rfl⟩)
      dsimp only at hv
      split at hv <;> cases hv
      exact ⟨Entries.Reworded.nil.update (.refl hmerged), Entries.Distinct.update .nil _,
        rfl, rfl, rfl⟩
  rw [if_neg hl] at hv hw
  by_cases hp : node.parent ≠ .gap
  · rw [if_pos hp] at hv hw
    rw [if_pos (.inr hp)]
    cases hv
    cases hw
    exact ⟨.nil, .nil, rfl, rfl, rfl⟩
  rw [if_neg hp] at hv hw
  rw [if_neg (not_or.mpr ⟨hl, hp⟩)]
  have hnew : Visit.Reworded node.kind.spelling {} {} := ⟨.nil, .nil, rfl, rfl, rfl⟩
  refine hnew.replayAll nofun ?_ hv hw
  show List.Forall₂ _ _ (kindSteps (guide.settings.inDialect .draft7) _ node [])
  -- Only the rule of tuples asks for the dialect.
  by_cases hk : node.kind = .tuple
  · simp only [kindSteps, hk]
    rw [htarget]
    exact reworded_tupleSteps node []
  · rw [kindSteps_inDialect hk]
    exact List.forall₂_same.mpr fun _ hstep => reworded_kindSteps (h.plain node hn) hk hstep

/-- **Contents.** What a node contributes is the same in two dialects, but for the keywords of
    tuples. -/
theorem contents?_reworded (h : s.Neutral guide.catalog n)
    (htarget : guide.settings.target = .draft2020) (hv : s.contents? guide links n = some v)
    (hw : s.contents? (guide.inDialect .draft7) links n = some w) :
    ∃ node, s.node? n = some node ∧ v.Reworded node.spelling w := by
  obtain ⟨node, u, hn, hu, rfl⟩ := contents?_eq_some.mp hv
  obtain ⟨node', x, hn', hx, rfl⟩ := contents?_eq_some.mp hw
  obtain rfl := Option.some.inj (hn.symm.trans hn')
  -- The annotation and the default are the same in both dialects; only the recipes differ.
  have hrecipe : u.Reworded node.spelling x := reworded_recipe h hn htarget hu hx
  refine ⟨node, hn, (hrecipe.annotated fun es hes => ?_).settled _ _⟩
  exact h.entries (.inr hes)

end Store

end SchemaGraph
