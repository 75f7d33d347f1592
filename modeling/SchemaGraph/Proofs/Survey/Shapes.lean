import SchemaGraph.Proofs.Survey.Lowering
import SchemaGraph.Proofs.Value.Shown

namespace SchemaGraph

/-!
# The shape of contents

What a node contributes has texts as keys, each once.  Under the keywords that hold schemas
stand fragments of nodes that it leads to, or data without references.  A node that passes
content on leaves `allOf` to it.

* `Entries.Supplies`   — what annotations and custom lowerings must be like
* `Node.Plain`         — the values of a node point at nothing
* `Entries.Shaped`     — the shape of what a node contributes
* `Store.contents?_shaped` — what a node contributes has this shape
-/

/-- The keywords that no rule writes. -/
def outsideKeywords : List String := ["$ref", "$schema", "$defs", "definitions", "id"]

/-- The keywords that only emission writes. -/
def emittedKeywords : List String := ["$ref", "$schema"]

/-- The keywords that an emission writes are none that nodes contribute. -/
theorem emittedKeywords_subset : emittedKeywords ⊆ outsideKeywords := by decide

/-- Annotations and custom lowerings supply data under texts as keys, each once; they supply
    neither references nor the keywords that only emission writes. -/
structure Entries.Supplies (es : Entries) : Prop where
  texts : es.Texts
  distinct : es.Distinct
  plain : ∀ p ∈ es, p.2.isPlain = true
  free : ∀ {key v}, (.str key, v) ∈ es → ∀ j, v.toJson = .ok j → j.refFree (.of key) = true
  keys : ∀ {key v}, (.str key, v) ∈ es → key ∉ emittedKeywords

namespace Value

/-- What stands in place of a schema: the fragment of a node, or data without references. -/
inductive Element (reach : NodeId → Prop) : Value → Prop
  | fragment {n : NodeId} (h : reach n) : Element reach (.fragment n)
  | data {v : Value} (hp : v.isPlain = true)
      (hfree : ∀ j, v.toJson = .ok j → j.refFree .schemas = true) : Element reach v

/-- What stands under a keyword.  A list of schemas starts with that of a node; under `allOf`
    there is never a single one. -/
inductive Fits (reach : NodeId → Prop) (key : String) : Value → Prop
  | data {v : Value} (hp : v.isPlain = true)
      (hfree : ∀ j, v.toJson = .ok j → j.refFree (.of key) = true) : Fits reach key v
  | fragment {n : NodeId} (hrole : Role.of key = .schemas) (hkey : key ≠ "allOf")
      (h : reach n) : Fits reach key (.fragment n)
  | list {xs : List Value} (hrole : Role.of key = .schemas)
      (hkey : key = "allOf" → xs.length ≠ 1) (hhead : ∀ x ∈ xs.head?, ∃ n, x = .fragment n)
      (h : ∀ x ∈ xs, Element reach x) : Fits reach key (.list xs)
  | members {es : Entries} (hrole : Role.of key = .members) (ht : es.Texts) (hd : es.Distinct)
      (h : ∀ p ∈ es, ∃ n, p.2 = .fragment n ∧ reach n) : Fits reach key (.dict es)

variable {reach : NodeId → Prop} {key : String}

/-- An element stays one where more nodes are reached. -/
theorem Element.mono {more : NodeId → Prop} (hsub : ∀ n, reach n → more n) {v : Value}
    (h : Element reach v) : Element more v := by
  cases h with
  | fragment h => exact .fragment (hsub _ h)
  | data hp hfree => exact .data hp hfree

/-- What fits a keyword fits it where more nodes are reached. -/
theorem Fits.mono {more : NodeId → Prop} (hsub : ∀ n, reach n → more n) {v : Value}
    (h : Fits reach key v) : Fits more key v := by
  cases h with
  | data hp hfree => exact .data hp hfree
  | fragment hrole hkey h => exact .fragment hrole hkey (hsub _ h)
  | list hrole hkey hhead h => exact .list hrole hkey hhead fun x hx => (h x hx).mono hsub
  | members hrole ht hd h =>
    refine .members hrole ht hd fun p hp => ?_
    obtain ⟨n, hn, hreach⟩ := h p hp
    exact ⟨n, hn, hsub n hreach⟩

/-- Data stands under every keyword that holds no schemas. -/
theorem Fits.of_data {v : Value} (hrole : Role.of key = .data) (hp : v.isPlain = true) :
    Fits reach key v := by
  refine .data hp fun j _ => ?_
  rw [hrole]
  cases j <;> rfl

/-- Numbers point at nothing. -/
theorem isPlain_of_number? {v : Value} (h : v.number?.isSome) : v.isPlain = true := by
  cases v <;> first | rfl | cases h

/-- A list is plain exactly if all its values are. -/
theorem allPlain_iff {xs : List Value} :
    allPlain xs = true ↔ ∀ v ∈ xs, v.isPlain = true := by
  induction xs with
  | nil => simp [allPlain]
  | cons v rest ih => simp [allPlain, ih]

/-- A list of names is plain. -/
theorem isPlain_names (names : List String) : (Value.list (names.map Value.str)).isPlain = true := by
  refine allPlain_iff.mpr fun x hx => ?_
  obtain ⟨s, -, rfl⟩ := List.mem_map.mp hx
  rfl

/-- A mapping is plain exactly if all its values are. -/
theorem entriesPlain_iff {es : List (Value × Value)} :
    entriesPlain es = true ↔ ∀ p ∈ es, p.2.isPlain = true := by
  induction es with
  | nil => simp [entriesPlain]
  | cons p rest ih => simp [entriesPlain, ih]

/-- What a function returns has a property, if the function has it or returns what has it anyway. -/
theorem of_call {P : Value → Prop} (hconstant : ∀ mark v, P (.constant mark v) → P v)
    (hnull : P .null) (hclass : P (.foreign .classObject)) {f v : Value} (hf : P f)
    {argument : Option Value} (harg : ∀ a ∈ argument, P a) (h : f.call argument = .ok v) : P v := by
  unfold call at h
  split at h
  · cases h
    exact hconstant _ _ hf
  · cases h
    exact hnull
  · cases h
  · unfold required at h
    split at h
    · simp only [bind, Except.bind, readAttribute] at h
      split at h <;> cases h
      exact hclass
    · cases h
  · unfold required at h
    split at h <;> cases h
    exact harg _ rfl
  · cases h

/-- What a function returns points at nothing, if neither does the function. -/
theorem isPlain_call {f v : Value} (hf : f.isPlain = true) {argument : Option Value}
    (harg : ∀ a ∈ argument, a.isPlain = true) (h : f.call argument = .ok v) :
    v.isPlain = true :=
  of_call (P := fun v => v.isPlain = true) (fun _ _ h => h) rfl rfl hf harg h

/-- What a plain function returns is plain. -/
theorem isPlain_produced {f v : Value} (hf : f.isPlain = true) (h : f.produced = .ok v) :
    v.isPlain = true := by
  unfold produced at h
  split at h
  · exact isPlain_call hf (fun _ ha => by cases ha) h
  · cases h
    exact hf

end Value

/-- The values that a node carries point at nothing.  Pointers come about in conversions
    only. -/
def Node.Plain (node : Node) : Prop := ∀ v ∈ node.carried, v.isPlain = true

/-! ### Steps -/

/-- A step writes what may stand under its keyword.  The properties of an object are written
    one by one. -/
def Step.Fits (reach : NodeId → Prop) : Step → Prop
  | .write key v => key ∉ outsideKeywords ∧ v.Fits reach key ∧ (key = "properties" → v = .dict [])
  | .merge _ => False
  | .property _ child => reach child
  | .prefault v => v.isPlain = true
  | _ => True

section Steps

variable {reach : NodeId → Prop}

/-- Data may be written under every keyword that neither holds schemas nor is reserved. -/
theorem Step.fits_write {key : String} {v : Value} (hkey : key ∉ outsideKeywords)
    (hrole : Role.of key = .data) (hp : v.isPlain = true) : (write key v).Fits reach := by
  refine ⟨hkey, .of_data hrole hp, fun h => ?_⟩
  subst h
  cases hrole

/-- The fragments of several children under a keyword. -/
theorem fits_fragments {key : String} {children : List NodeId} (hkey : key ∉ outsideKeywords)
    (hrole : Role.of key = .schemas) (hone : key = "allOf" → children.length ≠ 1)
    (h : ∀ child ∈ children, reach child) : (Step.write key (fragments children)).Fits reach := by
  refine ⟨hkey, .list hrole (fun hall => ?_) (fun x hx => ?_) fun x hx => ?_,
    fun hproperties => ?_⟩
  · rw [List.length_map]
    exact hone hall
  · rw [List.head?_map] at hx
    obtain ⟨child, -, rfl⟩ := Option.map_eq_some_iff.mp hx
    exact ⟨child, rfl⟩
  · obtain ⟨child, hchild, rfl⟩ := List.mem_map.mp hx
    exact .fragment (h child hchild)
  · subst hproperties
    cases hrole

/-- The fragment of a child under a keyword. -/
theorem fits_child {key : String} {child : NodeId} (hkey : key ∉ outsideKeywords)
    (hrole : Role.of key = .schemas) (hall : key ≠ "allOf") (h : reach child) :
    (Step.write key (.fragment child)).Fits reach := by
  refine ⟨hkey, .fragment hrole hall h, fun hproperties => ?_⟩
  subst hproperties
  cases hrole

/-- The values that the rules make of what a plain node carries are plain. -/
theorem Node.Plain.yields {node : Node} (hp : node.Plain) {v : Value} (h : node.Yields v) :
    v.isPlain = true := by
  induction h with
  | text | flag | nothing => rfl
  | number hv => exact Value.isPlain_of_number? hv
  | carried hv => exact hp _ hv
  | list _ ih => exact Value.allPlain_iff.mpr ih
  | produced hv => exact Value.isPlain_produced (hp _ (by simp [Node.carried])) hv
  | called hv =>
    refine Value.isPlain_call (hp _ (by simp [Node.carried])) (fun a ha => ?_) hv
    cases ha
    rfl

/-- The rules for the kinds write what may stand under keywords, if the children of the node
    are reached. -/
theorem fits_kindSteps {settings : LoweringSettings} {catchall : Option Kind} {node : Node}
    {path : Path} (hp : node.Plain)
    (hreach : ∀ child, .child child ∈ node.kindLeads settings.side catchall → reach child)
    {step : Step} (h : step ∈ kindSteps settings catchall node path) : step.Fits reach := by
  have hdata : ∀ key ∈ dataKeywords, key ∉ outsideKeywords ∧ Role.of key = .data := by decide
  cases byRule_kindSteps h with
  | data hkey hv => exact Step.fits_write (hdata _ hkey).1 (hdata _ hkey).2 (hp.yields hv)
  | property _ hchild => exact hreach _ hchild
  | properties => exact ⟨by decide, .members (by decide) nofun .nil nofun, fun _ => rfl⟩
  | closed =>
    refine ⟨by decide, .data rfl fun j hj => ?_, by decide⟩
    cases hj
    rfl
  | schema _ hkey hchild =>
    have hschema : ∀ key ∈ ["additionalProperties", "propertyNames"],
        key ∉ outsideKeywords ∧ Role.of key = .schemas ∧ key ≠ "allOf" := by decide
    obtain ⟨hout, hrole, hall⟩ := hschema _ hkey
    exact fits_child hout hrole hall (hreach _ hchild)
  | items hkind =>
    exact fits_child (by decide) (by decide) (by decide) (hreach _ (by simp [Node.kindLeads, hkind]))
  | rest hkind hkey hgap =>
    have hschema : ∀ key ∈ ["items", "additionalItems"],
        key ∉ outsideKeywords ∧ Role.of key = .schemas ∧ key ≠ "allOf" := by decide
    obtain ⟨hout, hrole, hall⟩ := hschema _ hkey
    refine fits_child hout hrole hall (hreach _ ?_)
    simp [Node.kindLeads, hkind, NodeId.leads, hgap]
  | leading hkind hkey =>
    have hschemas : ∀ key ∈ ["prefixItems", "items"],
        key ∉ outsideKeywords ∧ Role.of key = .schemas ∧ key ≠ "allOf" := by decide
    obtain ⟨hout, hrole, hall⟩ := hschemas _ hkey
    refine fits_fragments hout hrole (fun h => absurd h hall) fun child hchild => hreach _ ?_
    simp [Node.kindLeads, hkind, hchild]
  | options hkind =>
    refine fits_fragments (by decide) (by decide) (fun h => absurd h (by decide))
      fun child hchild => hreach _ ?_
    simpa [Node.kindLeads, hkind] using hchild
  | sides hkind =>
    refine fits_fragments (by decide) (by decide) (fun _ => Nat.succ_succ_ne_one 0)
      fun child hchild => hreach _ ?_
    simpa [Node.kindLeads, hkind] using hchild
  -- An inner node beside data: the only list of alternatives that holds both.
  | nullable hkind =>
    refine ⟨by decide, .list (by decide) (fun h => absurd h (by decide)) (fun x hx => ?_) ?_,
      fun h => absurd h (by decide)⟩
    · cases hx
      exact ⟨_, rfl⟩
    refine List.forall_mem_cons.mpr ⟨.fragment (hreach _ (by simp [Node.kindLeads, hkind])), ?_⟩
    refine List.forall_mem_cons.mpr ⟨.data rfl fun j hj => ?_, List.forall_mem_nil _⟩
    cases hj
    rfl
  | default _ hv => exact Step.fits_write (by decide) (by decide) (hp.yields hv)
  | prefault _ hv => exact hp.yields hv
  | _ => trivial

end Steps

/-! ### Contents -/

namespace Entries

variable {reach : NodeId → Prop}

/-- What a node contributes: texts as keys, each once, and what may stand under them. -/
structure Shaped (reach : NodeId → Prop) (e : Entries) : Prop where
  texts : e.Texts
  distinct : e.Distinct
  fits : ∀ {key v}, e.get? (.str key) = some v → key ∉ emittedKeywords ∧ v.Fits reach key

/-- The properties of an object, as far as they are written: each stands for a node. -/
def PropertiesOpen (reach : NodeId → Prop) (e : Entries) : Prop :=
  ∀ v, e.get? "properties" = some v →
    ∃ es : Entries, v = .dict es ∧ es.Texts ∧ es.Distinct ∧
      ∀ p ∈ es, ∃ n, p.2 = .fragment n ∧ reach n

/-- Empty contents have the shape. -/
theorem Shaped.nil : Shaped reach [] where
  texts := nofun
  distinct := .nil
  fits h := by cases h

/-- Contents keep the shape when what fits a keyword is written under it. -/
theorem Shaped.set {e : Entries} (h : e.Shaped reach) {key : String} {v : Value}
    (hkey : key ∉ emittedKeywords) (hv : v.Fits reach key) :
    (Entries.set (.str key) v e).Shaped reach where
  texts := h.texts.set key v
  distinct := h.distinct.set _ v
  fits {other w} hw := by
    rw [get?_set_str] at hw
    split at hw
    · rename_i hother
      cases hw
      exact hother ▸ ⟨hkey, hv⟩
    · exact h.fits hw

/-- Contents keep the shape when a key is erased. -/
theorem Shaped.erase {e : Entries} (h : e.Shaped reach) (key : Value) :
    (Entries.erase key e).Shaped reach where
  texts := h.texts.erase key
  distinct := h.distinct.erase key
  fits hw := h.fits (h.distinct.get?_of_erase hw)

/-- Annotations and custom lowerings keep the shape. -/
theorem Shaped.update {e news : Entries} (h : e.Shaped reach) (hnews : news.Supplies) :
    (Entries.update e news).Shaped reach where
  texts := h.texts.update hnews.texts
  distinct := h.distinct.update news
  fits {key v} hw := by
    rcases get?_update_cases hw with ⟨k, hmem, hc⟩ | hw
    · rw [Value.canonical_str] at hc
      obtain rfl := Value.canonical_eq_str hc
      exact ⟨hnews.keys hmem, .data (hnews.plain _ hmem) (hnews.free hmem)⟩
    · exact h.fits hw

/-- Contents have the shape where more nodes are reached. -/
theorem Shaped.mono {more : NodeId → Prop} {e : Entries} (h : e.Shaped reach)
    (hsub : ∀ n, reach n → more n) : e.Shaped more where
  texts := h.texts
  distinct := h.distinct
  fits hv := ⟨(h.fits hv).1, (h.fits hv).2.mono hsub⟩

/-- Contents over other contents keep the shape. -/
theorem Shaped.merge {below own : Entries} (h : below.Shaped reach) (hown : own.Shaped reach) :
    (below.update own).Shaped reach where
  texts := h.texts.update hown.texts
  distinct := h.distinct.update own
  fits {key v} hv := by
    rw [get?_update hown.distinct] at hv
    rcases Option.or_eq_some_iff.mp hv with hv | ⟨-, hv⟩
    · exact hown.fits hv
    · exact h.fits hv

/-- One more property keeps the shape. -/
theorem Shaped.putProperty {e : Entries} (h : e.Shaped reach) (hopen : e.PropertiesOpen reach)
    {name : String} {child : NodeId} (hchild : reach child) :
    (Conversion.putProperty name child e).Shaped reach ∧
      (Conversion.putProperty name child e).PropertiesOpen reach := by
  -- The properties so far are none, or fragments under texts.
  obtain ⟨es, hes, ht, hd, hall⟩ : ∃ es : Entries,
      Conversion.putProperty name child e
        = Entries.set "properties" (.dict (es.set (.str name) (.fragment child))) e ∧
      es.Texts ∧ es.Distinct ∧ ∀ p ∈ es, ∃ n, p.2 = .fragment n ∧ reach n := by
    unfold Conversion.putProperty
    cases hget : e.get? "properties" with
    | none => exact ⟨[], rfl, nofun, .nil, nofun⟩
    | some v =>
      obtain ⟨es, rfl, hes⟩ := hopen v hget
      exact ⟨es, rfl, hes⟩
  have hmembers : ∀ p ∈ Entries.set (.str name) (.fragment child) es,
      ∃ n, p.2 = .fragment n ∧ reach n := by
    intro p hp
    rcases mem_set hp with hp | ⟨hv, -, -⟩
    · exact hall p hp
    · exact ⟨child, hv, hchild⟩
  rw [hes]
  refine ⟨h.set (by decide) (.members (by decide) (ht.set name _) (hd.set _ _) hmembers),
    fun v hv => ?_⟩
  rw [get?_set_self] at hv
  cases hv
  exact ⟨_, rfl, ht.set name _, hd.set _ _, hmembers⟩

end Entries

/-- A visit while the recipe of its node is performed. -/
structure Visit.Built (reach : NodeId → Prop) (v : Visit) : Prop where
  shaped : v.fragment.Shaped reach
  properties : v.fragment.PropertiesOpen reach
  prefault : v.prefault.isPlain = true

section Replay

variable {reach : NodeId → Prop} {required : List (String × NodeId) → Option (List String)}
  {answer : Option Resolved}

/-- A visit that is built so far stays so through a step that fits. -/
theorem Visit.Built.replay {v v' : Visit} (h : v.Built reach) {step : Step}
    (hfits : step.Fits reach) (hv : Step.replay required answer v step = some v') :
    v'.Built reach := by
  cases step with
  | write key value =>
    cases hv
    obtain ⟨hkey, hvalue, hproperties⟩ := hfits
    have hkey : key ∉ emittedKeywords := fun h => hkey (emittedKeywords_subset h)
    refine ⟨h.shaped.set hkey hvalue, fun w hw => ?_, h.prefault⟩
    rw [Entries.get?_set_str] at hw
    split at hw
    · rename_i hname
      cases hw
      exact ⟨[], hproperties hname.symm, nofun, .nil, nofun⟩
    · exact h.properties w hw
  | merge entries => exact hfits.elim
  | property name child =>
    cases hv
    obtain ⟨hshaped, hproperties⟩ := h.shaped.putProperty h.properties hfits
    exact ⟨hshaped, hproperties, h.prefault⟩
  | require shape =>
    obtain ⟨names, -, rfl⟩ := Step.replay_require.mp hv
    refine ⟨h.shaped.set (by decide) (.of_data (by decide) (Value.isPlain_names names)),
      fun w hw => ?_, h.prefault⟩
    rw [Entries.get?_set_str, if_neg (by decide)] at hw
    exact h.properties w hw
  | inheritResolved path =>
    obtain ⟨child, -, rfl⟩ := Step.replay_inheritResolved.mp hv
    exact ⟨h.shaped, h.properties, h.prefault⟩
  | prefault value =>
    cases hv
    exact ⟨h.shaped, h.properties, hfits⟩
  | fail f => cases hv
  | visit | inherit | inheritSource =>
    cases hv
    exact ⟨h.shaped, h.properties, h.prefault⟩

/-- A visit that is built so far stays so through steps that fit. -/
theorem Visit.Built.replayAll {steps : List Step} {v v' : Visit} (h : v.Built reach)
    (hfits : ∀ step ∈ steps, step.Fits reach)
    (hv : Step.replayAll required answer steps v = some v') : v'.Built reach :=
  Step.replayAll_keeps (fun step hstep _ _ hu hbuilt => hbuilt.replay (hfits step hstep) hu) hv h

/-- A step that does not write a keyword. -/
def Step.Spares (name : String) : Step → Prop
  | .write key _ => key ≠ name
  | .merge _ => False
  | .property .. => name ≠ "properties"
  | .require _ => name ≠ "required"
  | _ => True

variable {name : String}

/-- No rule writes the keywords that come from outside. -/
theorem Step.Fits.spares {step : Step} (h : step.Fits reach) (hname : name ∈ outsideKeywords) :
    step.Spares name := by
  cases step with
  | write key v =>
    rintro rfl
    exact h.1 hname
  | merge entries => exact h.elim
  | property | require =>
    rintro rfl
    revert hname
    decide
  | _ => trivial

/-- A step that spares a keyword leaves what stands under it. -/
theorem Step.get?_replay {v v' : Visit} {step : Step} (hspares : step.Spares name)
    (hv : Step.replay required answer v step = some v') :
    v'.fragment.get? (.str name) = v.fragment.get? (.str name) := by
  cases step with
  | write key value =>
    cases hv
    rw [Entries.get?_set_str, if_neg (Ne.symm hspares)]
  | merge entries => exact hspares.elim
  | property _ child =>
    cases hv
    simp only [Conversion.putProperty]
    rw [Entries.get?_set_str, if_neg hspares]
  | require shape =>
    obtain ⟨names, -, rfl⟩ := replay_require.mp hv
    rw [Entries.get?_set_str, if_neg hspares]
  | inheritResolved path =>
    obtain ⟨child, -, rfl⟩ := replay_inheritResolved.mp hv
    rfl
  | fail f => cases hv
  | visit | inherit | inheritSource | prefault =>
    cases hv
    rfl

/-- Steps that spare a keyword leave what stands under it. -/
theorem Step.get?_replayAll {steps : List Step} {v v' : Visit}
    (hspares : ∀ step ∈ steps, step.Spares name)
    (hv : Step.replayAll required answer steps v = some v') :
    v'.fragment.get? (.str name) = v.fragment.get? (.str name) :=
  replayAll_keeps (P := fun u => u.fragment.get? (.str name) = v.fragment.get? (.str name))
    (fun step hstep _ _ hu hsame => (get?_replay (hspares step hstep) hu).trans hsame) hv rfl

end Replay

/-- Only the rules for intersections write `allOf`. -/
theorem Step.ByRule.spares_allOf {settings : LoweringSettings} {catchall : Option Kind}
    {node : Node} {step : Step} (h : step.ByRule settings catchall node)
    (hkind : node.kind ≠ .intersection) : step.Spares "allOf" := by
  cases step with
  | write key v =>
    have hapart : ∀ key ∈ ruleKeywords, key ≠ "allOf" := by decide
    rcases h.keyword with hkey | ⟨-, hsides⟩ | ⟨rfl, -⟩
    · exact hapart key hkey
    · exact absurd hsides hkind
    · exact (by decide : "default" ≠ "allOf")
  | merge => cases h
  | property => exact (by decide : "allOf" ≠ "properties")
  | require => exact (by decide : "allOf" ≠ "required")
  | _ => trivial

/-- A node that passes content on leaves `allOf` to it. -/
theorem spares_allOf_recipe {settings : LoweringSettings} {catchall : Option Kind} {node : Node}
    {path : Path} {lead : Lead} (hlead : node.passes? settings.side = some lead) {step : Step}
    (h : step ∈ node.recipe settings catchall path) : step.Spares "allOf" := by
  unfold Node.passes? at hlead
  unfold Node.recipe at h
  split at hlead
  · cases hlead
  · rename_i hl
    rw [if_neg hl] at h
    split at hlead
    · rename_i hp
      rw [if_pos hp] at h
      obtain rfl := List.mem_singleton.mp h
      trivial
    · rename_i hp
      rw [if_neg hp] at h
      refine (byRule_kindSteps h).spares_allOf fun hkind => ?_
      rw [hkind] at hlead
      cases hlead

/-- Settling a default leaves a fragment, or takes examples and default out of it; then it puts a
    default in or does not. -/
theorem Visit.settled_fragment (side : Side) (kind : Kind) (v : Visit) :
    (v.settled side kind).fragment = v.fragment ∨
      ∃ e : Entries, (e = v.fragment ∨ e = (v.fragment.erase "examples").erase "default") ∧
        ((v.settled side kind).fragment = e ∨
          (v.settled side kind).fragment = e.set "default" v.prefault) := by
  unfold settled Conversion.settleDefault
  split
  · let e := if kind = .pipe then (v.fragment.erase "examples").erase "default" else v.fragment
    refine .inr ⟨e, ?_, ?_⟩
    · show (if kind = .pipe then _ else _) = _ ∨ (if kind = .pipe then _ else _) = _
      split
      · exact .inr rfl
      · exact .inl rfl
    · by_cases hset : v.prefault ≠ .undefined ∧ (e.get? "default").getD .null = .null
      · exact .inr (if_pos hset)
      · exact .inl (if_neg hset)
  · exact .inl rfl

/-- The settled default keeps the shape. -/
theorem Entries.Shaped.settled {reach : NodeId → Prop} {v : Visit} (h : v.fragment.Shaped reach)
    (side : Side) (kind : Kind) (hp : v.prefault.isPlain = true) :
    (v.settled side kind).fragment.Shaped reach := by
  rcases v.settled_fragment side kind with hsame | ⟨e, he, hset⟩
  · exact hsame ▸ h
  · have hshaped : e.Shaped reach := by
      rcases he with rfl | rfl
      · exact h
      · exact (h.erase "examples").erase "default"
    rcases hset with hset | hset
    · exact hset ▸ hshaped
    · rw [hset]
      exact hshaped.set (by decide) (.of_data (by decide) hp)

/-- The settled default leaves all other keywords alone. -/
theorem Visit.get?_settled {side : Side} {kind : Kind} {v : Visit} (hd : v.fragment.Distinct)
    {name : String} (hname : name ≠ "default") {x : Value}
    (h : (v.settled side kind).fragment.get? (.str name) = some x) :
    v.fragment.get? (.str name) = some x := by
  rcases v.settled_fragment side kind with hsame | ⟨e, he, hset⟩
  · exact hsame ▸ h
  · have hx : e.get? (.str name) = some x := by
      rcases hset with hset | hset
      · exact hset ▸ h
      · rw [hset, Entries.get?_set_str, if_neg hname] at h
        exact h
    rcases he with rfl | rfl
    · exact hx
    · exact hd.get?_of_erase ((hd.erase "examples").get?_of_erase hx)

/-- What comes into the contents of a node from outside: the entries of its custom lowering, and
    its annotation. -/
def Store.Supplied (s : Store) (catalog : String) (n : NodeId) (es : Entries) : Prop :=
  (∃ node v, s.node? n = some node ∧ node.lowering.call none = .ok v ∧ es = v.mergeable.1) ∨
    (s.catalog catalog).get? n = some es

/-- Nothing comes from outside where no node has a custom lowering and none is annotated. -/
theorem Store.not_supplied {s : Store} {catalog : String} {n : NodeId} {es : Entries}
    (hnodes : ∀ node ∈ s.nodes, node.lowering = .null)
    (hnotes : (s.catalog catalog).entries = []) : ¬ s.Supplied catalog n es := by
  rintro (⟨node, v, hn, hcall, -⟩ | hnote)
  · cases n with
    | gap => cases hn
    | node i =>
      rw [hnodes node (List.mem_of_getElem? hn)] at hcall
      cases hcall
  · rw [Catalog.get?, hnotes] at hnote
    cases hnote

/-- What a node carries and what is supplied for it is data without references. -/
structure Store.Suited (s : Store) (catalog : String) (n : NodeId) : Prop where
  plain : ∀ node, s.node? n = some node → node.Plain
  supplies : ∀ es, s.Supplied catalog n es → es.Supplies

/-- The annotation of a node asks for nothing besides. -/
def Store.Undemanding (s : Store) (catalog : String) (n : NodeId) : Prop :=
  ∀ notes, (s.catalog catalog).get? n = some notes → notes.get? "allOf" = none

/-- What a node carries and what it is annotated with is as documents need it. -/
structure Store.Tame (s : Store) (catalog : String) (n : NodeId) : Prop where
  plain : ∀ node, s.node? n = some node → node.Plain
  supplies : ∀ es, s.Supplied catalog n es → es.Supplies
  /-- Annotations ask for nothing besides. -/
  annotated : ∀ notes, (s.catalog catalog).get? n = some notes → notes.get? "allOf" = none

/-- What is tame is suited. -/
theorem Store.Tame.suited {s : Store} {catalog : String} {n : NodeId} (h : s.Tame catalog n) :
    s.Suited catalog n := ⟨h.plain, h.supplies⟩

instance (node : Node) : Decidable node.Plain :=
  inferInstanceAs (Decidable (∀ v ∈ node.carried, v.isPlain = true))

/-- The annotation of a node is one of those that the catalog holds. -/
theorem Catalog.mem_of_get? {c : Catalog} {n : NodeId} {notes : Entries}
    (h : c.get? n = some notes) : (n, notes) ∈ c.entries := by
  unfold get? at h
  generalize c.entries = entries at h ⊢
  induction entries with
  | nil => cases h
  | cons p rest ih =>
    obtain ⟨m, es⟩ := p
    unfold find? at h
    split at h
    · rename_i hm
      cases h
      exact hm ▸ List.mem_cons_self ..
    · exact List.mem_cons_of_mem _ (ih h)

/-- A store is tame if its nodes and annotations are, one by one, and no node is lowered by a
    function of its own. -/
theorem Store.Tame.of_forall {s : Store} {catalog : String} {n : NodeId}
    (hnodes : ∀ node ∈ s.nodes, node.Plain ∧ node.lowering = .null)
    (hnotes : ∀ p ∈ (s.catalog catalog).entries, p.2.Supplies ∧ p.2.get? "allOf" = none) :
    s.Tame catalog n := by
  have hnode : ∀ node, s.node? n = some node → node.Plain ∧ node.lowering = .null := by
    intro node hn
    cases n with
    | gap => cases hn
    | node i => exact hnodes node (List.mem_of_getElem? hn)
  have hnote : ∀ notes, (s.catalog catalog).get? n = some notes →
      notes.Supplies ∧ notes.get? "allOf" = none := by
    exact fun notes hn => hnotes _ (Catalog.mem_of_get? hn)
  refine ⟨fun node hn => (hnode node hn).1, fun es hes => ?_, fun notes hn => (hnote notes hn).2⟩
  rcases hes with ⟨node, v, hn, hcall, -⟩ | hn
  · rw [(hnode node hn).2] at hcall
    cases hcall
  · exact (hnote es hn).1

namespace Store

variable {s : Store} {guide : Guide} {links : Nat}

/-- What the recipe of a node writes has the shape of contents. -/
theorem shaped_of_recipe {n : NodeId} {node : Node} (hn : s.node? n = some node)
    (ht : s.Suited guide.catalog n)
    {required : List (String × NodeId) → Option (List String)} {answer : Option Resolved}
    {v : Visit} (hv : Step.replayAll required answer
      (node.recipe guide.settings (s.catchallKind node) []) {} = some v) :
    v.fragment.Shaped (s.Edge guide.settings.side n) ∧ v.prefault.isPlain = true := by
  unfold Node.recipe at hv
  -- A custom lowering, a clone, or the rule of the kind.
  by_cases hl : node.lowering ≠ .null
  · rw [if_pos hl] at hv
    unfold loweringSteps at hv
    split at hv
    · cases hv
    · rename_i value hcall
      have hsupplies : value.mergeable.1.Supplies :=
        ht.supplies _ (.inl ⟨node, value, hn, hcall, rfl⟩)
      dsimp only at hv
      split at hv <;> cases hv
      exact ⟨Entries.Shaped.nil.update hsupplies, rfl⟩
  · rw [if_neg hl] at hv
    by_cases hp : node.parent ≠ .gap
    · rw [if_pos hp] at hv
      cases hv
      exact ⟨.nil, rfl⟩
    · rw [if_neg hp] at hv
      have hnew : Visit.Built (s.Edge guide.settings.side n) {} := ⟨.nil, nofun, rfl⟩
      have hreach : ∀ child, .child child ∈ node.kindLeads guide.settings.side
          (s.catchallKind node) → s.Edge guide.settings.side n child := by
        intro child hchild
        refine ⟨.child child, ?_, rfl⟩
        simp only [leads, hn]
        rw [Node.leads, if_neg hl, if_neg hp]
        exact hchild
      have hbuilt := hnew.replayAll
        (fun step hstep => fits_kindSteps (ht.plain node hn) hreach hstep) hv
      exact ⟨hbuilt.shaped, hbuilt.prefault⟩

/-- **Contents.** What a node contributes has texts as keys, each once, and under each keyword
    what may stand there. -/
theorem contents?_shaped {n : NodeId} {v : Visit} (ht : s.Suited guide.catalog n)
    (hv : s.contents? guide links n = some v) :
    v.fragment.Shaped (s.Edge guide.settings.side n) := by
  obtain ⟨node, w, hn, hw, rfl⟩ := contents?_eq_some.mp hv
  obtain ⟨hshaped, hprefault⟩ := shaped_of_recipe hn ht hw
  -- the annotation is written over the keywords of the recipe
  cases hnotes : (s.catalog guide.catalog).get? n with
  | none => exact hshaped.settled _ _ hprefault
  | some notes =>
    have hannotated := hshaped.update (ht.supplies _ (.inr hnotes))
    exact Entries.Shaped.settled (v := w.annotated (some notes)) hannotated _ _ hprefault

/-- A node that passes content on leaves `allOf` to it, if its annotation does. -/
theorem contents?_allOf {n : NodeId} {v : Visit} (ht : s.Suited guide.catalog n)
    (hundemanding : s.Undemanding guide.catalog n)
    (hv : s.contents? guide links n = some v) (hsome : v.target.isSome) :
    v.fragment.get? "allOf" = none := by
  have htarget := hv
  obtain ⟨node, w, hn, hw, rfl⟩ := contents?_eq_some.mp hv
  have hshaped := (shaped_of_recipe hn ht hw).1
  obtain ⟨m, hm⟩ := Option.isSome_iff_exists.mp hsome
  obtain ⟨node', lead, hn', hlead, -⟩ := passes_of_contents? htarget hm
  obtain rfl : node' = node := Option.some.inj (hn'.symm.trans hn)
  -- A node that passes content on is a wrapper, whose rule spares the keyword; the annotation
  -- does so by hypothesis.
  have hspared : w.fragment.get? "allOf" = none :=
    Step.get?_replayAll (fun step hstep => spares_allOf_recipe hlead hstep) hw
  rw [Option.eq_none_iff_forall_ne_some]
  intro x hx
  cases hnotes : (s.catalog guide.catalog).get? n with
  | none =>
    rw [hnotes] at hx
    rw [Visit.get?_settled (v := w) hshaped.distinct (by decide) hx] at hspared
    cases hspared
  | some notes =>
    rw [hnotes] at hx
    have hx := Visit.get?_settled (hshaped.distinct.update notes) (by decide) hx
    rcases Entries.get?_update_cases hx with ⟨k, hmem, hc⟩ | hx
    · exact absurd hc (Entries.canonical_ne_of_get? (hundemanding notes hnotes) hmem)
    · rw [hspared] at hx
      cases hx

/-- A keyword that no rule writes comes from outside. -/
theorem contents?_supplied {n : NodeId} {v : Visit} (ht : s.Suited guide.catalog n)
    (hv : s.contents? guide links n = some v) {name : String} (hname : name ∈ outsideKeywords)
    {x : Value} (hx : v.fragment.get? (.str name) = some x) :
    ∃ es, s.Supplied guide.catalog n es ∧ (.str name, x) ∈ es := by
  obtain ⟨node, w, hn, hw, rfl⟩ := contents?_eq_some.mp hv
  have hshaped := (shaped_of_recipe hn ht hw).1
  -- what the recipe has written under the keyword, a custom lowering has supplied
  have hrecipe : ∀ {y}, w.fragment.get? (.str name) = some y →
      ∃ es, s.Supplied guide.catalog n es ∧ (.str name, y) ∈ es := by
    intro y hy
    have hspared : (∀ step ∈ node.recipe guide.settings (s.catchallKind node) [],
        step.Spares name) → False := fun hspares => by
      rw [Step.get?_replayAll hspares hw] at hy
      cases hy
    unfold Node.recipe at hw hspared
    by_cases hl : node.lowering ≠ .null
    · rw [if_pos hl] at hw
      unfold loweringSteps at hw
      split at hw
      · cases hw
      · rename_i value hcall
        dsimp only at hw
        split at hw <;> cases hw
        refine ⟨_, .inl ⟨node, value, hn, hcall, rfl⟩, ?_⟩
        rcases Entries.get?_update_cases hy with ⟨k, hmem, hc⟩ | hnone
        · rw [Value.canonical_str] at hc
          exact Value.canonical_eq_str hc ▸ hmem
        · cases hnone
    · rw [if_neg hl] at hspared
      refine (hspared fun step hstep => ?_).elim
      by_cases hp : node.parent ≠ .gap
      · rw [if_pos hp] at hstep
        obtain rfl := List.mem_singleton.mp hstep
        trivial
      · rw [if_neg hp] at hstep
        have hfits : step.Fits fun _ => True :=
          fits_kindSteps (ht.plain node hn) (fun _ _ => trivial) hstep
        exact hfits.spares hname
  have hdefault : name ≠ "default" := by
    rintro rfl
    revert hname
    decide
  cases hnotes : (s.catalog guide.catalog).get? n with
  | none =>
    rw [hnotes] at hx
    exact hrecipe (Visit.get?_settled hshaped.distinct hdefault hx)
  | some notes =>
    rw [hnotes] at hx
    have hx := Visit.get?_settled (hshaped.distinct.update notes) hdefault hx
    rcases Entries.get?_update_cases hx with ⟨k, hmem, hc⟩ | hx
    · rw [Value.canonical_str] at hc
      exact ⟨notes, .inr hnotes, Value.canonical_eq_str hc ▸ hmem⟩
    · exact hrecipe hx

/-- A keyword of a node that no rule writes comes from outside, into the node or one behind. -/
theorem keywords?_supplied {visited : NodeId → Prop}
    (hsuited : ∀ n, visited n → s.Suited guide.catalog n)
    (hedge : ∀ n m, visited n → s.Edge guide.settings.side n m → visited m)
    {steps : Nat} {n : NodeId} (hn : visited n) {es : Entries}
    (h : s.keywords? guide links steps n = some es) {name : String}
    (hname : name ∈ outsideKeywords) {x : Value} (hx : es.get? (.str name) = some x) :
    ∃ m es', visited m ∧ s.Supplied guide.catalog m es' ∧ (.str name, x) ∈ es' := by
  induction steps generalizing n es with
  | zero =>
    obtain ⟨v, hv, ⟨-, rfl⟩ | ⟨m, steps', below, -, hsteps, -⟩⟩ := keywords?_cases h
    · obtain ⟨es', hes'⟩ := contents?_supplied (hsuited n hn) hv hname hx
      exact ⟨n, es', hn, hes'⟩
    · omega
  | succ steps ih =>
    obtain ⟨v, hv, ⟨-, rfl⟩ | ⟨m, steps', below, htarget, hsteps, hbelow, rfl⟩⟩ :=
      keywords?_cases h
    · obtain ⟨es', hes'⟩ := contents?_supplied (hsuited n hn) hv hname hx
      exact ⟨n, es', hn, hes'⟩
    · obtain rfl : steps = steps' := by omega
      rw [Entries.get?_update (contents?_shaped (hsuited n hn) hv).distinct] at hx
      rcases Option.or_eq_some_iff.mp hx with hx | ⟨-, hx⟩
      · obtain ⟨es', hes'⟩ := contents?_supplied (hsuited n hn) hv hname hx
        exact ⟨n, es', hn, hes'⟩
      · exact ih (hedge n m hn (passes_of_contents? hv htarget).edge) hbelow hx

/-- The keywords of a node have the shape of contents, over all the nodes behind it. -/
theorem keywords?_shaped {visited : NodeId → Prop}
    (hsuited : ∀ n, visited n → s.Suited guide.catalog n)
    (hedge : ∀ n m, visited n → s.Edge guide.settings.side n m → visited m)
    {steps : Nat} {n : NodeId} (hn : visited n) {es : Entries}
    (h : s.keywords? guide links steps n = some es) : es.Shaped visited := by
  induction steps generalizing n es with
  | zero =>
    obtain ⟨v, hv, ⟨-, rfl⟩ | ⟨m, steps', below, -, hsteps, -⟩⟩ := keywords?_cases h
    · exact (contents?_shaped (hsuited n hn) hv).mono (hedge n · hn)
    · omega
  | succ steps ih =>
    obtain ⟨v, hv, ⟨-, rfl⟩ | ⟨m, steps', below, htarget, hsteps, hbelow, rfl⟩⟩ :=
      keywords?_cases h
    · exact (contents?_shaped (hsuited n hn) hv).mono (hedge n · hn)
    · obtain rfl : steps = steps' := by omega
      have hm := hedge n m hn (passes_of_contents? hv htarget).edge
      exact (ih hm hbelow).merge ((contents?_shaped (hsuited n hn) hv).mono (hedge n · hn))

end Store

end SchemaGraph
