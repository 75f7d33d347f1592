import SchemaGraph.Proofs.Document.Identity
import SchemaGraph.Proofs.Document.Roots
import SchemaGraph.Proofs.Document.Session
import SchemaGraph.Proofs.Document.Upkeep
import SchemaGraph.Proofs.Survey.Pointing

namespace SchemaGraph

open SchemaGraph.Action Conversion Emission

/-!
# Where documents are cut

A document that stands alone shows the keywords of its root, and in its table those of the other
definitions.  Wherever an edge leads to a definition, they are cut: only the reference to the
definition stands there.

* `Survey.reference?`    — the reference to a definition
* `Store.cut?`           — the keywords of a node, with references in place of definitions
* `Store.cutView`        — what stands at the places that edges lead to
* `Emission.definition_iff` — the nodes that become definitions are those that have to be
* `Emission.Cuts`        — a document that is cut at its definitions
* `Export.convert_cuts`  — every document that stands alone is
-/

/-! ### Keywords with references -/

/-- A node that is a definition was visited. -/
theorem Survey.visit?_of_defines {survey : Survey} {n : NodeId} (h : survey.defines n = true) :
    ∃ v, survey.visit? n = some v ∧ v.definition.isSome = true := by
  unfold defines at h
  cases hv : survey.visit? n with
  | none => simp [hv] at h
  | some v => exact ⟨v, rfl, by simpa [hv] using h⟩

/-- The reference to the definition of a node, if it is one. -/
def Survey.reference? (survey : Survey) (n : NodeId) : Option String :=
  (survey.visit? n).bind fun v =>
    match v.definition, v.fragment.get? Visit.refKey with
    | some _, some (.str ref) => some ref
    | _, _ => none

namespace Store

variable {s : Store} {guide : Guide} {links : Nat} {ref? : NodeId → Option String}

/-- The keywords of a node: its own, over those of the node whose content it passes on, or over the
    reference to that one; over at most the given number of steps. -/
def cut? (s : Store) (guide : Guide) (links : Nat) (ref? : NodeId → Option String) :
    Nat → NodeId → Option Entries
  | steps, n =>
    match s.contents? guide links n with
    | none => none
    | some v =>
      match v.target with
      | none => some v.fragment
      | some t =>
        match ref? t with
        | some ref =>
          some (inherited guide.settings.target v.fragment t [(Visit.refKey, .str ref)])
        | none =>
          match steps with
          | 0 => none
          | steps + 1 => (cut? s guide links ref? steps t).map (mergeBelow v.fragment)

/-- The fragments of nodes: the reference to the definition of a node, or its keywords. -/
def cutView (s : Store) (guide : Guide) (links : Nat) (ref? : NodeId → Option String)
    (steps : Nat) : View where
  fragment _ n :=
    match ref? n with
    | some ref => [(Visit.refKey, .str ref)]
    | none => (s.cut? guide links ref? steps n).getD []

/-- A node that passes nothing on shows its own keywords. -/
theorem cut?_of_none {steps : Nat} {n : NodeId} {v : Visit}
    (hv : s.contents? guide links n = some v) (ht : v.target = none) :
    s.cut? guide links ref? steps n = some v.fragment := by
  unfold cut?
  simp only [hv, ht]

/-- A node whose target is a definition is cut at the reference to it. -/
theorem cut?_of_reference {steps : Nat} {n t : NodeId} {v : Visit} {ref : String}
    (hv : s.contents? guide links n = some v) (ht : v.target = some t) (href : ref? t = some ref) :
    s.cut? guide links ref? steps n =
      some (inherited guide.settings.target v.fragment t [(Visit.refKey, .str ref)]) := by
  unfold cut?
  simp only [hv, ht, href]

/-- A node whose target is no definition shows the keywords of the target below its own. -/
theorem cut?_succ {steps : Nat} {n t : NodeId} {v : Visit} {below : Entries}
    (hv : s.contents? guide links n = some v) (ht : v.target = some t) (href : ref? t = none)
    (hbelow : s.cut? guide links ref? steps t = some below) :
    s.cut? guide links ref? (steps + 1) n = some (mergeBelow v.fragment below) := by
  unfold cut?
  simp only [hv, ht, href, hbelow, Option.map_some]

/-- Where keywords are found, they are the own ones of the node, or these over a reference or over
    the keywords of the node behind it. -/
theorem cut?_cases {steps : Nat} {n : NodeId} {es : Entries}
    (h : s.cut? guide links ref? steps n = some es) :
    ∃ v, s.contents? guide links n = some v ∧
      ((v.target = none ∧ es = v.fragment) ∨
        (∃ t ref, v.target = some t ∧ ref? t = some ref ∧
          es = inherited guide.settings.target v.fragment t [(Visit.refKey, .str ref)]) ∨
        ∃ t steps' below, v.target = some t ∧ ref? t = none ∧ steps = steps' + 1 ∧
          s.cut? guide links ref? steps' t = some below ∧ es = mergeBelow v.fragment below) := by
  -- One alternative per branch: nothing passed on, a reference, or another cut.
  unfold cut? at h
  split at h
  · cases h
  · rename_i v hv
    refine ⟨v, hv, ?_⟩
    split at h
    · rename_i ht
      exact .inl ⟨ht, (Option.some.inj h).symm⟩
    · rename_i t ht
      split at h
      · rename_i ref href
        exact .inr (.inl ⟨t, ref, ht, href, (Option.some.inj h).symm⟩)
      · rename_i href
        split at h
        · cases h
        · rename_i steps'
          obtain ⟨below, hbelow, rfl⟩ := Option.map_eq_some_iff.mp h
          exact .inr (.inr ⟨t, steps', below, ht, href, rfl, hbelow, rfl⟩)

end Store

/-- In a complete survey every node has keywords with references, if the nodes that pass on content
    in a circle are cut out. -/
theorem Explored.exists_cut {guide : Guide} {s : Store} {survey : Survey}
    (h : Explored guide s survey) (hs : s.Closed) {ref? : NodeId → Option String}
    (hcircles : ∀ n t, s.Passes guide.settings.side n t →
      Relation.TransGen (s.Passes guide.settings.side) t n → (ref? t).isSome) :
    ∃ bound, ∀ links, bound ≤ links →
      (∀ n v, survey.visit? n = some v →
        ∃ w, s.contents? guide links n = some w ∧ w.content = v.content) ∧
      ∀ n, survey.has n = true → ∃ es, s.cut? guide links ref? bound n = some es := by
  obtain ⟨b, hb⟩ := h.exists_contents hs
  let inlines : NodeId → NodeId → Prop := fun n t =>
    s.Passes guide.settings.side n t ∧ ref? t = none
  have hacyclic : ∀ n, ¬ Relation.TransGen inlines n n := by
    intro n hloop
    obtain ⟨t, ⟨hpass, hnone⟩, hrest⟩ := Relation.TransGen.head'_iff.mp hloop
    have hback : Relation.TransGen (s.Passes guide.settings.side) t n := by
      rcases Relation.reflTransGen_iff_eq_or_transGen.mp hrest with rfl | hrest
      · exact .single hpass
      · exact Relation.TransGen.mono (fun _ _ h => h.1) t n hrest
    have hsome := hcircles n t hpass hback
    rw [hnone] at hsome
    cases hsome
  -- along the content that is merged in, every node needs one step more than the one behind it
  have hsteps : ∀ n ∈ survey.order, ∃ bound, ∀ steps, bound ≤ steps → ∀ links, b ≤ links →
      ∃ es, s.cut? guide links ref? steps n = some es := by
    refine forall_mem_of_acyclic hacyclic fun n hn ih => ?_
    obtain ⟨v, hv⟩ := Survey.visit?_of_has ((Survey.has_iff _ _).mpr hn)
    have hcontents : ∀ links, b ≤ links → ∃ w, s.contents? guide links n = some w ∧
        w.target = v.target := by
      intro links hle
      obtain ⟨w, hw, hsame⟩ := hb links hle n hn v hv
      exact ⟨w, hw, congrArg (·.2.1) hsame⟩
    cases ht : v.target with
    | none =>
      refine ⟨0, fun steps _ links hle => ?_⟩
      obtain ⟨w, hw, htarget⟩ := hcontents links hle
      exact ⟨_, Store.cut?_of_none hw (htarget.trans ht)⟩
    | some t =>
      cases href : ref? t with
      | some ref =>
        refine ⟨0, fun steps _ links hle => ?_⟩
        obtain ⟨w, hw, htarget⟩ := hcontents links hle
        exact ⟨_, Store.cut?_of_reference hw (htarget.trans ht) href⟩
      | none =>
        obtain ⟨w, hw, htarget⟩ := hcontents b (le_refl b)
        have hpass := Store.passes_of_contents? hw (htarget.trans ht)
        have hvisited := h.edge ((Survey.has_iff _ _).mpr hn) hpass.edge
        obtain ⟨bound, hbound⟩ := ih t ((Survey.has_iff _ _).mp hvisited) ⟨hpass, href⟩
        refine ⟨bound + 1, fun steps hsteps links hle => ?_⟩
        obtain ⟨w, hw, htarget⟩ := hcontents links hle
        obtain ⟨below, hbelow⟩ := hbound (steps - 1) (by omega) links hle
        obtain ⟨more, rfl⟩ : ∃ more, steps = more + 1 := ⟨steps - 1, by omega⟩
        exact ⟨_, Store.cut?_succ hw (htarget.trans ht) href hbelow⟩
  obtain ⟨b', hb'⟩ := exists_bound hsteps
  refine ⟨max b b', fun links hle => ⟨fun n v hv => ?_, fun n hn => ?_⟩⟩
  · have hn := (Survey.has_iff _ _).mp (Survey.has_of_visit? hv)
    exact hb links (le_trans (le_max_left b b') hle) n hn v hv
  · exact hb' (max b b') (le_max_right b b') n ((Survey.has_iff _ _).mp hn) links
      (le_trans (le_max_left b b') hle)

namespace Emission

variable {e : Emission} {guide : Guide} {s : Store} {p c d : Conversion}

/-! ### Which nodes become definitions -/

/-- Hoisting a node leaves the others alone. -/
theorem extract_others {n m : NodeId} (hn : c.survey.has n = true)
    (h : Returns (e.extract n) c () d) (hm : m ≠ n) : d.survey.visit? m = c.survey.visit? m := by
  obtain ⟨v, hv⟩ := Survey.visit?_of_has hn
  obtain ⟨w, c', hvisit, h₁⟩ := returns_bind.mp h
  obtain ⟨hw, rfl⟩ := Prod.mk.inj hvisit
  rw [hv] at hw
  obtain rfl := Except.ok.inj hw
  rw [Option.getD_some] at h₁
  split at h₁
  · obtain ⟨-, rfl⟩ := returns_pure.mp h₁
    rfl
  · obtain ⟨⟨ref, id⟩, c₁, hreference, h₂⟩ := returns_bind.mp h₁
    obtain ⟨_, c₂, hdefine, hlog⟩ := returns_bind.mp h₂
    have hreferred := (referenceFor_meets hv).of_returns hreference
    have hsurvey : d.survey = c₁.survey.modify n fun v => define v ref id := by
      rw [← (Prod.mk.inj hlog).2, ← (Prod.mk.inj hdefine).2]
    rw [hsurvey, Survey.visit?_modify_of_ne hm]
    exact hreferred.others m hm

/-- Hoisting leaves the nodes alone that need not become definitions. -/
theorem hoistAll_spares {ns : List NodeId} (hns : ∀ n ∈ ns, c.survey.has n = true)
    (h : Returns (e.hoistAll ns) c () d) {m : NodeId} {v : Visit}
    (hv : c.survey.visit? m = some v) (hkept : e.isHoisted c.store c.linkage m v = false) :
    d.survey.visit? m = some v := by
  induction ns generalizing c with
  | nil =>
    obtain ⟨-, rfl⟩ := returns_pure.mp h
    exact hv
  | cons n rest ih =>
    obtain ⟨hn, hrest⟩ := List.forall_mem_cons.mp hns
    obtain ⟨u, hu⟩ := Survey.visit?_of_has hn
    obtain ⟨-, ⟨hhoisted, c', hextract, h₁⟩ | ⟨-, h₁⟩⟩ := hoistAll_returns hu h
    · have hhoists := ((extract_hoists hn).of_returns hextract).1
      -- The node that is hoisted here is another one, as `m` is kept.
      have hm : m ≠ n := by
        rintro rfl
        obtain rfl := Option.some.inj (hu.symm.trans hv)
        rw [hkept] at hhoisted
        cases hhoisted
      refine ih (fun k hk => ?_) h₁ ((extract_others hn hextract hm).trans hv) ?_
      · rw [hhoists.rewrites.has]
        exact hrest k hk
      · rw [isHoisted_eq hhoists.rewrites]
        exact hkept
    · exact ih hrest h₁ hv hkept

/-- **Definitions.** Of nodes that are no references, those become definitions that have to. -/
theorem definition_iff (h : Returns (do e.hoist; e.settleVisits) p () c) {n : NodeId} {v : Visit}
    (hv : p.survey.visit? n = some v) (hnone : v.definition = none) (href : v.isReference = false) :
    ∃ w, c.survey.visit? n = some w ∧ w.cycle = v.cycle ∧ w.count = v.count ∧
      (w.definition.isSome = true ↔ e.isHoisted p.store p.linkage n v = true) := by
  obtain ⟨_, d, hhoist, hsettle⟩ := returns_bind.mp h
  obtain ⟨hhoists, hrefers⟩ := (hoist_hoists p).of_returns hhoist
  have hpersists := settleVisits_persists.of_returns hsettle
  rcases hhoists.visits hv with hsame | ⟨-, ref, id, -, hdefined⟩
  · -- a node that was hoisted would be a reference
    obtain ⟨w, hw, hvw⟩ := hpersists.visits hsame
    refine ⟨w, hw, hvw.cycle, hvw.count, ?_⟩
    rw [hvw.hoisted, hnone]
    refine iff_of_false Bool.false_ne_true fun hhoisted => ?_
    have hreference := hrefers n v v hv hsame hhoisted
    rw [href] at hreference
    cases hreference
  · obtain ⟨w, hw, hvw⟩ := hpersists.visits hdefined
    refine ⟨w, hw, hvw.cycle, hvw.count, iff_of_true (hvw.hoisted.trans rfl) ?_⟩
    -- Had it been kept, it would be as before, without a definition.
    by_contra hkept
    obtain ⟨_, _, hget, hall⟩ := returns_bind.mp hhoist
    obtain ⟨rfl, rfl⟩ := returns_get.mp hget
    have hsame := hoistAll_spares (fun n hn => (Survey.has_iff _ _).mpr hn) hall hv
      (Bool.not_eq_true _ ▸ hkept)
    have hvisit := Option.some.inj (hdefined.symm.trans hsame)
    have hdefinition : (v.defined ref id).definition.isSome = v.definition.isSome := by rw [hvisit]
    rw [hnone] at hdefinition
    cases hdefinition

/-! ### What becomes of bodies -/

/-- The keywords that supplied data must leave to emission. -/
def reservedKeywords : List String := ["$ref", "allOf", "$defs", "definitions"]

/-- No fragment and no body has a keyword of the name. -/
def Lacks (name : String) (c : Conversion) : Prop :=
  ∀ n v, c.survey.visit? n = some v →
    v.fragment.get? (.str name) = none ∧ v.body.get? (.str name) = none

/-- A reference alone holds no other keyword. -/
theorem get?_bare {ref name : String} (hname : name ≠ "$ref") :
    Entries.get? (.str name) [(Visit.refKey, .str ref)] = none := by
  refine Entries.get?_eq_none fun p hp => ?_
  rw [List.mem_singleton.mp hp]
  exact fun h => hname (Value.str.inj h).symm

/-- Settling brings no keyword into the survey but the one for what must hold besides. -/
theorem lacks_preserved (target : Target) {name : String} (hname : name ≠ "allOf") :
    Preserved target (Lacks name) where
  events _ hsame hc n v hv := hc n v (by rw [← hsame]; exact hv)
  append _ _ _ _ hc := hc
  mark n hc := forall_visit?_modify hc fun v hv => hc n v hv
  body {c d n v t body} hc hv _ _ hd _ htakes := by
    have hown := (hc n v hv).2
    have hbelow : (d.survey.fragment t).get? (.str name) = none := by
      unfold Survey.fragment
      cases hu : d.survey.visit? t with
      | none => rfl
      | some u => exact (hd t u hu).1
    have hbody : body.get? (.str name) = none := by
      -- The body is as it was, with one more entry under `allOf`, or over the target's fragment.
      rcases htakes.cases with rfl | ⟨x, rfl⟩ | rfl
      · exact hown
      · rw [allOfKey, Entries.get?_set_str, if_neg hname]
        exact hown
      · exact Entries.get?_update_none (Entries.get?_update_none hown hbelow) hown
    refine forall_visit?_modify hd fun u hu => ⟨?_, by rw [Visit.body_withBody]; exact hbody⟩
    unfold Visit.withBody
    split
    · exact (hd n u hu).1
    · exact hbody

/-- The final body of a node holds what the node held before, over a fragment of the node that it
    passes on: that is its final one, if it is a definition or content is not passed on in a
    circle. -/
theorem body_takes (hp : p.survey.Intact guide s) (hoverride : e.override = none)
    (h : Returns (do e.hoist; e.settleVisits) p () c) {n : NodeId} {v : Visit}
    (hv : p.survey.visit? n = some v) :
    match v.target with
    | none => c.survey.body n = v.fragment
    | some t => ∃ below, Takes e.target v.fragment t below (c.survey.body n) ∧
        (c.survey.defines t = true ∨ ¬ Relation.TransGen (s.Passes guide.settings.side) n n →
          below = c.survey.fragment t) := by
  obtain ⟨_, d, hhoist, hsettle⟩ := returns_bind.mp h
  have hhoists := ((hoist_hoists p).of_returns hhoist).1
  have hown : v.body = v.fragment := by
    rw [Visit.body, hp.definition hv]
    rfl
  have hmerged := hp.merged hv
  -- Behind hoisting the body is still what the node contributes, be it in a definition.
  obtain ⟨u, hu, hbody, hfresh, htarget⟩ : ∃ u, d.survey.visit? n = some u ∧
      u.body = v.fragment ∧ u.merged = false ∧ u.target = v.target := by
    rcases hhoists.visits hv with hd | ⟨-, ref, id, -, hd⟩
    · exact ⟨v, hd, hown, hmerged, rfl⟩
    · exact ⟨_, hd, rfl, hmerged, rfl⟩
  obtain ⟨w, hw, hunfolds⟩ := settleVisits_unfolds hoverride hsettle hu
  have hfinal : c.survey.body n = w.body := by
    rw [Survey.body, hw]
    rfl
  unfold Unfolds at hunfolds
  rw [hfresh, htarget, hbody] at hunfolds
  rw [hfinal]
  cases ht : v.target with
  | none =>
    rw [ht] at hunfolds
    exact hunfolds
  | some t =>
    rw [ht] at hunfolds
    obtain ⟨below, htakes, hbelow⟩ := hunfolds
    refine ⟨below, htakes, fun hsome => hbelow (hsome.imp_right fun hnone hloop => hnone ?_)⟩
    refine Relation.TransGen.mono (fun a b hab => ?_) n n hloop
    -- A circle among visits is one in the graph.
    obtain ⟨x, hx, hb⟩ := hhoists.next hab
    exact hp.passes hx hb

section Bodies

variable (hp : p.survey.Intact guide s)
  (hspare : ∀ n, p.survey.has n = true → s.Sparing guide.catalog reservedKeywords n)
include hp hspare

/-- No node refers to another place before hoisting. -/
theorem isReference_of_sparing {n : NodeId} {v : Visit} (hv : p.survey.visit? n = some v) :
    v.isReference = false := by
  obtain ⟨links, w, hw, hfragment, -⟩ := hp.contents hv
  have hnone := Store.contents?_outside (hspare n (Survey.has_of_visit? hv)) hw
    (by decide : "$ref" ∈ reservedKeywords) (by decide)
  rw [hfragment] at hnone
  unfold Visit.isReference Entries.has Visit.refKey
  rw [hnone]
  rfl

/-- Hoisting and settling keep visits well formed. -/
theorem formed_of_sparing (hoverride : e.override = none)
    (h : Returns (do e.hoist; e.settleVisits) p () c) : c.Formed := by
  obtain ⟨_, d, hhoist, hsettle⟩ := returns_bind.mp h
  have hformed : p.Formed := by
    intro n v hv
    obtain ⟨links, w, hw, hfragment, -⟩ := hp.contents hv
    have hw' := Store.contents?_formed (hspare n (Survey.has_of_visit? hv)).texts hw
    rw [hfragment] at hw'
    refine ⟨hw', ?_⟩
    rw [Visit.body, hp.definition hv]
    exact hw'
  exact (formed_preserved _).settleVisits hoverride hsettle
    (((hoist_hoists p).of_returns hhoist).1.formed hformed)

/-- No body has a keyword for a table. -/
theorem lacks_of_sparing (hoverride : e.override = none)
    (h : Returns (do e.hoist; e.settleVisits) p () c) {name : String}
    (hname : name = "$defs" ∨ name = "definitions") : Lacks name c := by
  obtain ⟨hreserved, houtside, href, hall⟩ : name ∈ reservedKeywords ∧ name ∈ outsideKeywords ∧
      name ≠ "$ref" ∧ name ≠ "allOf" := by
    rcases hname with rfl | rfl <;> decide
  obtain ⟨_, d, hhoist, hsettle⟩ := returns_bind.mp h
  have hhoists := ((hoist_hoists p).of_returns hhoist).1
  have hlacks : ∀ n v, p.survey.visit? n = some v → v.fragment.get? (.str name) = none := by
    intro n v hv
    obtain ⟨links, w, hw, hfragment, -⟩ := hp.contents hv
    rw [← hfragment]
    exact Store.contents?_outside (hspare n (Survey.has_of_visit? hv)) hw hreserved houtside
  refine (lacks_preserved _ hall).settleVisits hoverride hsettle fun n w hw => ?_
  obtain ⟨v, hv, rfl | ⟨ref, id, -, rfl⟩⟩ := hhoists.cases hw
  · refine ⟨hlacks n w hv, ?_⟩
    rw [Visit.body, hp.definition hv]
    exact hlacks n w hv
  · exact ⟨get?_bare href, hlacks n v hv⟩

/-- The final body of a node holds what the node contributes, with the final fragment of the node
    that it passes on; unless content is passed on in a circle with a node that is no definition. -/
theorem body_eq (hoverride : e.override = none) (htarget : e.target = guide.settings.target)
    (h : Returns (do e.hoist; e.settleVisits) p () c) {links : Nat} {n : NodeId} {u v : Visit}
    (hu : p.survey.visit? n = some u) (hv : s.contents? guide links n = some v)
    (hsame : v.content = u.content)
    (hcircles : ∀ t, s.Passes guide.settings.side n t →
      Relation.TransGen (s.Passes guide.settings.side) t n → c.survey.defines t = true) :
    c.survey.body n =
      match v.target with
      | none => v.fragment
      | some t => inherited guide.settings.target v.fragment t (c.survey.fragment t) := by
  have htakes := body_takes hp hoverride h hu
  rw [← show v.target = u.target from congrArg (·.2.1) hsame,
    ← show v.fragment = u.fragment from congrArg (·.1) hsame] at htakes
  cases ht : v.target with
  | none =>
    rw [ht] at htakes
    exact htakes
  | some t =>
    rw [ht] at htakes
    obtain ⟨below, htakes, hbelow⟩ := htakes
    have hpass := Store.passes_of_contents? hv ht
    -- If the node lies on a circle, its target is a definition by hypothesis; if not, settling has
    -- gone through the target first.
    have hsome : c.survey.defines t = true ∨
        ¬ Relation.TransGen (s.Passes guide.settings.side) n n := by
      by_cases hloop : Relation.TransGen (s.Passes guide.settings.side) n n
      · left
        obtain ⟨t', hnext, hrest⟩ := Relation.TransGen.head'_iff.mp hloop
        obtain rfl := hnext.unique hpass
        refine hcircles t' hnext ?_
        rcases Relation.reflTransGen_iff_eq_or_transGen.mp hrest with rfl | hrest
        · exact .single hnext
        · exact hrest
      · exact .inr hloop
    -- A node that passes content on asks for nothing itself, so nothing is appended.
    have hspared : v.fragment.get? allOfKey = none :=
      Store.contents?_spares (hspare n (Survey.has_of_visit? hu)) hv (by decide) (by rw [ht]; rfl)
    unfold Takes at htakes
    rw [hspared, hbelow hsome, htarget] at htakes
    show c.survey.body n = inherited guide.settings.target v.fragment t (c.survey.fragment t)
    unfold inherited
    split at htakes
    · rename_i hbare
      rw [if_pos hbare]
      exact htakes
    · rename_i hbare
      rw [if_neg hbare]
      exact htakes

end Bodies

/-! ### Fragments -/

/-- A node with no definition has no reference. -/
theorem reference?_eq_none {survey : Survey} {n : NodeId}
    (h : ∀ v, survey.visit? n = some v → v.definition = none) : survey.reference? n = none := by
  unfold Survey.reference?
  cases hv : survey.visit? n with
  | none => rfl
  | some v => simp [h v hv]

/-- The reference to a definition is what its fragment holds. -/
theorem reference?_of_bare {survey : Survey} {n : NodeId} {v : Visit} {ref : String}
    (hv : survey.visit? n = some v) (hsome : v.definition.isSome)
    (hbare : v.fragment = [(Visit.refKey, .str ref)]) : survey.reference? n = some ref := by
  obtain ⟨body, hbody⟩ := Option.isSome_iff_exists.mp hsome
  unfold Survey.reference?
  rw [hv, Option.bind_some, hbody, hbare]
  rfl

/-- The fragment of a node is the reference to its definition, or its body. -/
theorem fragment_cases (h : Conversion.Named e c) {n : NodeId} (hn : c.survey.has n = true) :
    (∃ ref, c.survey.reference? n = some ref ∧ c.survey.defines n = true ∧
      c.survey.fragment n = [(Visit.refKey, .str ref)]) ∨
    c.survey.reference? n = none ∧ c.survey.defines n = false ∧
      c.survey.fragment n = c.survey.body n := by
  obtain ⟨v, hv⟩ := Survey.visit?_of_has hn
  rcases h n v hv with ⟨hnone, -⟩ | ⟨hsome, ref, hbare, -⟩
  · refine .inr ⟨reference?_eq_none fun w hw => ?_, ?_, ?_⟩
    · rw [Option.some.inj (hw.symm.trans hv)]
      exact hnone
    · simp [Survey.defines, hv, hnone]
    · simp [Survey.fragment, Survey.body, Visit.body, hv, hnone]
  · refine .inl ⟨ref, reference?_of_bare hv hsome hbare, ?_, ?_⟩
    · simpa [Survey.defines, hv] using hsome
    · simp [Survey.fragment, hv, hbare]

/-! ### Cutting -/

/-- A reference alone leads to no node. -/
theorem each_bare {ref : String} {reach : NodeId → Prop} :
    Entries.Each (Value.Leads reach) [(Visit.refKey, .str ref)] := by
  intro p hp
  rw [List.mem_singleton.mp hp]
  exact Value.leads_of_plain rfl

/-- What is known of a body that is cut at definitions. -/
structure Trimmed (target : Target) (visited : NodeId → Prop) (body : Entries) : Prop where
  leads : body.Each (Value.Leads visited)
  /-- In the dialect that ignores keywords beside a reference no body has one. -/
  bare : target = .draft7 → body.get? "$ref" = none

section Trimming

variable {target : Target} {visited : NodeId → Prop} {own below : Entries} {t : NodeId}

/-- Trimmed keywords over trimmed ones are trimmed. -/
theorem Trimmed.merge (hown : Trimmed target visited own) (h : Trimmed target visited below) :
    Trimmed target visited (mergeBelow own below) where
  leads := (hown.leads.update h.leads).update hown.leads
  bare ht := Entries.get?_update_none (Entries.get?_update_none (hown.bare ht) (h.bare ht)) (hown.bare ht)

/-- Trimmed keywords over the reference to a node that was visited are trimmed. -/
theorem Trimmed.inherit (hown : Trimmed target visited own) (ht : visited t) (ref : String) :
    Trimmed target visited (inherited target own t [(Visit.refKey, .str ref)]) := by
  unfold inherited
  split
  · refine ⟨hown.leads.set _ ?_, fun h7 => ?_⟩
    · refine Value.leads_items.mpr fun v hv => ?_
      rw [List.mem_singleton.mp hv]
      exact Value.leads_fragment ht
    · rw [allOfKey, Entries.get?_set_str, if_neg (by decide)]
      exact hown.bare h7
  · rename_i hmerged
    exact ⟨(hown.leads.update each_bare).update hown.leads, fun h7 => absurd ⟨rfl, h7⟩ hmerged⟩

/-- The content of a body without a reference is merged in. -/
theorem Trimmed.inherited_eq (h : Trimmed target visited below) :
    inherited target own t below = mergeBelow own below := by
  unfold inherited
  rw [if_neg]
  rintro ⟨hhas, h7⟩
  rw [Entries.has, Visit.refKey, h.bare h7] at hhas
  cases hhas

end Trimming

/-- A survey in which every body holds what its node contributes, with the fragment of the node that
    it passes on. -/
structure Inherits (guide : Guide) (s : Store) (links : Nat) (p c : Conversion) : Prop where
  edge : ∀ n m, p.survey.has n = true → s.Edge guide.settings.side n m → p.survey.has m = true
  order : c.survey.order = p.survey.order
  sparing : ∀ n, p.survey.has n = true → s.Sparing guide.catalog reservedKeywords n
  body : ∀ {n v}, p.survey.has n = true → s.contents? guide links n = some v →
    c.survey.body n =
      match v.target with
      | none => v.fragment
      | some t => inherited guide.settings.target v.fragment t (c.survey.fragment t)

namespace Inherits

variable {links : Nat} (h : Inherits guide s links p c)
include h

/-- Hoisting and settling visit no node anew and forget none. -/
theorem has {n : NodeId} (hn : p.survey.has n = true) : c.survey.has n = true := by
  rw [Survey.has_iff, h.order, ← Survey.has_iff]
  exact hn

/-- What a node contributes is trimmed at nodes that were visited. -/
theorem trimmed {n : NodeId} {v : Visit} (hn : p.survey.has n = true)
    (hv : s.contents? guide links n = some v) :
    Trimmed guide.settings.target (fun m => p.survey.has m = true) v.fragment where
  leads := (Store.contents?_leads (h.sparing n hn) hv).mono fun _ hx =>
    hx.mono fun m hm => h.edge n m hn hm
  bare _ := Store.contents?_outside (h.sparing n hn) hv (by decide) (by decide)

/-- **Bodies.** The body of a node is what its keywords are, cut at definitions. -/
theorem body_eq_cut (hnamed : Conversion.Named e c) {steps : Nat} {n : NodeId} {es : Entries}
    (hn : p.survey.has n = true)
    (hes : s.cut? guide links c.survey.reference? steps n = some es) :
    c.survey.body n = es ∧
      Trimmed guide.settings.target (fun m => p.survey.has m = true) es := by
  -- A cut that goes on below needs fewer steps; the other two kinds end here.
  induction steps using Nat.strong_induction_on generalizing n es with
  | h steps ih =>
    obtain ⟨v, hv, ⟨ht, rfl⟩ | ⟨t, ref, ht, href, rfl⟩ | ⟨t, steps', below, ht, href, rfl, hbelow, rfl⟩⟩ :=
      Store.cut?_cases hes
    · have hbody := h.body hn hv
      rw [ht] at hbody
      exact ⟨hbody, h.trimmed hn hv⟩
    · have hvisited := h.edge n t hn (Store.passes_of_contents? hv ht).edge
      have hbody := h.body hn hv
      simp only [ht] at hbody
      rcases fragment_cases hnamed (h.has hvisited) with ⟨ref', href', -, hbare⟩ | ⟨hnone, -⟩
      · obtain rfl := Option.some.inj (href.symm.trans href')
        rw [hbare] at hbody
        exact ⟨hbody, (h.trimmed hn hv).inherit hvisited ref⟩
      · rw [href] at hnone
        cases hnone
    · have hvisited := h.edge n t hn (Store.passes_of_contents? hv ht).edge
      obtain ⟨hsame, htrimmed⟩ := ih steps' (Nat.lt_succ_self _) hvisited hbelow
      have hbody := h.body hn hv
      simp only [ht] at hbody
      rcases fragment_cases hnamed (h.has hvisited) with ⟨ref, href', -⟩ | ⟨-, -, hown⟩
      · rw [href] at href'
        cases href'
      · rw [hown, hsame] at hbody
        exact ⟨hbody.trans htrimmed.inherited_eq, (h.trimmed hn hv).merge htrimmed⟩

/-- What a view of the survey shows is what stands at its places when they are cut. -/
theorem agrees (hnamed : Conversion.Named e c) {steps : Nat}
    (hcut : ∀ n, p.survey.has n = true →
      ∃ es, s.cut? guide links c.survey.reference? steps n = some es) :
    c.view.Agrees (fun m => p.survey.has m = true)
      (s.cutView guide links c.survey.reference? steps) where
  same n hn := by
    show (s.cutView guide links c.survey.reference? steps).fragment 0 n = c.fragmentOf c.survey.number n
    rw [Conversion.fragmentOf, if_pos rfl, Store.cutView]
    -- A definition shows its reference on both sides, any other node its own body.
    rcases fragment_cases hnamed (h.has hn) with ⟨ref, href, -, hbare⟩ | ⟨hnone, -, hown⟩
    · simp only [href, hbare]
    · obtain ⟨es, hes⟩ := hcut n hn
      simp only [hnone, hes, Option.getD_some, hown]
      exact (h.body_eq_cut hnamed hn hes).1.symm
  closed n hn := by
    show (c.fragmentOf c.survey.number n).Each _
    rw [Conversion.fragmentOf, if_pos rfl]
    rcases fragment_cases hnamed (h.has hn) with ⟨ref, -, -, hbare⟩ | ⟨-, -, hown⟩
    · rw [hbare]
      exact each_bare
    · obtain ⟨es, hes⟩ := hcut n hn
      obtain ⟨hsame, htrimmed⟩ := h.body_eq_cut hnamed hn hes
      rw [hown, hsame]
      exact htrimmed.leads

end Inherits

/-! ### Documents -/

/-- Exactly the nodes that have to be are definitions: the root, the nodes with an id, the nodes
    marked by a cycle and, if asked for, the nodes that were reached several times.  Each one is under
    the reference that names it, and the document has a table exactly if there is one besides the
    root. -/
structure Selects (e : Emission) (c : Conversion) (doc : Json) : Prop where
  defined : ∀ {n v}, c.survey.visit? n = some v →
    (v.definition.isSome = true ↔ n = e.root ∨ (annotatedId c.store e.catalog n).isTruthy = true ∨
      v.cycle.isSome = true ∨ (1 < v.count ∧ e.policy.reused = .refer))
  referred : ∀ {n v}, c.survey.visit? n = some v →
    (v.definition = none ∧ c.survey.reference? n = none ∨
      v.definition.isSome = true ∧ ∃ ref, c.survey.reference? n = some ref ∧
        e.Names c.store none n v.definitionId ref)
  table : (doc.member? e.target.definitionsKeyword).isSome = true ↔
    ∃ n, n ≠ e.root ∧ c.survey.defines n = true

/-- A document that is cut at its definitions: all bodies of definitions are keywords in which
    references stand in place of definitions; the members of the document show the body of its root,
    and the entries of its table those of other definitions, and wherever an edge leads to a
    definition they show the reference to it. -/
structure Cuts (e : Emission) (guide : Guide) (s : Store) (links steps : Nat) (c : Conversion)
    (doc : Json) : Prop where
  bodies : ∀ n, c.survey.defines n = true →
    s.cut? guide links c.survey.reference? steps n = some (c.survey.definition n)
  root : (s.cutView guide links c.survey.reference? steps).Shows
    (.dict ((c.survey.definition e.root).keeping e.target.describes)) (.obj (doc.content e.target))
  entries : ∀ ms name j, doc.member? e.target.definitionsKeyword = some (.obj ms) →
    Json.lookup? name ms = some j → ∃ n, n ≠ e.root ∧ c.survey.defines n = true ∧
      (s.cutView guide links c.survey.reference? steps).Shows (.dict (c.survey.definition n)) j

end Emission

namespace Converter.Stands

variable {conv : Converter} {policy : EmissionSettings} {root : NodeId} {store : Store}
  {p d c : Conversion} {doc : Json}

/-- Behind a document that stands alone the graph is closed. -/
theorem closed (hs : store.Closed) (h : conv.Stands policy root store p d c doc) :
    c.store.Closed := by
  obtain ⟨p', hexplores, -, hrewrites, -⟩ := h.descent hs
  obtain ⟨_, f, hhoist, hsettle⟩ := returns_bind.mp h.settled
  have hf := ((hoist_hoists p).of_returns hhoist).1.outlines
  have hd : Outlines f d := bears_outlines.settleVisits.of_returns hsettle
  refine h.behind.closed ((hf.trans hd).closed (hrewrites.closed ?_))
  exact (hexplores.descends.store (start_closed hs)).2

/-- Every visit of a document that stands alone is a definition under its reference, or none. -/
theorem named (hs : store.Closed) (h : conv.Stands policy root store p d c doc) :
    Conversion.Named (conv.emission policy root) c := by
  have hnamed := named_of_hoist_settle (h.intact hs) h.settled
  have hd : d.linkage = none := h.behind.linkage.symm.trans (h.adds.linkage.trans (h.alone hs))
  have hc : c.linkage = none := h.behind.linkage.trans hd
  intro n v hv
  rw [h.survey] at hv
  rcases hnamed n v hv with hnone | ⟨hsome, ref, hbare, hnames⟩
  · exact .inl hnone
  · refine .inr ⟨hsome, ref, hbare, ?_⟩
    unfold Names at hnames ⊢
    rw [hd] at hnames
    rw [hc]
    exact hnames

/-- The visits of a document that stands alone, and what they were in the beginning. -/
theorem back (h : conv.Stands policy root store p d c doc) {n : NodeId} {w : Visit}
    (hw : c.survey.visit? n = some w) : ∃ v, p.survey.visit? n = some v :=
  Survey.visit?_of_has ((h.has n).symm.trans (Survey.has_of_visit? hw))

/-- What is listed in the table of a document that stands alone is a definition, and not the
    root. -/
theorem ne_root_of_mem (hs : store.Closed) (h : conv.Stands policy root store p d c doc)
    {q : Value × NodeId} (hq : q ∈ (listed c.survey.visits []).1) :
    q.2 ≠ root ∧ c.survey.defines q.2 = true := by
  obtain hnil | ⟨v, hmem, hsome, htruthy⟩ := mem_listed hq
  · cases hnil
  · have hnodup : c.survey.order.Nodup := by
      rw [h.adds.order]
      exact h.nodup hs
    have hv := visit?_of_mem hnodup hmem
    refine ⟨?_, by simpa [Survey.defines, hv] using hsome⟩
    have hnumbered := hoist_settle_numbers (h.intact hs).definitionId h.settled
    have hlisted := hnumbered.listed (h.survey ▸ hv) htruthy
    have hd : d.linkage = none := h.behind.linkage.symm.trans (h.adds.linkage.trans (h.alone hs))
    unfold isListed at hlisted
    rw [hd] at hlisted
    exact of_decide_eq_true hlisted

/-- The table of a document that stands alone lists something if there is a definition besides the
    root. -/
theorem listed_iff (hs : store.Closed) (h : conv.Stands policy root store p d c doc) :
    (listed c.survey.visits []).1 ≠ [] ↔ ∃ n, n ≠ root ∧ c.survey.defines n = true := by
  constructor
  · intro hne
    obtain ⟨q, hq⟩ := List.exists_mem_of_ne_nil _ hne
    exact ⟨_, h.ne_root_of_mem hs hq⟩
  · rintro ⟨n, hroot, hdefines⟩
    obtain ⟨v, hv, hsome⟩ := Survey.visit?_of_defines hdefines
    -- A definition that is not the root was named, and a document alone lists what has a name.
    have hid : v.definitionId.isTruthy = true := by
      rcases h.named hs n v hv with ⟨hnone, -⟩ | ⟨-, ref, -, hnames⟩
      · rw [hnone] at hsome
        cases hsome
      · unfold Names at hnames
        rw [h.adds.linkage, h.alone hs] at hnames
        dsimp only at hnames
        rw [if_neg (show n ≠ (conv.emission policy root).root from hroot)] at hnames
        exact hnames.1
    have hstop := h.stop
    rw [← h.survey] at hstop
    exact listed_ne_nil (.inr ⟨_, Survey.mem_visits hv, hsome, hid⟩) hstop

section Selection

variable (hs : store.Closed) (h : conv.Stands policy root store p d c doc)
  (hspare : ∀ n, c.survey.has n = true → c.store.Sparing conv.guide.catalog reservedKeywords n)
include hs h hspare

/-- **Definitions.** The definitions of a document that stands alone are the nodes that have to
    be. -/
theorem defined_iff {n : NodeId} {w : Visit} (hw : c.survey.visit? n = some w) :
    w.definition.isSome = true ↔
      n = root ∨ (annotatedId c.store conv.guide.catalog n).isTruthy = true ∨
        w.cycle.isSome = true ∨ (1 < w.count ∧ policy.reused = .refer) := by
  have hp := h.intact hs
  have hspare' := fun n hn => hspare n ((h.has n).trans hn)
  obtain ⟨v, hv⟩ := h.back hw
  obtain ⟨w', hw', hcycle, hcount, hiff⟩ :=
    definition_iff h.settled hv (hp.definition hv) (isReference_of_sparing hp hspare' hv)
  rw [← h.survey] at hw'
  obtain rfl := Option.some.inj (hw'.symm.trans hw)
  have hid : annotatedId c.store conv.guide.catalog n = annotatedId p.store conv.guide.catalog n := by
    unfold annotatedId
    rw [h.adds.catalog]
  have hdocument : (documentId p.store none n).isTruthy = false := rfl
  rw [hiff, hcycle, hcount, hid, h.alone hs]
  simp only [isHoisted, hasOwnAddress, hdocument, Bool.or_eq_true, Bool.and_eq_true, Bool.or_false,
    decide_eq_true_eq]
  show (v.cycle.isSome = true ∨ n = root ∨ _) ∨ _ ↔ _
  tauto

/-- The root of a document that stands alone is a definition, and its body is well formed. -/
theorem root_formed (hoverride : conv.override = none) :
    c.survey.defines root = true ∧ (c.survey.definition root).Formed := by
  have hspare' := fun n hn => hspare n ((h.has n).trans hn)
  obtain ⟨w, hw⟩ := Survey.visit?_of_has ((h.has root).trans (h.visited hs))
  have hsome := (h.defined_iff hs hspare hw).mpr (.inl rfl)
  have hformed : d.Formed := formed_of_sparing (h.intact hs) hspare' hoverride h.settled
  refine ⟨by simpa [Survey.defines, hw] using hsome, ?_⟩
  rw [definition_eq_body hw hsome, Survey.body, hw]
  exact (hformed root w (h.survey ▸ hw)).body

/-- The members of a document that stands alone show its keywords. -/
theorem members (hoverride : conv.override = none) :
    ∃ ds, doc = .obj ds ∧ c.view.Matches
      ((conv.emission policy root).assemble c.survey (listed c.survey.visits []).1) ds := by
  obtain ⟨-, htexts, hdistinct⟩ := h.root_formed hs hspare hoverride
  have hshows := h.shows
  rw [← h.survey, h.view] at hshows
  exact matches_assemble htexts hdistinct hshows

/-- What stands under the keyword for the table in a document that stands alone. -/
theorem get?_table (hoverride : conv.override = none) :
    ((conv.emission policy root).assemble c.survey (listed c.survey.visits []).1).get?
        (.str conv.guide.settings.target.definitionsKeyword) =
      if (listed c.survey.visits []).1 ≠ [] then
        some (.dict (tableEntries c.survey (listed c.survey.visits []).1))
      else none := by
  have hspare' := fun n hn => hspare n ((h.has n).trans hn)
  have hkeyword : conv.guide.settings.target.definitionsKeyword ≠ "$schema" := by
    cases conv.guide.settings.target <;> decide
  -- Nothing that was supplied holds the keyword of the table, and no rule writes it.
  have hlacks : Lacks conv.guide.settings.target.definitionsKeyword d := by
    refine lacks_of_sparing (h.intact hs) hspare' hoverride h.settled ?_
    cases conv.guide.settings.target
    · exact .inl rfl
    · exact .inr rfl
  have hnone : (c.survey.definition root).get?
      (.str conv.guide.settings.target.definitionsKeyword) = none := by
    obtain ⟨w, hw⟩ := Survey.visit?_of_has ((h.has root).trans (h.visited hs))
    have hsome := (h.defined_iff hs hspare hw).mpr (.inl rfl)
    rw [definition_eq_body hw hsome, Survey.body, hw]
    exact (hlacks root w (h.survey ▸ hw)).2
  rw [get?_assemble, if_neg hkeyword]
  by_cases htable : (listed c.survey.visits []).1 = []
  · rw [if_neg (fun hboth => hboth.2 htable), if_neg (fun hne => hne htable)]
    exact hnone
  · rw [if_pos ⟨rfl, htable⟩, if_pos htable]

/-- **Selection.** A document that stands alone selects its definitions. -/
theorem selects (hoverride : conv.override = none) :
    Selects (conv.emission policy root) c doc where
  defined hw := h.defined_iff hs hspare hw
  referred {n v} hv := by
    rcases h.named hs n v hv with ⟨hnone, -⟩ | ⟨hsome, ref, hbare, hnames⟩
    · refine .inl ⟨hnone, reference?_eq_none fun w hw => ?_⟩
      rw [Option.some.inj (hw.symm.trans hv)]
      exact hnone
    · rw [h.adds.linkage, h.alone hs] at hnames
      exact .inr ⟨hsome, ref, reference?_of_bare hv hsome hbare, hnames⟩
  table := by
    obtain ⟨ds, rfl, hds⟩ := h.members hs hspare hoverride
    have hget := h.get?_table hs hspare hoverride
    refine Iff.trans ?_ (h.listed_iff hs)
    show (Json.lookup? conv.guide.settings.target.definitionsKeyword ds).isSome = true ↔ _
    -- The table is there exactly if something is listed.
    by_cases htable : (listed c.survey.visits []).1 ≠ []
    · rw [if_pos htable] at hget
      obtain ⟨j, hj, -⟩ := hds.lookup? hget
      rw [hj]
      exact iff_of_true rfl htable
    · rw [if_neg htable] at hget
      rw [hds.lookup?_none hget]
      exact iff_of_false Bool.false_ne_true htable

/-- **Cuts.** A document that stands alone is cut at its definitions, if the nodes that pass on
    content in a circle are among them. -/
theorem cuts (hoverride : conv.override = none)
    (hcircles : ∀ n t, c.store.Passes conv.guide.settings.side n t →
      Relation.TransGen (c.store.Passes conv.guide.settings.side) t n → c.survey.defines t = true) :
    ∃ bound, ∀ links, bound ≤ links →
      Cuts (conv.emission policy root) conv.guide c.store links bound c doc := by
  have hp := h.intact hs
  have hspare' := fun n hn => hspare n ((h.has n).trans hn)
  have hnamed := h.named hs
  -- Each definition can be referred to: its fragment is a bare reference.
  have hreferred : ∀ n, c.survey.defines n = true → (c.survey.reference? n).isSome := by
    intro n hdefines
    obtain ⟨v, hv, -⟩ := Survey.visit?_of_defines hdefines
    rcases fragment_cases hnamed (Survey.has_of_visit? hv) with ⟨ref, href, -⟩ | ⟨-, hnone, -⟩
    · rw [href]
      rfl
    · rw [hdefines] at hnone
      cases hnone
  -- Content that is passed on in a circle meets a definition, where it is cut; hence the bound.
  obtain ⟨bound, hbound⟩ := hp.explored.exists_cut (h.closed hs) fun n t hpass hback =>
    hreferred t (hcircles n t hpass hback)
  refine ⟨bound, fun links hle => ?_⟩
  obtain ⟨hcontents, hcut⟩ := hbound links hle
  have hinherits : Inherits conv.guide c.store links p c := by
    refine ⟨fun n m hn he => hp.explored.edge hn he, h.adds.order, hspare', fun {n v} hn hv => ?_⟩
    obtain ⟨u, hu⟩ := Survey.visit?_of_has hn
    obtain ⟨w, hw, hsame⟩ := hcontents n u hu
    obtain rfl := Option.some.inj (hw.symm.trans hv)
    rw [h.survey] at hcircles ⊢
    exact body_eq hp hspare' hoverride rfl h.settled hu hv hsame fun t => hcircles n t
  -- Bodies of definitions hold exactly what the cut shows.
  have hbodies : ∀ n, c.survey.defines n = true → ∃ es,
      c.store.cut? conv.guide links c.survey.reference? bound n = some es ∧
        c.survey.definition n = es ∧ es.Each (Value.Leads fun m => p.survey.has m = true) := by
    intro n hdefines
    obtain ⟨v, hv, hsome⟩ := Survey.visit?_of_defines hdefines
    have hn : p.survey.has n = true := (h.has n).symm.trans (Survey.has_of_visit? hv)
    obtain ⟨es, hes⟩ := hcut n hn
    obtain ⟨hsame, htrimmed⟩ := hinherits.body_eq_cut hnamed hn hes
    exact ⟨es, hes, (definition_eq_body hv hsome).trans hsame, htrimmed.leads⟩
  have hagrees := hinherits.agrees hnamed hcut
  refine ⟨fun n hdefines => ?_, ?_, fun ms name j hmember hlookup => ?_⟩
  -- The definitions of the survey.
  · obtain ⟨es, hes, hsame, -⟩ := hbodies n hdefines
    rw [hsame]
    exact hes
  -- The members of the document that describe its root.
  · obtain ⟨es, -, hsame, hleads⟩ := hbodies root (h.root_formed hs hspare hoverride).1
    obtain ⟨ds, rfl, -⟩ := h.members hs hspare hoverride
    have hshows := h.shows
    rw [← h.survey, h.view] at hshows
    have hkept := View.shows_keeping hshows conv.guide.settings.target.describes
    rw [show conv.guide.settings.target = (conv.emission policy root).target from rfl,
      keeping_assemble] at hkept
    refine hagrees.shows (Value.leads_dict.mpr fun q hq => ?_) hkept
    exact hleads q (hsame ▸ (List.mem_filter.mp hq).1)
  -- The entries of its table, each of them the definition of a node that is not the root.
  · obtain ⟨ds, rfl, hds⟩ := h.members hs hspare hoverride
    have hget := h.get?_table hs hspare hoverride
    split at hget
    · obtain ⟨j', hj', hshows⟩ := hds.lookup? hget
      obtain rfl := Option.some.inj (hj'.symm.trans hmember)
      obtain ⟨ms', hms', hobj⟩ := View.shows_dict hshows
      obtain rfl := Json.obj.inj hobj
      obtain ⟨q, hq, hentry⟩ := hms'.exists_of_lookup? hlookup
      obtain ⟨r, hr, rfl⟩ := List.mem_map.mp hq
      obtain ⟨hroot, hdefines⟩ := h.ne_root_of_mem hs hr
      obtain ⟨es, -, hsame, hleads⟩ := hbodies r.2 hdefines
      refine ⟨r.2, hroot, hdefines, hagrees.shows (Value.leads_dict.mpr fun x hx => ?_) hentry⟩
      exact hleads x (hsame ▸ hx)
    · have hnone := hds.lookup?_none hget
      have hmember' : Json.lookup? conv.guide.settings.target.definitionsKeyword ds = some _ := hmember
      rw [hnone] at hmember'
      cases hmember'


end Selection

end Converter.Stands

/-- **Documents are cut at definitions.** Whenever a node is converted without an override, exactly
    the nodes that have to be are definitions, and the document is cut at them, if the nodes that pass
    on content in a circle are among them; as soon as enough links may be followed.

    What is supplied for the nodes is data with texts as keys, and leaves the keywords of emission to
    it. -/
theorem Export.convert_cuts (x : Export) (hoverride : x.override = none)
    {settings : ExportSettings} (hsettings : x.settings = .ok settings) {store : Store}
    (hs : store.Closed) {root : NodeId} {doc : Json} {c : Conversion}
    (h : Returns (x.convert root) (start store) doc c)
    (hspare : ∀ n, c.survey.has n = true →
      c.store.Sparing (x.annotations.getD "global") reservedKeywords n) :
    let conv := x.converter settings (x.annotations.getD "global")
    let e := conv.emission settings.emission root
    Selects e c doc ∧
      ((∀ n t, c.store.Passes settings.lowering.side n t →
          Relation.TransGen (c.store.Passes settings.lowering.side) t n →
          c.survey.defines t = true) →
        ∃ bound, ∀ links, bound ≤ links → Cuts e conv.guide c.store links bound c doc) := by
  obtain ⟨p, d, hstands⟩ := x.convert_stands hsettings hs h
  exact ⟨hstands.selects hs hspare hoverride, hstands.cuts hs hspare hoverride⟩

/-- A lazy node that stands for a read-only version of itself. -/
def readOnlyCircle : Store where
  nodes := [{ kind := .readonly, inner := .node 1 }, { kind := .lazy, getter := some 0 }]
  getters := [{ owner := .node 1, source := .named "t" }]
  names := [("t", .node 0)]

/-- The circle with an id for the read-only version. -/
def labelledCircle : Store :=
  { readOnlyCircle with
    catalogs := [("global",
      { entries := [(.node 0, [(.str "id", .str "t")])], ids := [(.str "t", .node 0)] })] }

/-- The conversion of the lazy node. -/
def circleConverted (store : Store) : Except Failure Json × Conversion :=
  ({} : Export).convert (.node 1) (start store)

/-- With an id both nodes of the circle are definitions, and the document is cut at them. -/
theorem Export.convert_cuts_labelledCircle :
    ∃ doc c, Returns (({} : Export).convert (.node 1)) (start labelledCircle) doc c ∧
      Selects { root := .node 1 } c doc ∧
      ∃ bound, ∀ links, bound ≤ links → Cuts { root := .node 1 } {} c.store links bound c doc := by
  have hclosed : labelledCircle.Closed :=
    .of_forall (by decide) (by decide) (List.forall_mem_singleton.mpr trivial)
  obtain ⟨doc, h⟩ : ∃ doc, Returns (({} : Export).convert (.node 1)) (start labelledCircle) doc
      (circleConverted labelledCircle).2 := exists_returns (by decide +kernel)
  have hnodes : (circleConverted labelledCircle).2.store.nodes = labelledCircle.nodes := by
    decide +kernel
  have hcatalog : ((circleConverted labelledCircle).2.store.catalog "global").entries
      = [(.node 0, [(.str "id", .str "t")])] := by decide +kernel
  have hdefines : ∀ n, n = .node 0 ∨ n = .node 1 →
      (circleConverted labelledCircle).2.survey.defines n = true := by
    rintro n (rfl | rfl) <;> decide +kernel
  have hresolved : (circleConverted labelledCircle).2.store.resolved? (.node 1)
      = some (.node (.node 0)) := by decide +kernel
  generalize (circleConverted labelledCircle).2 = c at hnodes hcatalog hdefines hresolved h
  obtain ⟨hselects, hcuts⟩ := Export.convert_cuts {} rfl rfl hclosed h fun n _ => by
    refine .of_forall ?_ ?_
    · rw [hnodes]
      decide
    · show ∀ p ∈ (c.store.catalog "global").entries, _
      rw [hcatalog]
      refine List.forall_mem_singleton.mpr ⟨by decide, fun p hp => ?_, by decide⟩
      exact ⟨"id", by rw [List.mem_singleton.mp hp]⟩
  refine ⟨doc, c, h, hselects, hcuts fun n t hpass _ => hdefines t ?_⟩
  -- the read-only version passes on the lazy node, and that one its answer
  obtain ⟨node, lead, hn, hlead, ht⟩ := hpass
  cases n with
  | gap => cases hn
  | node i =>
    rw [Store.node?, hnodes] at hn
    rcases i with _ | _ | i
    · cases hn
      cases hlead
      cases ht
      exact .inr rfl
    · cases hn
      cases hlead
      rw [Store.follow?, hresolved] at ht
      cases ht
      exact .inl rfl
    · cases hn

/-- Without an id the read-only version is no definition, and the document of the lazy node leaves
    out the reference to it that the content of the read-only version ends with. -/
theorem Export.convert_omits_reference :
    let c := (circleConverted readOnlyCircle).2
    (circleConverted readOnlyCircle).1.toOption.map (Json.content .draft2020)
        = some [("readOnly", .bool true)] ∧
      c.survey.reference? (.node 1) = some "#" ∧ c.survey.defines (.node 0) = false ∧
      c.store.cut? {} 2 c.survey.reference? 1 (.node 1)
        = some [(.str "readOnly", .bool true), (.str "$ref", .str "#")] := by
  decide +kernel

end SchemaGraph
