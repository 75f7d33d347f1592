import SchemaGraph.Converter
import SchemaGraph.Proofs.Document.Composing
import SchemaGraph.Proofs.Document.Listing
import SchemaGraph.Proofs.Document.Progress

namespace SchemaGraph

open SchemaGraph.Action Conversion

/-!
# The content of a root

Besides its dialect and its table a document holds what the body of its root holds, whatever the
keys of the body are and in the same order.  The body is the one that the root had before, with
the content that it passes on.

* `Entries.keeping`  — the entries under keys of some names
* `View.shows_keeping` — entries of some names show the members of these names
* `Emission.Unfolds` — a body with the content that was passed on to it
* `Emission.document_content` — the document of a root shows the unfolded body of the root
-/

namespace Json

/-! ### Members of some names -/

variable (keep : String → Bool)

/-- Inserting a member and dropping members commute. -/
theorem filter_insert (name : String) (value : Json) (ms : List (String × Json)) :
    (insert name value ms).filter (fun m => keep m.1) =
      if keep name then insert name value (ms.filter fun m => keep m.1)
      else ms.filter fun m => keep m.1 := by
  induction ms with
  | nil => cases h : keep name <;> simp [insert, h]
  | cons m rest ih =>
    obtain ⟨key, old⟩ := m
    by_cases hkey : key = name
    · subst hkey
      cases h : keep key <;> simp [insert, h]
    · cases h : keep key <;> cases h' : keep name <;> simp_all [insert]

/-- Of members put in place one after the other, those of some names are put in place alone. -/
theorem filter_ofMembers (ms : List (String × Json)) :
    (ofMembers ms).filter (fun m => keep m.1) = ofMembers (ms.filter fun m => keep m.1) := by
  suffices h : ∀ acc, (ms.foldl (fun acc m => insert m.1 m.2 acc) acc).filter (fun m => keep m.1) =
      (ms.filter fun m => keep m.1).foldl (fun acc m => insert m.1 m.2 acc)
        (acc.filter fun m => keep m.1) from h []
  induction ms with
  | nil => exact fun _ => rfl
  | cons m rest ih =>
    intro acc
    rw [List.foldl_cons, ih, filter_insert, List.filter_cons]
    split
    · rfl
    · rfl

end Json

namespace Entries

/-- The entries that become members of some names; a key that cannot be a name stays. -/
def keeping (keep : String → Bool) (e : Entries) : Entries :=
  e.filter fun p => match p.1.keyName with
    | .ok name => keep name
    | .error _ => true

/-- Under a name that is left out anything may be set. -/
theorem keeping_set {keep : String → Bool} {name : String} (hname : keep name = false) (v : Value)
    (e : Entries) : (e.set (.str name) v).keeping keep = e.keeping keep := by
  induction e with
  | nil => simp [set, keeping, Value.keyName, hname]
  | cons p rest ih =>
    obtain ⟨k, old⟩ := p
    unfold set
    split
    · rename_i hk
      rw [Value.canonical_str] at hk
      obtain rfl := Value.canonical_eq_str hk
      simp [keeping, Value.keyName, hname]
    · unfold keeping at ih ⊢
      rw [List.filter_cons, List.filter_cons, ih]

end Entries

namespace View

variable {view : View} {es : Entries} {ms : List (String × Json)}

/-- The entries of some names show the members of these names. -/
theorem ShowsEntries.keeping (h : view.ShowsEntries es ms) (keep : String → Bool) :
    view.ShowsEntries (es.keeping keep) (ms.filter fun m => keep m.1) := by
  obtain ⟨depth, path, h⟩ := h
  refine ⟨depth, path, ?_⟩
  induction es generalizing ms with
  | nil =>
    obtain rfl := Except.ok.inj h
    rfl
  | cons p rest ih =>
    obtain ⟨k, v⟩ := p
    obtain ⟨name, j, ms', hname, hj, hrest, rfl⟩ := Value.toJsonMembers_cons.mp h
    have htail := ih hrest
    unfold Entries.keeping at htail ⊢
    rw [List.filter_cons, List.filter_cons]
    simp only [hname]
    split
    · exact Value.toJsonMembers_cons.mpr ⟨name, j, _, hname, hj, htail, rfl⟩
    · exact htail

/-- An object without some members shows the mapping without the entries of these names. -/
theorem shows_keeping {os : List (String × Json)} (h : view.Shows (.dict es) (.obj os))
    (keep : String → Bool) :
    view.Shows (.dict (es.keeping keep)) (.obj (os.filter fun m => keep m.1)) := by
  obtain ⟨ms, hms, hos⟩ := shows_dict h
  obtain rfl := Json.obj.inj hos
  obtain ⟨depth, path, hrun⟩ := hms.keeping keep
  refine ⟨depth, path, ?_⟩
  rw [Value.expand, Value.toJson_dict, Json.filter_ofMembers]
  exact ⟨_, hrun, rfl⟩

end View

/-- Whether a keyword of a document describes the root: all do but the dialect and the table. -/
def Target.describes (target : Target) (name : String) : Bool :=
  name ≠ "$schema" && name ≠ target.definitionsKeyword

namespace Emission

variable {e : Emission} {c d : Conversion}

/-- Besides its dialect and its table, the keywords of a document are those of its root. -/
theorem keeping_assemble (survey : Survey) (table : List (Value × NodeId)) :
    (e.assemble survey table).keeping e.target.describes =
      (survey.definition e.root).keeping e.target.describes := by
  unfold assemble
  dsimp only
  rw [Entries.keeping_set (by simp [Target.describes])]
  split
  · rfl
  · rw [Entries.keeping_set (by simp [Target.describes])]

/-- Hoisting leaves alone which nodes pass on content. -/
theorem Hoists.next (h : Hoists e c d) {n m : NodeId} (hnext : d.Next n m) : c.Next n m := by
  obtain ⟨w, hw, hm⟩ := hnext
  obtain ⟨v, hv, rfl | ⟨ref, id, -, rfl⟩⟩ := h.cases hw
  · exact ⟨w, hv, hm⟩
  · exact ⟨v, hv, hm⟩

/-- Behind hoisting the visit of the root is a definition with the same body, if it was a
    reference only as a definition. -/
theorem hoist_root (h : Returns e.hoist c () d) {v : Visit} (hv : c.survey.visit? e.root = some v)
    (hown : v.isReference = v.definition.isSome) :
    ∃ w, d.survey.visit? e.root = some w ∧ w.definition.isSome ∧ w.body = v.body ∧
      w.merged = v.merged ∧ w.target = v.target := by
  obtain ⟨hhoists, hrefers⟩ := (hoist_hoists c).of_returns h
  have hroot : e.isHoisted c.store c.linkage e.root v = true := by
    simp [isHoisted, hasOwnAddress]
  rcases hhoists.visits hv with hsame | ⟨hfresh, ref, id, -, hdefined⟩
  · refine ⟨v, hsame, ?_, rfl, rfl, rfl⟩
    rw [← hown]
    exact hrefers e.root v v hv hsame hroot
  · refine ⟨_, hdefined, rfl, ?_, rfl, rfl⟩
    rw [hfresh] at hown
    have hnone := Option.isNone_iff_eq_none.mp (Option.isSome_eq_false_iff.mp hown.symm)
    rw [Visit.body, Visit.body, hnone]
    rfl

/-- A body that is as it was, when its visit was finished before or passes on no content, or has
    taken over the content of its target: that is the final fragment of the target, if the target is
    a definition or content is not passed on in a circle. -/
def Unfolds (target : Target) (c d : Conversion) (n : NodeId) (v : Visit) (body : Entries) :
    Prop :=
  match v.merged, v.target with
  | false, some t => ∃ below, Takes target v.body t below body ∧
      (d.survey.defines t = true ∨ ¬ Relation.TransGen c.Next n n → below = d.survey.fragment t)
  | _, _ => body = v.body

/-- Settling unfolds the body of every visit. -/
theorem settleVisits_unfolds (hoverride : e.override = none) (h' : Returns e.settleVisits c () d)
    {n : NodeId} {v : Visit} (hv : c.survey.visit? n = some v) :
    ∃ w, d.survey.visit? n = some w ∧ Unfolds e.target c d n v w.body := by
  cases hmerged : v.merged with
  | true =>
    refine ⟨v, (settleVisits_advances.of_returns h').finished hv hmerged, ?_⟩
    unfold Unfolds
    rw [hmerged]
  | false =>
    obtain ⟨w, hw, htaken, hfulfilled⟩ := settleVisits_fulfils hoverride h' hv hmerged
    refine ⟨w, hw, ?_⟩
    unfold Unfolds
    unfold Taken at htaken
    unfold Fulfilled at hfulfilled
    rw [hmerged]
    cases htarget : v.target with
    | none =>
      rw [htarget] at htaken
      exact htaken.2
    | some t =>
      rw [htarget] at htaken hfulfilled
      dsimp only at htaken hfulfilled ⊢
      -- On a circle only the fragments of definitions are known to be final; elsewhere the target
      -- was finished before.
      by_cases hloop : Relation.TransGen c.Next n n
      · obtain ⟨below, hbelow, hdefined⟩ := htaken.2
        refine ⟨below, hbelow, fun h => ?_⟩
        rcases h with hdefines | hnone
        · -- the fragment of a definition was the same all the time
          obtain ⟨x, hx, hsome⟩ : ∃ x, d.survey.visit? t = some x ∧ x.definition.isSome := by
            unfold Survey.defines at hdefines
            cases hx : d.survey.visit? t with
            | none => simp [hx] at hdefines
            | some x => exact ⟨x, rfl, by simpa [hx] using hdefines⟩
          obtain ⟨u, hu, hux⟩ := (settleVisits_persists.of_returns h').back hx
          have hsome' : u.definition.isSome := hux.hoisted.symm.trans hsome
          rw [hdefined u hu hsome', Survey.fragment, hx]
          exact (hux.fragment hsome').symm
        · exact absurd hloop hnone
      · exact ⟨_, (hfulfilled hloop).2.2, fun _ => rfl⟩

/-- What unfolds a visit unfolds one with the same body from which the same content is passed
    on. -/
theorem Unfolds.of_same {target : Target} {b : Conversion} {n : NodeId} {v w : Visit}
    {body : Entries} (h : Unfolds target c d n w body) (hbody : w.body = v.body)
    (hmerged : w.merged = v.merged) (htarget : w.target = v.target)
    (hnext : ∀ {n m}, c.Next n m → b.Next n m) : Unfolds target b d n v body := by
  unfold Unfolds at h ⊢
  rw [hbody, hmerged, htarget] at h
  split at h
  · obtain ⟨below, hbelow, hfinal⟩ := h
    refine ⟨below, hbelow, fun hloop => hfinal (hloop.imp_right fun hnone h => hnone ?_)⟩
    exact Relation.TransGen.mono (fun _ _ => hnext) n n h
  · exact h

/-- **Root.** Besides its dialect and its table, the document of a root that refers to another place
    only as a definition shows the body of the root: the one from before, with the content that the
    root passes on. -/
theorem document_content {doc : Json} (h : Returns e.document c doc d) {v : Visit}
    (hv : c.survey.visit? e.root = some v) (hown : v.isReference = v.definition.isSome) :
    ∃ w ms, d.survey.visit? e.root = some w ∧ doc = .obj ms ∧
      d.view.Shows (.dict (w.body.keeping e.target.describes)) (.obj (doc.content e.target)) ∧
      (e.override = none → Unfolds e.target c d e.root v w.body) := by
  obtain ⟨entries, f, -, hcompose, hshows, hrewrites, hsurvey⟩ := document_returns h
  obtain ⟨c₁, c₂, hclaim, hrun, hlist⟩ := compose_returns hcompose
  obtain ⟨_, c', hhoist, hsettle⟩ := returns_bind.mp hrun
  obtain ⟨-, hf, rfl⟩ := listDefinitions_returns hlist
  have hfinal : f.survey = c₂.survey := by rw [hf]
  have hvisits := (claim_returns hclaim).2
  have hv₁ : c₁.survey.visit? e.root = some v :=
    (Survey.visit?_of_visits hvisits e.root).trans hv
  -- the root is a definition, and what settling makes of it is its body
  obtain ⟨v', hv', hdefined, hbody, hmerged, htarget⟩ := hoist_root hhoist hv₁ hown
  obtain ⟨w, hw, hpersists⟩ := (settleVisits_persists.of_returns hsettle).visits hv'
  have hsome : w.definition.isSome := hpersists.hoisted.trans hdefined
  have hw' : d.survey.visit? e.root = some w := by rw [hsurvey, hfinal, hw]
  have hview : d.view = f.view := by
    unfold Conversion.view Conversion.fragmentOf
    rw [hsurvey, hrewrites.store]
    rfl
  obtain ⟨ms, hms, rfl⟩ := View.shows_dict hshows
  refine ⟨w, _, hw', rfl, ?_, fun hoverride => ?_⟩
  · have hkept := View.shows_keeping hshows e.target.describes
    rw [keeping_assemble, definition_eq_body hw hsome, Survey.body, hw] at hkept
    rw [hview]
    exact hkept
  · obtain ⟨w', hw₂, hunfolds⟩ := settleVisits_unfolds hoverride hsettle hv'
    obtain rfl := Option.some.inj (hw₂.symm.trans hw)
    have hback : ∀ {n m}, c'.Next n m → c.Next n m := by
      intro n m hnext
      obtain ⟨u, hu, hm⟩ := ((hoist_hoists c₁).of_returns hhoist).1.next hnext
      exact ⟨u, (Survey.visit?_of_visits hvisits n).symm.trans hu, hm⟩
    have hsame := hunfolds.of_same hbody hmerged htarget hback
    unfold Unfolds at hsame ⊢
    rw [hsurvey, hfinal]
    exact hsame

/-- Texts with an id that are read-only in one place, and a text whose annotation refers to another
    place. -/
def readOnlyText : Store where
  nodes := [{ kind := .string }, { kind := .readonly, inner := .node 0 }, { kind := .string }]
  catalogs := [("global",
    { entries := [(.node 0, [(.str "id", .str "name")]), (.node 2, [(.str "$ref", .str "#/x")])]
      ids := [(.str "name", .node 0)] })]

/-- The conversion of a node of the read-only text. -/
def readOnlyTextConverted (root : NodeId) : Conversion :=
  (({} : Converter).process root (Conversion.start readOnlyText)).2

/-- The document of the read-only text holds its own keyword and the reference to the text. -/
theorem document_content_readOnlyText :
    ∃ doc d w, Returns (Emission.document { root := .node 1 }) (readOnlyTextConverted (.node 1))
        doc d ∧
      d.survey.visit? (.node 1) = some w ∧
      d.view.Shows (.dict (w.body.keeping Target.draft2020.describes))
        (.obj (doc.content .draft2020)) ∧
      w.body = [(.str "readOnly", .bool true), (.str "$ref", .str "#/$defs/name")] := by
  obtain ⟨doc, h⟩ := exists_returns (a := Emission.document { root := .node 1 })
    (s := readOnlyTextConverted (.node 1)) (by decide +kernel)
  let v : Visit :=
    { fragment := [(.str "readOnly", .bool true)], target := some (.node 0) }
  have hv : (readOnlyTextConverted (.node 1)).survey.visit? (.node 1) = some v := by
    decide +kernel
  have htext : (readOnlyTextConverted (.node 1)).survey.visit? (.node 0)
      = some { fragment := [(.str "type", .str "string"), (.str "id", .str "name")] } := by
    decide +kernel
  obtain ⟨w, -, hw, -, hshows, hunfolds⟩ := document_content h hv rfl
  obtain ⟨below, htakes, hfinal⟩ : ∃ below, Takes .draft2020 v.body (.node 0) below w.body ∧ _ :=
    hunfolds rfl
  have hacyclic : ¬ Relation.TransGen (readOnlyTextConverted (.node 1)).Next (.node 1) (.node 1) := by
    -- the text passes on nothing
    intro hloop
    obtain ⟨m, ⟨u, hu, hm⟩, hrest⟩ := Relation.TransGen.head'_iff.mp hloop
    obtain rfl := Option.some.inj (hu.symm.trans hv)
    obtain rfl := Option.some.inj hm
    rcases Relation.ReflTransGen.cases_head hrest with heq | ⟨k, ⟨x, hx, hk⟩, -⟩
    · cases heq
    · obtain rfl := Option.some.inj (hx.symm.trans htext)
      cases hk
  have hbelow : (Emission.document { root := .node 1 }
      (readOnlyTextConverted (.node 1))).2.survey.fragment (.node 0)
        = [(.str "$ref", .str "#/$defs/name")] := by decide +kernel
  rw [hfinal (.inr hacyclic), hbelow] at htakes
  exact ⟨doc, _, w, h, hw, hshows, htakes⟩

/-- A root that refers to another place by its own keywords does not become a definition, and its
    document holds none of them. -/
theorem document_loses_content :
    let c := readOnlyTextConverted (.node 2)
    let run := Emission.document { root := .node 2 } c
    let body : Entries := [(.str "type", .str "string"), (.str "$ref", .str "#/x")]
    (c.survey.visit? (.node 2)).map Visit.body = some body ∧
      (run.2.survey.visit? (.node 2)).map Visit.body = some body ∧
      run.1.toOption.map (Json.content .draft2020) = some [] := by
  decide +kernel

end Emission

end SchemaGraph
