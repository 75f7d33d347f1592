import SchemaGraph.Proofs.Document.Leaves
import SchemaGraph.Proofs.Value.Senses

namespace SchemaGraph

open SchemaGraph.Action Conversion

/-!
# Values of enumerations

Of the values that an enumeration is made of, those are kept that repeat no earlier one: none of the
same type that is equal.  The values themselves are compared with truth values as numbers wherever
they stand, so that a value may count as a repetition of one that it differs from in a truth value
below its surface.  If that never happens, nothing is lost.

* `Firsts`            — the elements of a list that are like none before them
* `Json.Discernible`  — no values differ in truth values against numbers alone
* `Blueprint.distinctValues_ofJson` — what is kept of the values of an enumeration
* `Export.enumeration_emitted`      — what documents say of an enumeration
-/

/-! ### First occurrences -/

/-- The elements of a list that are like none before them, neither in the list nor among earlier
    ones, where a key tells what they are like. -/
inductive Firsts {α κ : Type} (key : α → κ) : List α → List α → List α → Prop
  | nil {before : List α} : Firsts key before [] []
  | new {before xs kept : List α} {x : α} (h : ∀ y ∈ before, key y ≠ key x)
      (hrest : Firsts key (before ++ [x]) xs kept) : Firsts key before (x :: xs) (x :: kept)
  | again {before xs kept : List α} {x y : α} (hy : y ∈ before) (h : key y = key x)
      (hrest : Firsts key (before ++ [x]) xs kept) : Firsts key before (x :: xs) kept

namespace Firsts

variable {α κ μ : Type} {key : α → κ} {before xs kept : List α}

/-- First occurrences are elements, in the same order. -/
theorem sublist (h : Firsts key before xs kept) : kept.Sublist xs := by
  induction h with
  | nil => exact .slnil
  | new _ _ ih => exact ih.cons_cons _
  | again _ _ _ ih => exact ih.cons _

/-- No first occurrence is like an earlier element. -/
theorem fresh (h : Firsts key before xs kept) : ∀ x ∈ kept, ∀ y ∈ before, key y ≠ key x := by
  induction h with
  | nil => nofun
  | new h _ ih =>
    exact List.forall_mem_cons.mpr
      ⟨h, fun x hx y hy => ih x hx y (List.mem_append_left _ hy)⟩
  | again _ _ _ ih => exact fun x hx y hy => ih x hx y (List.mem_append_left _ hy)

/-- First occurrences are unlike each other. -/
theorem nodup (h : Firsts key before xs kept) : (kept.map key).Nodup := by
  induction h with
  | nil => exact List.nodup_nil
  | @new before xs kept x _ hrest ih =>
    refine List.nodup_cons.mpr ⟨fun hmem => ?_, ih⟩
    obtain ⟨y, hy, heq⟩ := List.mem_map.mp hmem
    exact hrest.fresh y hy x (List.mem_append_right _ (List.mem_singleton_self x)) heq.symm
  | again _ _ _ ih => exact ih

/-- Every element is like a first occurrence, or like an earlier one. -/
theorem covers (h : Firsts key before xs kept) :
    ∀ x ∈ xs, ∃ y ∈ before ++ kept, key y = key x := by
  induction h with
  | nil => nofun
  | @new before xs kept x h _ ih =>
    rw [List.append_assoc, List.singleton_append] at ih
    exact List.forall_mem_cons.mpr
      ⟨⟨x, List.mem_append_right _ (List.mem_cons_self ..), rfl⟩, ih⟩
  | @again before xs kept x y hy h _ ih =>
    refine List.forall_mem_cons.mpr ⟨⟨y, List.mem_append_left _ hy, h⟩, fun z hz => ?_⟩
    obtain ⟨w, hw, heq⟩ := ih z hz
    rw [List.append_assoc, List.singleton_append] at hw
    rcases List.mem_append.mp hw with hw | hw
    · exact ⟨w, List.mem_append_left _ hw, heq⟩
    · rcases List.mem_cons.mp hw with rfl | hw
      · exact ⟨y, List.mem_append_left _ hy, h.trans heq⟩
      · exact ⟨w, List.mem_append_right _ hw, heq⟩

/-- Keys that tell the same elements apart leave the same first occurrences. -/
theorem of_keys {other : α → μ} (h : Firsts key before xs kept)
    (hsame : ∀ x ∈ before ++ xs, ∀ y ∈ before ++ xs, key x = key y ↔ other x = other y) :
    Firsts other before xs kept := by
  induction h with
  | nil => exact .nil
  | @new before xs kept x h _ ih =>
    have hx : x ∈ before ++ x :: xs := List.mem_append_right _ (List.mem_cons_self ..)
    refine .new (fun y hy heq => h y hy ((hsame y (List.mem_append_left _ hy) x hx).mpr heq)) ?_
    rw [List.append_assoc, List.singleton_append] at ih
    exact ih hsame
  | @again before xs kept x y hy h _ ih =>
    have hx : x ∈ before ++ x :: xs := List.mem_append_right _ (List.mem_cons_self ..)
    refine .again hy ((hsame y (List.mem_append_left _ hy) x hx).mp h) ?_
    rw [List.append_assoc, List.singleton_append] at ih
    exact ih hsame

end Firsts

/-! ### Repeated values -/

namespace Json

/-- The type of a document as a value. -/
def typeName (j : Json) : String := (Value.ofJson j).typeName

/-- The type of a document and what it means. -/
def typed (j : Json) : String × Sense := (j.typeName, j.sense)

/-- The same where truth values are numbers. -/
def leveled (j : Json) : String × Sense := (j.typeName, j.sense.leveled)

/-- No two documents of the same type differ in nothing but truth values that one has where the
    other has the numbers that they count as. -/
def Discernible (js : List Json) : Prop :=
  ∀ a ∈ js, ∀ b ∈ js, a.typeName = b.typeName →
    a.sense.leveled = b.sense.leveled → a.sense = b.sense

/-- Among discernible values, two are equal up to levelling only if they have equal types as well.
    -/
theorem Discernible.leveled_iff {js : List Json} (h : Discernible js) {a b : Json} (ha : a ∈ js)
    (hb : b ∈ js) : a.leveled = b.leveled ↔ a.typed = b.typed := by
  unfold leveled typed
  rw [Prod.mk.injEq, Prod.mk.injEq]
  refine and_congr_right fun htype => ⟨h a ha b hb htype, congrArg Sense.leveled⟩

end Json

namespace Blueprint

open Value

/-- One value is kept or not. -/
theorem any_same_iff {seen : List Json} {j : Json} (hseen : ∀ k ∈ seen, (ofJson k).IsData)
    (hj : (ofJson j).IsData) :
    (seen.map ofJson).any (fun s => s.typeName = (ofJson j).typeName && s.same (ofJson j)) = true ↔
      ∃ k ∈ seen, k.leveled = j.leveled := by
  rw [List.any_map, List.any_eq_true]
  refine exists_congr fun k => and_congr_right fun hk => ?_
  rw [Function.comp_apply, Bool.and_eq_true, decide_eq_true_iff, same_ofJson_iff (hseen k hk) hj]
  exact Prod.mk.injEq _ _ _ _ ▸ Iff.rfl

/-- **Repetitions.** The values that are kept are the first occurrences, where truth values count as
    numbers.  What was kept is like all that went before. -/
theorem foldl_distinct {before seen js : List Json} (hseen : ∀ k ∈ seen, (ofJson k).IsData)
    (hjs : ∀ j ∈ js, (ofJson j).IsData)
    (hsame : ∀ x, x ∈ before.map Json.leveled ↔ x ∈ seen.map Json.leveled) :
    ∃ kept, Firsts Json.leveled before js kept ∧
      (js.map ofJson).foldl (fun seen v =>
        if seen.any fun s => s.typeName = v.typeName && s.same v then seen else seen ++ [v])
          (seen.map ofJson) = (seen ++ kept).map ofJson := by
  induction js generalizing before seen with
  | nil => exact ⟨[], .nil, by rw [List.append_nil]; rfl⟩
  | cons j rest ih =>
    obtain ⟨hj, hrest⟩ := List.forall_mem_cons.mp hjs
    rw [List.map_cons, List.foldl_cons]
    -- A value that was met leaves the list of values as it is; any other one is put behind it.
    by_cases hmet : ∃ k ∈ seen, k.leveled = j.leveled
    · rw [if_pos ((any_same_iff hseen hj).mpr hmet)]
      have hmem : j.leveled ∈ seen.map Json.leveled := List.mem_map.mpr hmet
      obtain ⟨y, hy, heq⟩ := List.mem_map.mp ((hsame _).mpr hmem)
      have hnext : ∀ x, x ∈ (before ++ [j]).map Json.leveled ↔ x ∈ seen.map Json.leveled := by
        intro x
        rw [List.map_append, List.mem_append, hsame, List.map_singleton, List.mem_singleton]
        exact or_iff_left_of_imp fun hx => hx ▸ hmem
      obtain ⟨kept, hkept, hfold⟩ := ih hseen hrest hnext
      exact ⟨kept, .again hy heq hkept, hfold⟩
    · rw [if_neg (mt (any_same_iff hseen hj).mp hmet)]
      have hnext : ∀ x, x ∈ (before ++ [j]).map Json.leveled
          ↔ x ∈ (seen ++ [j]).map Json.leveled := by
        intro x
        rw [List.map_append, List.map_append, List.mem_append, List.mem_append, hsame]
      obtain ⟨kept, hkept, hfold⟩ := ih
        (List.forall_mem_append.mpr ⟨hseen, List.forall_mem_singleton.mpr hj⟩) hrest hnext
      refine ⟨j :: kept, .new (fun y hy heq => hmet ?_) hkept, ?_⟩
      · exact List.mem_map.mp ((hsame _).mp (List.mem_map.mpr ⟨y, hy, heq⟩))
      · rw [List.map_append, List.map_singleton] at hfold
        rw [hfold, List.append_assoc, List.singleton_append]

/-- Of data the builder keeps the first of those that level alike. -/
theorem distinctValues_ofJson {js : List Json} (hjs : ∀ j ∈ js, (ofJson j).IsData) :
    ∃ kept, Firsts Json.leveled [] js kept ∧
      distinctValues (js.map ofJson) = kept.map ofJson :=
  @foldl_distinct [] [] js (List.forall_mem_nil _) hjs fun _ => Iff.rfl

end Blueprint

/-! ### Enumerations -/

/-- An enumeration of values, each standing for itself. -/
def enumerated (vs : List Value) : Node :=
  { kind := .enumeration, entries := some (Blueprint.labelled vs) }

/-- Labels leave the values. -/
theorem values_labelled (vs : List Value) : (Blueprint.labelled vs).map (·.2) = vs := by
  unfold Blueprint.labelled
  rw [List.map_map]
  exact List.zipIdx_map_fst 0 vs

/-- An enumeration writes its values. -/
theorem enumerated_writes (vs : List Value) (settings : LoweringSettings) :
    (enumerated vs).Writes settings [("enum", .list vs)] where
  kind := Kind.noConfusion
  recipe _ _ := by
    show [Step.write "enum" (.list ((Blueprint.labelled vs).map (·.2)))] = _
    rw [values_labelled]
    rfl
  nodup := List.nodup_singleton _

/-- Building an enumeration makes one node. -/
theorem build_enumeration (vs : List Value) (s : Store) :
    ∃ n t, Returns (Store.build (Blueprint.enumeration vs)) s n t ∧
      t.node? n = some (enumerated (Blueprint.distinctValues vs)) :=
  ⟨s.nextId, s.push _, rfl, Store.node?_push_nextId s _⟩

/-- The document of an enumeration says its values, unless its annotation says others. -/
theorem Export.convert_enumerated {x : Export} {settings : ExportSettings} {s : Store} {n : NodeId}
    {kept : List Json} (hkept : ∀ j ∈ kept, (Value.ofJson j).IsData)
    (hsettings : x.settings = .ok settings) (hoverride : x.override = none)
    (hn : s.node? n = some (enumerated (kept.map Value.ofJson)))
    (hnotes : (Value.dict (x.notesOf s n)).IsData)
    (hown : ∀ name ∈ ["enum", "$ref"], (x.notesOf s n).get? (.str name) = none) :
    ∃ doc d, Returns (x.convert n) (start s) doc d ∧ doc.member? "enum" = some (.arr kept) := by
  have hvalues : Value.ofJson (.arr kept) = .list (kept.map Value.ofJson) := by
    rw [Value.ofJson, Value.ofJsonList_eq]
  have hdata : (Value.dict (Entries.keyed [("enum", .list (kept.map Value.ofJson))])).IsData := by
    refine Value.isData_dict.mpr ⟨⟨Entries.texts_keyed _, List.pairwise_singleton _ _⟩, ?_⟩
    refine List.forall_mem_singleton.mpr ?_
    rw [← hvalues]
    exact Value.isData_arr.mpr hkept
  -- Neither the values nor the annotation make the node a reference.
  have href : ((Entries.keyed [("enum", .list (kept.map Value.ofJson))]).update
      (x.notesOf s n)).has Visit.refKey = false := by
    unfold Entries.has
    rw [Visit.refKey, Entries.get?_update_of_none (hown "$ref" (by decide))]
    rfl
  obtain ⟨doc, d, hreturns, hdoc⟩ :=
    convert_writes hsettings hoverride hn (enumerated_writes _ _) hdata hnotes href
  refine ⟨doc, d, hreturns, ?_⟩
  have hmember := Value.member?_of_unmarked hdoc "enum"
  rw [Entries.get?_set_str, if_neg (by decide),
    Entries.get?_update_of_none (hown "enum" (by decide))] at hmember
  have hlisted : (doc.member? "enum").map Value.ofJson = some (Value.ofJson (.arr kept)) := by
    rw [hmember, ← Value.unmarked_ofJson, hvalues]
    rfl
  obtain ⟨listed, hmember, hsame⟩ := Option.map_eq_some_iff.mp hlisted
  rw [hmember, Value.ofJson_inj hsame]

/-- **Enumerations.** Of the values of an enumeration some are kept, in their order, and no two of
    the same type that are equal as JSON.  If no values of the same type differ only in truth values
    that one has where the other has zero or one, these are the first occurrences, and every value
    is equal to one that is kept.

    Building the enumeration makes a node.  Wherever it is visited first, by a descent that returns,
    its fragment holds the values that are kept, under its annotation; a descent from the node
    itself returns; and its document, in either dialect, has exactly these values, unless its
    annotation gives others. -/
theorem Export.enumeration_emitted {js : List Json} (hjs : ∀ j ∈ js, (Value.ofJson j).IsData) :
    ∃ kept : List Json, kept.Sublist js ∧ (kept.map Json.typed).Nodup ∧
      (Json.Discernible js → Firsts Json.typed [] js kept ∧
        ∀ j ∈ js, ∃ k ∈ kept, k.sense = j.sense) ∧
      ∀ s : Store, ∃ n t,
        Returns (Store.build (Blueprint.enumeration (js.map Value.ofJson))) s n t ∧
        (∀ (conv : Converter) (c : Conversion), c.store.node? n = t.node? n →
          c.survey.has n = false →
          (∀ root d, c.store.Closed → Returns (conv.process root) c () d →
            d.survey.has n = true → d.survey.fragment n
              = Entries.update [(.str "enum", .list (kept.map Value.ofJson))]
                (((d.store.catalog conv.guide.catalog).get? n).getD [])) ∧
          ∃ d, Returns (conv.process n) c () d ∧ d.survey.fragment n
            = Entries.update [(.str "enum", .list (kept.map Value.ofJson))]
              (((d.store.catalog conv.guide.catalog).get? n).getD [])) ∧
        ∀ (x : Export) (settings : ExportSettings) (u : Store), u.node? n = t.node? n →
          x.settings = .ok settings → x.override = none →
          (Value.dict (x.notesOf u n)).IsData →
          (∀ name ∈ ["enum", "$ref"], (x.notesOf u n).get? (.str name) = none) →
          ∃ doc d, Returns (x.convert n) (start u) doc d ∧
            doc.member? "enum" = some (.arr kept) := by
  obtain ⟨kept, hfirsts, hdistinct⟩ := Blueprint.distinctValues_ofJson hjs
  have hkept : ∀ k ∈ kept, (Value.ofJson k).IsData := fun k hk =>
    hjs k (hfirsts.sublist.subset hk)
  refine ⟨kept, hfirsts.sublist, ?_, fun hclear => ?_, fun s => ?_⟩
  -- Values of the same type and sense are the same at the outermost level too.
  · refine List.Nodup.of_map (fun key : String × Sense => (key.1, key.2.leveled)) ?_
    rw [List.map_map]
    exact hfirsts.nodup
  · have htyped : Firsts Json.typed [] js kept :=
      hfirsts.of_keys fun a ha b hb => hclear.leveled_iff ha hb
    refine ⟨htyped, fun j hj => ?_⟩
    obtain ⟨k, hk, heq⟩ := htyped.covers j hj
    exact ⟨k, hk, congrArg (·.2) heq⟩
  · obtain ⟨n, t, hbuild, hn⟩ := build_enumeration (js.map Value.ofJson) s
    rw [hdistinct] at hn
    refine ⟨n, t, hbuild, fun conv c hc hnew => ⟨fun root d hclosed hvisit hhas => ?_, ?_⟩,
      fun x settings u hu hsettings hoverride hnotes hown => ?_⟩
    · exact Converter.fragment_writes hclosed (hc.trans hn) (enumerated_writes _ _) hnew hvisit hhas
    · exact Converter.exists_process_writes (hc.trans hn) (enumerated_writes _ _) hnew
    · exact convert_enumerated hkept hsettings hoverride (hu.trans hn) hnotes hown

/-- What building an enumeration of values makes of the empty store. -/
def enumerationOf (js : List Json) : Store :=
  (Store.build (Blueprint.enumeration (js.map Value.ofJson)) {}).2

/-- A number, its text, a truth value, a list of it, and the number once more. -/
def mixedValues : List Json := [.int 1, .str "1", .bool true, .arr [.bool true], .int 1]

/-- Values of different types are kept, and a repeated one is not. -/
theorem Export.enumeration_emitted_mixedValues :
    (∀ j ∈ mixedValues, (Value.ofJson j).IsData) ∧ Json.Discernible mixedValues ∧
    ∃ doc d, Returns (({} : Export).convert (.node 0)) (start (enumerationOf mixedValues)) doc d ∧
      doc.member? "enum" = some (.arr [.int 1, .str "1", .bool true, .arr [.bool true]]) ∧
      Firsts Json.typed [] mixedValues [.int 1, .str "1", .bool true, .arr [.bool true]] := by
  have hjs : ∀ j ∈ mixedValues, (Value.ofJson j).IsData := by
    simp only [mixedValues, List.forall_mem_cons]
    exact ⟨.int 1, .str "1", .bool true, .list (List.forall_mem_singleton.mpr (.bool true)), .int 1,
      List.forall_mem_nil _⟩
  have hclear : Json.Discernible mixedValues := by
    intro a ha b hb htype _
    simp only [mixedValues, List.mem_cons, List.not_mem_nil, or_false] at ha hb
    rcases ha with rfl | rfl | rfl | rfl | rfl <;> rcases hb with rfl | rfl | rfl | rfl | rfl <;>
      first
        | rfl
        | exact absurd htype (by decide)
  obtain ⟨kept, -, -, hfirsts, hbuild⟩ := enumeration_emitted hjs
  obtain ⟨n, t, hbuilt, -, hdocument⟩ := hbuild {}
  obtain ⟨hn, ht⟩ := Prod.mk.inj (show (Except.ok (.node 0), enumerationOf mixedValues)
    = (Except.ok n, t) from hbuilt)
  obtain rfl := Except.ok.inj hn
  subst ht
  obtain ⟨doc, d, hconvert, henum⟩ := hdocument {} {} _ rfl rfl rfl (.dict .nil (List.forall_mem_nil _))
    (by decide)
  have hrun : (({} : Export).convert (.node 0) (start (enumerationOf mixedValues))).1 = .ok (.obj
      [("enum", .arr [.int 1, .str "1", .bool true, .arr [.bool true]]),
        ("$schema", .str Target.draft2020.schemaUri)]) := by decide +kernel
  rw [hconvert] at hrun
  obtain rfl := Except.ok.inj hrun
  -- The values that are kept are those that the document holds.
  obtain rfl : kept = [.int 1, .str "1", .bool true, .arr [.bool true]] :=
    (Json.arr.inj (Option.some.inj henum)).symm
  exact ⟨hjs, hclear, _, d, hconvert, rfl, (hfirsts hclear).1⟩

/-- A list of a number, and a list of a truth value. -/
def levelLists : List Json := [.arr [.int 1], .arr [.bool true]]

/-- A list of a truth value counts as a repetition of the list of the number that the truth value
    counts as.  It is lost, and what is kept is not equal to it. -/
theorem Export.enumeration_loses :
    (∀ j ∈ levelLists, (Value.ofJson j).IsData) ∧
    (({} : Export).convert (.node 0) (start (enumerationOf levelLists))).1 = .ok (.obj
      [("enum", .arr [.arr [.int 1]]), ("$schema", .str Target.draft2020.schemaUri)]) ∧
    Json.arr [.bool true] ∈ levelLists ∧
    ∀ k ∈ [Json.arr [.int 1]], k.sense ≠ (Json.arr [.bool true]).sense := by
  refine ⟨?_, by decide +kernel, .tail _ (.head _), List.forall_mem_singleton.mpr ?_⟩
  · exact List.forall_mem_cons.mpr ⟨.list (List.forall_mem_singleton.mpr (.int 1)),
      List.forall_mem_singleton.mpr (.list (List.forall_mem_singleton.mpr (.bool true)))⟩
  · simp [Json.sense, Json.senses]

end SchemaGraph
