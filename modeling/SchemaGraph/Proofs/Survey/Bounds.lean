import SchemaGraph.Proofs.Survey.Leaves
import SchemaGraph.Proofs.Value.Magnitudes

namespace SchemaGraph

open SchemaGraph.Action Conversion

/-!
# Bounds of numbers

A number may have an inclusive and an exclusive bound on either side, and each of them may be an
integer or a floating-point number.  Documents get one keyword for each side, and it asks for what
both bounds ask for.

* `Bounds.Admits`      — what bounds ask of a rational
* `Entries.Bounded`    — keywords that ask for what bounds ask for, one on each side
* `Keeps.collapse`     — of two bounds on one side the stricter one asks for both
* `Converter.bounds_collapse` — the keywords of a number, wherever it is visited
-/

/-- The bounds of a number, by their exact values. -/
structure Bounds where
  atLeast : Option ℚ
  above : Option ℚ
  atMost : Option ℚ
  below : Option ℚ

/-- A rational keeps to all bounds. -/
structure Bounds.Admits (b : Bounds) (x : ℚ) : Prop where
  atLeast : ∀ q ∈ b.atLeast, q ≤ x
  above : ∀ q ∈ b.above, q < x
  atMost : ∀ q ∈ b.atMost, x ≤ q
  below : ∀ q ∈ b.below, x < q

/-- The bounds among constraints. -/
def Constraints.bounds (c : Constraints) : Bounds where
  atLeast := c.minimum.rational?
  above := c.exclusiveMinimum.rational?
  atMost := c.maximum.rational?
  below := c.exclusiveMaximum.rational?

/-- The bounds among keywords. -/
def Entries.bounds (e : Entries) : Bounds where
  atLeast := (e.get? "minimum").bind Value.rational?
  above := (e.get? "exclusiveMinimum").bind Value.rational?
  atMost := (e.get? "maximum").bind Value.rational?
  below := (e.get? "exclusiveMaximum").bind Value.rational?

/-- Keywords that ask for what bounds ask for, with one keyword on each side at most. -/
structure Entries.Bounded (e : Entries) (b : Bounds) : Prop where
  admits : ∀ x, e.bounds.Admits x ↔ b.Admits x
  lower : e.get? "minimum" = none ∨ e.get? "exclusiveMinimum" = none
  upper : e.get? "maximum" = none ∨ e.get? "exclusiveMaximum" = none

/-- A value that, if it is a number, is a finite one. -/
def Value.Measured (v : Value) : Prop := v.number?.isSome = true → v.rational?.isSome = true

/-- Constraints whose bounds are finite numbers, where they are numbers. -/
structure Constraints.Measured (c : Constraints) : Prop where
  minimum : c.minimum.Measured
  exclusiveMinimum : c.exclusiveMinimum.Measured
  maximum : c.maximum.Measured
  exclusiveMaximum : c.exclusiveMaximum.Measured

/-! ### One side -/

/-- A rational keeps to an inclusive and an exclusive bound on the side where the order begins. -/
def Keeps (le : ℚ → ℚ → Prop) (inclusive exclusive : Option ℚ) (x : ℚ) : Prop :=
  (∀ q ∈ inclusive, le q x) ∧ ∀ q ∈ exclusive, ¬ le x q

section Keeps

variable {le : ℚ → ℚ → Prop} {p q x : ℚ}

/-- Two bounds ask for both. -/
theorem keeps_both : Keeps le (some p) (some q) x ↔ le p x ∧ ¬ le x q := by simp [Keeps]

/-- An inclusive bound alone asks for itself. -/
theorem keeps_inclusive : Keeps le (some p) none x ↔ le p x := by simp [Keeps]

/-- An exclusive bound alone asks for itself. -/
theorem keeps_exclusive : Keeps le none (some q) x ↔ ¬ le x q := by simp [Keeps]

/-- A rational keeps to all bounds when it keeps to those of either side. -/
theorem Bounds.admits_iff (b : Bounds) : b.Admits x ↔
    Keeps (· ≤ ·) b.atLeast b.above x ∧ Keeps (· ≥ ·) b.atMost b.below x := by
  simp only [Keeps, not_le, ge_iff_le]
  exact ⟨fun h => ⟨⟨h.atLeast, h.above⟩, h.atMost, h.below⟩,
    fun ⟨⟨h₁, h₂⟩, h₃, h₄⟩ => ⟨h₁, h₂, h₃, h₄⟩⟩

end Keeps

/-- Of an inclusive and an exclusive bound the one that is kept; the exclusive one is, if it wins
    over the other. -/
def collapse (wins : Number → Number → Bool) (inclusive exclusive : Value) :
    Option Value × Option Value :=
  match inclusive.number?, exclusive.number? with
  | some i, some e => if wins i e then (none, some exclusive) else (some inclusive, none)
  | some _, none => (some inclusive, none)
  | none, some _ => (none, some exclusive)
  | none, none => (none, none)

variable {inclusive exclusive : Value}

/-- At most one of two bounds is kept. -/
theorem collapse_one (wins : Number → Number → Bool) (inclusive exclusive : Value) :
    (collapse wins inclusive exclusive).1 = none ∨
      (collapse wins inclusive exclusive).2 = none := by
  unfold collapse
  split
  · split
    · exact .inl rfl
    · exact .inr rfl
  · exact .inr rfl
  · exact .inl rfl
  · exact .inl rfl

/-- A finite number has an exact value. -/
theorem Value.Measured.exists_eq {v : Value} (h : v.Measured) {x : Number}
    (hx : v.number? = some x) : ∃ q, v.rational? = some q ∧ x.rational? = some q := by
  obtain ⟨q, hq⟩ := Option.isSome_iff_exists.mp (h (by rw [hx]; rfl))
  refine ⟨q, hq, ?_⟩
  rwa [rational?, hx] at hq

/-- A value that is no number has no exact value. -/
theorem Value.rational?_eq_none {v : Value} (h : v.number? = none) : v.rational? = none := by
  rw [rational?, h]
  rfl

/-- **One side.** The bound that is kept asks for what both bounds ask for, if the exclusive one
    wins exactly when the inclusive one is no stricter. -/
theorem Keeps.collapse (le : ℚ → ℚ → Prop) (wins : Number → Number → Bool)
    (htrans : ∀ {p q r}, le p q → le q r → le p r) (htotal : ∀ p q, le p q ∨ le q p)
    (hwins : ∀ {i e p q}, i.rational? = some p → e.rational? = some q → (wins i e = true ↔ le p q))
    (hi : inclusive.Measured) (he : exclusive.Measured) (x : ℚ) :
    Keeps le ((collapse wins inclusive exclusive).1.bind Value.rational?)
        ((collapse wins inclusive exclusive).2.bind Value.rational?) x
      ↔ Keeps le inclusive.rational? exclusive.rational? x := by
  unfold SchemaGraph.collapse
  -- Each bound is a number or missing; only with both there is something to compare.
  cases hinumber : inclusive.number? with
  | none =>
    rw [Value.rational?_eq_none hinumber]
    cases henumber : exclusive.number? with
    | none => rw [Value.rational?_eq_none henumber]; rfl
    | some e => rfl
  | some i =>
    obtain ⟨p, hp, hip⟩ := hi.exists_eq hinumber
    cases henumber : exclusive.number? with
    | none => rw [Value.rational?_eq_none henumber]; rfl
    | some e =>
      obtain ⟨q, hq, heq⟩ := he.exists_eq henumber
      dsimp only
      rw [hp, hq, keeps_both]
      by_cases hle : le p q
      · -- beyond the exclusive bound lies nothing that the inclusive one forbids
        rw [if_pos ((hwins hip heq).mpr hle), Option.bind_none, Option.bind_some, hq,
          keeps_exclusive]
        exact ⟨fun hx => ⟨htrans hle ((htotal x q).resolve_left hx), hx⟩, fun hx => hx.2⟩
      · rw [if_neg (mt (hwins hip heq).mp hle), Option.bind_some, Option.bind_none, hp,
          keeps_inclusive]
        exact ⟨fun hx => ⟨hx, fun hxq => hle (htrans hx hxq)⟩, fun hx => hx.1⟩

/-! ### Keywords -/

/-- The keywords of one side for the bounds that are kept. -/
def sideKeywords (inclusiveKey exclusiveKey : String) (kept : Option Value × Option Value) :
    List (String × Value) :=
  (kept.1.map fun v => (inclusiveKey, v)).toList ++ (kept.2.map fun v => (exclusiveKey, v)).toList

/-- The keywords of the lower side are those of the bounds that are kept. -/
theorem lowerBound_eq (inclusive exclusive : Value) : lowerBound inclusive exclusive
    = sideKeywords "minimum" "exclusiveMinimum" (collapse Number.le inclusive exclusive) := by
  unfold lowerBound collapse
  cases inclusive.number? <;> cases exclusive.number?
  case some.some =>
    dsimp only
    split <;> rfl
  all_goals rfl

/-- The keywords of the upper side are those of the bounds that are kept; there the order runs the
    other way. -/
theorem upperBound_eq (inclusive exclusive : Value) : upperBound inclusive exclusive
    = sideKeywords "maximum" "exclusiveMaximum"
        (collapse (fun i e => e.le i) inclusive exclusive) := by
  unfold upperBound collapse
  cases inclusive.number? <;> cases exclusive.number?
  case some.some =>
    dsimp only
    split <;> rfl
  all_goals rfl

variable {inclusiveKey exclusiveKey : String} {kept : Option Value × Option Value}

/-- One side writes no keywords but its two, in order. -/
theorem names_sideKeywords (kept : Option Value × Option Value) :
    ((sideKeywords inclusiveKey exclusiveKey kept).map (·.1)).Sublist
      [inclusiveKey, exclusiveKey] := by
  obtain ⟨_ | v, _ | w⟩ := kept <;> simp [sideKeywords]

/-- Under its two keywords one side writes the bounds that are kept. -/
theorem get?_sideKeywords (hkeys : inclusiveKey ≠ exclusiveKey) :
    (Entries.keyed (sideKeywords inclusiveKey exclusiveKey kept)).get? (.str inclusiveKey)
        = kept.1 ∧
      (Entries.keyed (sideKeywords inclusiveKey exclusiveKey kept)).get? (.str exclusiveKey)
        = kept.2 := by
  obtain ⟨_ | v, _ | w⟩ := kept <;>
    simp [sideKeywords, Entries.keyed, Entries.get?, hkeys, hkeys.symm]

/-- The keywords of a number: its type, its bounds and its step. -/
def numberWrites (type : String) (c : Constraints) : List (String × Value) :=
  ("type", .str type) :: (boundKeywords c
    ++ if c.multipleOf.number?.isSome then [("multipleOf", c.multipleOf)] else [])

/-- Every keyword of a number is written once. -/
theorem nodup_numberWrites (type : String) (c : Constraints) :
    ((numberWrites type c).map (·.1)).Nodup := by
  have hstep : ((if c.multipleOf.number?.isSome then [("multipleOf", c.multipleOf)] else []).map
      (·.1)).Sublist ["multipleOf"] := by
    split <;> simp
  have hall : ((numberWrites type c).map (·.1)).Sublist ["type", "minimum", "exclusiveMinimum",
      "maximum", "exclusiveMaximum", "multipleOf"] := by
    rw [numberWrites, boundKeywords, lowerBound_eq, upperBound_eq, List.map_cons, List.map_append,
      List.map_append]
    exact (((names_sideKeywords _).append (names_sideKeywords _)).append hstep).cons_cons _
  exact hall.nodup (by decide)

/-- Bounds are told from the keywords of the bounds alone. -/
theorem get?_numberWrites {name : String} (htype : name ≠ "type") (hstep : name ≠ "multipleOf")
    (type : String) (c : Constraints) :
    (Entries.keyed (numberWrites type c)).get? (.str name)
      = ((Entries.keyed (lowerBound c.minimum c.exclusiveMinimum)).get? (.str name)).or
        ((Entries.keyed (upperBound c.maximum c.exclusiveMaximum)).get? (.str name)) := by
  have hhead : (Entries.keyed [("type", .str type)]).get? (.str name) = none :=
    Entries.get?_keyed_none (by simpa using htype)
  have hlast : (Entries.keyed (if c.multipleOf.number?.isSome then
      [("multipleOf", c.multipleOf)] else [])).get? (.str name) = none := by
    refine Entries.get?_keyed_none fun hmem => ?_
    split at hmem
    · exact hstep (List.mem_singleton.mp hmem)
    · cases hmem
  rw [numberWrites, ← List.singleton_append, Entries.get?_keyed_append, hhead, Option.none_or,
    Entries.get?_keyed_append, hlast, Option.or_none, boundKeywords, Entries.get?_keyed_append]

/-- The keywords for the lower side are those for the bound that is kept there. -/
theorem get?_numberWrites_lower (type : String) (c : Constraints) :
    (Entries.keyed (numberWrites type c)).get? "minimum"
        = (collapse Number.le c.minimum c.exclusiveMinimum).1 ∧
      (Entries.keyed (numberWrites type c)).get? "exclusiveMinimum"
        = (collapse Number.le c.minimum c.exclusiveMinimum).2 := by
  have hupper : ∀ {name : String}, name ∉ ["maximum", "exclusiveMaximum"] →
      (Entries.keyed (upperBound c.maximum c.exclusiveMaximum)).get? (.str name) = none := by
    intro name hname
    rw [upperBound_eq]
    exact Entries.get?_keyed_none (mt (fun h => (names_sideKeywords _).subset h) hname)
  rw [get?_numberWrites (by decide) (by decide), get?_numberWrites (by decide) (by decide),
    hupper (by decide), hupper (by decide), Option.or_none, Option.or_none, lowerBound_eq]
  exact get?_sideKeywords (by decide)

/-- The keywords for the upper side are those for the bound that is kept there. -/
theorem get?_numberWrites_upper (type : String) (c : Constraints) :
    (Entries.keyed (numberWrites type c)).get? "maximum"
        = (collapse (fun i e => e.le i) c.maximum c.exclusiveMaximum).1 ∧
      (Entries.keyed (numberWrites type c)).get? "exclusiveMaximum"
        = (collapse (fun i e => e.le i) c.maximum c.exclusiveMaximum).2 := by
  have hlower : ∀ {name : String}, name ∉ ["minimum", "exclusiveMinimum"] →
      (Entries.keyed (lowerBound c.minimum c.exclusiveMinimum)).get? (.str name) = none := by
    intro name hname
    rw [lowerBound_eq]
    exact Entries.get?_keyed_none (mt (fun h => (names_sideKeywords _).subset h) hname)
  rw [get?_numberWrites (by decide) (by decide), get?_numberWrites (by decide) (by decide),
    hlower (by decide), hlower (by decide), Option.none_or, Option.none_or, upperBound_eq]
  exact get?_sideKeywords (by decide)

/-- **Keywords.** The keywords of a number ask for what its bounds ask for. -/
theorem bounded_numberWrites {c : Constraints} (h : c.Measured) (type : String) :
    (Entries.keyed (numberWrites type c)).Bounded c.bounds := by
  obtain ⟨hatLeast, habove⟩ := get?_numberWrites_lower type c
  obtain ⟨hatMost, hbelow⟩ := get?_numberWrites_upper type c
  refine ⟨fun x => ?_, ?_, ?_⟩
  · have hfrom := Keeps.collapse (· ≤ ·) Number.le le_trans le_total Number.le_iff h.minimum
      h.exclusiveMinimum x
    have hupTo := Keeps.collapse (· ≥ ·) (fun i e => e.le i) (fun hp hq => le_trans hq hp)
      (fun p q => le_total q p) (fun hp hq => Number.le_iff hq hp) h.maximum h.exclusiveMaximum x
    rw [Bounds.admits_iff, Bounds.admits_iff, Entries.bounds, hatLeast, habove, hatMost, hbelow]
    exact and_congr hfrom hupTo
  · rw [hatLeast, habove]
    exact collapse_one _ _ _
  · rw [hatMost, hbelow]
    exact collapse_one _ _ _

/-- Keywords that are no bounds leave what is asked for as it is. -/
theorem Entries.Bounded.update {e news : Entries} {b : Bounds} (h : e.Bounded b)
    (hnews : ∀ name ∈ ["minimum", "exclusiveMinimum", "maximum", "exclusiveMaximum"],
      news.get? (.str name) = none) : (e.update news).Bounded b := by
  have hsame : ∀ name ∈ ["minimum", "exclusiveMinimum", "maximum", "exclusiveMaximum"],
      (e.update news).get? (.str name) = e.get? (.str name) :=
    fun name hname => get?_update_of_none (hnews name hname)
  simp only [List.forall_mem_cons, List.not_mem_nil, false_implies, implies_true, and_true] at hsame
  obtain ⟨hatLeast, habove, hatMost, hbelow⟩ := hsame
  have hbounds : (e.update news).bounds = e.bounds := by
    rw [bounds, hatLeast, habove, hatMost, hbelow, ← bounds]
  exact ⟨fun x => by rw [hbounds]; exact h.admits x, by rw [hatLeast, habove]; exact h.lower,
    by rw [hatMost, hbelow]; exact h.upper⟩

/-! ### Visits -/

/-- A number that is neither a clone nor lowered by a function. -/
structure Node.IsNumber (node : Node) : Prop where
  kind : node.kind = .number
  parent : node.parent = .gap
  lowering : node.lowering = .null

/-- Whether whole numbers are asked for can be told from the format, if there is one. -/
def Constraints.NumericFormat (c : Constraints) : Prop :=
  c.format.isTruthy = true → (asksForIntegers c.format).isOk = true

/-- A number whose format is clear writes its keywords and nothing else. -/
theorem numberSteps_of_numericFormat {c : Constraints} (h : c.NumericFormat) :
    ∃ type, numberSteps c = writeSteps (numberWrites type c) := by
  have hsteps : ∀ type : String,
      .write "type" (.str type) :: (boundKeywords c).map (fun w => .write w.1 w.2)
        ++ numberKeyword "multipleOf" c.multipleOf = writeSteps (numberWrites type c) := by
    intro type
    have hstep : numberKeyword "multipleOf" c.multipleOf = writeSteps
        (if c.multipleOf.number?.isSome then [("multipleOf", c.multipleOf)] else []) := by
      unfold numberKeyword
      split <;> rfl
    rw [hstep, writeSteps, writeSteps, numberWrites, List.map_cons, List.map_append]
    rfl
  unfold numberSteps
  -- The format only decides between two types; where it is none that is known, it would fail.
  by_cases hformat : c.format.isTruthy = true
  · have hok := h hformat
    rw [if_pos hformat]
    cases hasks : asksForIntegers c.format with
    | error f =>
      rw [hasks] at hok
      cases hok
    | ok whole => exact ⟨_, hsteps _⟩
  · rw [if_neg hformat]
    exact ⟨_, hsteps _⟩

/-- A number whose format is unclear fails at once. -/
theorem numberSteps_of_not_numericFormat {c : Constraints} (h : ¬ c.NumericFormat) :
    ∃ f, numberSteps c = [.fail f] := by
  obtain ⟨hformat, hnone⟩ := Classical.not_imp.mp h
  unfold numberSteps
  rw [if_pos hformat]
  cases hasks : asksForIntegers c.format with
  | error f => exact ⟨f, rfl⟩
  | ok whole =>
    rw [hasks] at hnone
    exact absurd rfl hnone

namespace Node.IsNumber

variable {node : Node} (h : node.IsNumber)
include h

/-- The recipe of a number is made of the steps of its constraints. -/
theorem recipe_eq (settings : LoweringSettings) (catchall : Option Kind) (path : Path) :
    node.recipe settings catchall path = numberSteps node.constraints := by
  unfold Node.recipe
  rw [if_neg (not_not_intro h.lowering), if_neg (not_not_intro h.parent)]
  unfold kindSteps
  rw [h.kind]

/-- A number writes its keywords. -/
theorem writes (hformat : node.constraints.NumericFormat) :
    ∃ type, ∀ settings, node.Writes settings (numberWrites type node.constraints) := by
  obtain ⟨type, hsteps⟩ := numberSteps_of_numericFormat hformat
  refine ⟨type, fun settings => ⟨?_, fun catchall path => ?_, nodup_numberWrites _ _⟩⟩
  · rw [h.kind]
    exact Kind.noConfusion
  · rw [h.recipe_eq, hsteps]

/-- Without a format that can be told, a number contributes nothing. -/
theorem contents?_eq_none (hformat : ¬ node.constraints.NumericFormat) {s : Store} {guide : Guide}
    {links : Nat} {n : NodeId} (hn : s.node? n = some node) : s.contents? guide links n = none := by
  obtain ⟨f, hfail⟩ := numberSteps_of_not_numericFormat hformat
  unfold Store.contents?
  rw [hn]
  dsimp only
  rw [h.recipe_eq, hfail]
  rfl

end Node.IsNumber

/-- **Bounds.** The keywords of a number ask exactly for what all its bounds ask for, whatever
    bounds it has and whether they are integers or floating-point numbers, with at most one keyword
    on each side.  Wherever the number is visited first, by a descent that returns, its fragment
    holds these keywords, under its annotation; a descent from the number itself returns; and an
    annotation that does not set bounds leaves what is asked for as it is. -/
theorem Converter.bounds_collapse {node : Node} (hnumber : node.IsNumber)
    (hfinite : node.constraints.Measured) :
    ∃ own : Entries, own.Bounded node.constraints.bounds ∧
      (∀ notes : Entries, (∀ name ∈ ["minimum", "exclusiveMinimum", "maximum", "exclusiveMaximum"],
          notes.get? (.str name) = none) → (own.update notes).Bounded node.constraints.bounds) ∧
      ∀ (conv : Converter) {c : Conversion} {n : NodeId}, c.store.node? n = some node →
        c.survey.has n = false →
        (∀ {root : NodeId} {d : Conversion}, c.store.Closed → Returns (conv.process root) c () d →
          d.survey.has n = true → d.survey.fragment n = own.update
            (((d.store.catalog conv.guide.catalog).get? n).getD [])) ∧
        (node.constraints.NumericFormat → ∃ d, Returns (conv.process n) c () d ∧
          d.survey.fragment n = own.update
            (((d.store.catalog conv.guide.catalog).get? n).getD [])) := by
  by_cases hformat : node.constraints.NumericFormat
  · obtain ⟨type, hwrites⟩ := hnumber.writes hformat
    have hbounded := bounded_numberWrites hfinite type
    refine ⟨_, hbounded, fun notes => hbounded.update, fun conv c n hn hnew => ⟨?_, fun _ => ?_⟩⟩
    · intro root d hs hvisit hhas
      exact fragment_writes hs hn (hwrites _) hnew hvisit hhas
    · exact exists_process_writes hn (hwrites _) hnew
  · have hbounded := bounded_numberWrites hfinite "number"
    refine ⟨_, hbounded, fun notes => hbounded.update, fun conv c n hn hnew =>
      ⟨fun {root d} hs hvisit hhas => ?_, fun h => absurd h hformat⟩⟩
    obtain ⟨hexplores, -⟩ := process_explores hs hvisit
    obtain ⟨v, hv⟩ := Survey.visit?_of_has hhas
    obtain ⟨links, w, hw, -⟩ := hexplores.contents hnew hv
    have hnode : d.store.node? n = some node := (hexplores.descends.store hs).1.node? hn
    rw [hnumber.contents?_eq_none hformat hnode] at hw
    cases hw

/-- A number from `1`, and beyond `1.0`, up to `2.5`, and below `3`. -/
def tiedNumber : Node where
  kind := .number
  constraints :=
    { minimum := .int 1, exclusiveMinimum := .float (.finite false 4503599627370496 (-52))
      maximum := .float (.finite false 5629499534213120 (-51)), exclusiveMaximum := .int 3 }

/-- Of two bounds that are the same number the exclusive one is kept, and of the others the stricter
    one. -/
theorem Converter.bounds_collapse_tiedNumber :
    ∃ own d, Returns (({} : Converter).process (.node 0)) (start { nodes := [tiedNumber] }) () d ∧
      d.survey.fragment (.node 0) = own ∧ own = [(.str "type", .str "number"),
        (.str "exclusiveMinimum", .float (.finite false 4503599627370496 (-52))),
        (.str "maximum", .float (.finite false 5629499534213120 (-51)))] ∧
      own.Bounded tiedNumber.constraints.bounds := by
  obtain ⟨own, hbounded, -, hall⟩ := @Converter.bounds_collapse tiedNumber
    ⟨rfl, rfl, rfl⟩ ⟨fun _ => rfl, fun _ => rfl, fun _ => rfl, fun _ => rfl⟩
  obtain ⟨d, hvisit, hfragment⟩ :=
    (hall {} (c := start { nodes := [tiedNumber] }) (n := .node 0) rfl rfl).2 nofun
  have hd : (({} : Converter).process (.node 0) (start { nodes := [tiedNumber] })).2 = d :=
    congrArg (·.2) hvisit
  have hnotes : (d.store.catalog "global").get? (.node 0) = none := by
    rw [← hd]
    decide +kernel
  rw [show ({} : Converter).guide.catalog = "global" from rfl, hnotes] at hfragment
  refine ⟨own, d, hvisit, hfragment, hfragment.symm.trans ?_, hbounded⟩
  rw [← hd]
  decide +kernel

end SchemaGraph
