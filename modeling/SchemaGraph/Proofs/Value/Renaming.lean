import Mathlib.Data.List.Forall2
import SchemaGraph.Proofs.Value.Shown
import SchemaGraph.Survey.Definitions

namespace SchemaGraph

/-!
# Keywords that dialects spell differently

Two dialects hold the items of a tuple under different keywords, refer to definitions by different
addresses, and write a reference beside other keywords in different ways.  Everything else is the
same in both, under the same keys and in the same order.  Mappings that correspond in this way do so
still when corresponding entries are set, merged or erased.

* `dialectKeywords`  — the keywords that are not simply taken over
* `Spelling`         — which of them a mapping may hold
* `Entries.Reworded` — mappings that say the same in two dialects
* `Entries.Reworded.set`, `Entries.Reworded.update`, `Entries.Reworded.erase` — changes to both
-/

/-- The keywords that dialects spell or use differently. -/
def dialectKeywords : List String :=
  ["$ref", "allOf", "items", "prefixItems", "additionalItems", "$defs", "definitions", "$schema"]

/-! ### Numerals -/

namespace Binary64

/-- The signs that numbers are written with. -/
def isNumeral (c : Char) : Bool := c.isDigit || c ∈ ['-', '+', '.', 'e']

/-- A text that consists of such signs. -/
def Numerals (cs : List Char) : Prop := ∀ c ∈ cs, isNumeral c = true

instance (cs : List Char) : Decidable (Numerals cs) :=
  decidable_of_iff (cs.all isNumeral = true) List.all_eq_true

/-- Two texts of numerals are one. -/
theorem Numerals.append {cs ds : List Char} (h : Numerals cs) (h' : Numerals ds) :
    Numerals (cs ++ ds) := fun c hc => (List.mem_append.mp hc).elim (h c) (h' c)

/-- A numeral in front of others is one more. -/
theorem Numerals.cons {c : Char} {cs : List Char} (hc : isNumeral c = true) (h : Numerals cs) :
    Numerals (c :: cs) := List.forall_mem_cons.mpr ⟨hc, h⟩

/-- Of numerals any choice consists of numerals. -/
theorem Numerals.subset {cs ds : List Char} (h : Numerals cs) (hsub : ds ⊆ cs) : Numerals ds :=
  fun c hc => h c (hsub hc)

/-- Decimal digits are numerals. -/
theorem numerals_digits (k : Nat) : Numerals (Nat.toDigits 10 k) := fun c hc => by
  unfold isNumeral
  rw [Nat.isDigit_of_mem_toDigits (by decide) (by decide) hc]
  rfl

/-- Zeros are numerals. -/
theorem numerals_zeros (k : Nat) : Numerals (List.replicate k '0') := fun c hc => by
  rw [List.eq_of_mem_replicate hc]
  rfl

/-- Digits around a point are numerals. -/
theorem Numerals.positional {ds : List Char} (h : Numerals ds) (point : Int) :
    Numerals (positional ds point) := by
  unfold Binary64.positional
  split
  · exact .cons rfl (.cons rfl ((numerals_zeros _).append h))
  · refine ((h.subset (List.take_subset _ _)).append (numerals_zeros _)).append (.cons rfl ?_)
    split
    · decide
    · exact h.subset (List.drop_subset _ _)

/-- Digits with an exponent are numerals. -/
theorem Numerals.scientific {ds : List Char} (h : Numerals ds) (exponent : Int) :
    Numerals (scientific ds exponent) := by
  unfold Binary64.scientific
  refine .append ?_ (.cons rfl (.cons ?_ ((numerals_zeros _).append (numerals_digits _))))
  · split
    · exact h
    · exact h
    · obtain ⟨hd, hrest⟩ := List.forall_mem_cons.mp h
      exact .cons hd (.cons rfl hrest)
  · split <;> rfl

/-- A finite number is written with the signs of numbers. -/
theorem numerals_finiteText (negative : Bool) (m : Nat) (e : Int) :
    Numerals (finiteText negative m e) := by
  have hsign : Numerals (if negative then ['-'] else []) := by cases negative <;> decide
  have htrimmed : ∀ k, Numerals (dropTrailingZeros (Nat.toDigits 10 k)) := fun k =>
    (numerals_digits k).subset fun c hc =>
      List.mem_reverse.mp ((List.dropWhile_sublist _).mem (List.mem_reverse.mp hc))
  unfold finiteText
  dsimp only
  split
  · exact hsign.append (by decide)
  · refine hsign.append ?_
    split
    · exact (htrimmed _).positional _
    · exact (htrimmed _).scientific _

/-- An integer is written in numerals. -/
theorem numerals_int (i : Int) : Numerals (toString i).toList := by
  cases i with
  | ofNat k =>
    show Numerals (Nat.repr k).toList
    rw [Nat.toList_repr]
    exact numerals_digits k
  | negSucc k =>
    show Numerals ("-" ++ Nat.repr (k + 1)).toList
    rw [String.toList_append, Nat.toList_repr]
    exact .append (by decide) (numerals_digits _)

end Binary64

open Binary64

/-! ### Keys that are taken over -/

namespace Value

/-- A key that becomes none of the keywords that dialects spell differently. -/
def Neutral (k : Value) : Prop := ∀ name, k.keyName = .ok name → name ∉ dialectKeywords

/-- A text is neutral exactly if it is none of the keywords that dialects spell differently. -/
theorem neutral_str {name : String} : Neutral (.str name) ↔ name ∉ dialectKeywords :=
  ⟨fun h => h name rfl, fun h other hother => by cases hother; exact h⟩

/-- No number is written like one of the keywords. -/
theorem not_mem_of_numerals {name : String} (h : Numerals name.toList) :
    name ∉ dialectKeywords := by
  have hletter : ∀ word ∈ dialectKeywords, ¬ Numerals word.toList := by decide
  exact fun hmem => hletter name hmem h

/-- Only texts become keywords that dialects spell differently. -/
theorem neutral_of_ne {k : Value} (h : ∀ name ∈ dialectKeywords, k ≠ .str name) : k.Neutral := by
  intro name hname hmem
  cases k with
  | str s =>
    cases hname
    exact h _ hmem rfl
  | null =>
    cases hname
    revert hmem
    decide
  | bool b =>
    cases hname
    revert hmem
    cases b <;> decide
  -- Numbers as keys are written in digits, and no such keyword is.
  | int i =>
    cases hname
    exact not_mem_of_numerals (numerals_int i) hmem
  | bigint i =>
    cases hname
    exact not_mem_of_numerals (numerals_int i) hmem
  | float x =>
    cases x with
    | finite negative m e =>
      cases hname
      refine not_mem_of_numerals ?_ hmem
      show Numerals (String.ofList _).toList
      rw [String.toList_ofList]
      exact numerals_finiteText negative m e
    | _ => cases hname
  | _ => cases hname

/-- A neutral key never counts as one of these keywords. -/
theorem Neutral.ne {k : Value} (h : k.Neutral) {name : String} (hname : name ∈ dialectKeywords) :
    k.canonical ≠ .str name := fun hk => by
  rw [canonical_eq_str hk, neutral_str] at h
  exact h hname

end Value

/-! ### Entries in two dialects -/

/-- The document that holds the table of definitions: the only one, or that of what several
    documents have in common. -/
def tableDocument : Option Addressing → String
  | none => ""
  | some addressing => addressing.address Emission.sharedDocument

/-- The addresses of the same definition in documents of either dialect, which stand alone or have
    addresses of their own. -/
inductive Readdressed : Option Addressing → String → String → Prop
  | root : Readdressed none "#" "#"
  | document (addressing : Addressing) (id : String) :
    Readdressed (some addressing) (addressing.address id) (addressing.address id)
  | definition (scope : Option Addressing) (id : Value) :
    Readdressed scope (Emission.definitionAddress .draft2020 (tableDocument scope) id)
      (Emission.definitionAddress .draft7 (tableDocument scope) id)

/-- What stands in a list of alternatives. -/
inductive Value.Schematic : Value → Prop
  | fragment (n : NodeId) : Schematic (.fragment n)
  | null : Schematic (.dict [("type", .str "null")])

/-- What stands under a key that is taken over: data, or the schemas of other nodes. -/
inductive Value.Held : Value → Value → Prop
  | data (key : Value) {v : Value} (h : v.isPlain = true) : Held key v
  | schema {key : String} (n : NodeId) (h : key ∈ ["additionalProperties", "propertyNames"]) :
    Held (.str key) (.fragment n)
  | alternatives {xs : List Value} (h : ∀ x ∈ xs, x.Schematic) : Held (.str "anyOf") (.list xs)
  | properties {es : Entries} (h : ∀ p ∈ es, ∃ n, p.2 = .fragment n) :
    Held (.str "properties") (.dict es)

/-- The ways in which the keywords are used that dialects spell differently. -/
inductive Spelling where
  /-- There is none of them. -/
  | neutral
  /-- The items of a sequence, or the sides of an intersection. -/
  | common
  /-- The items of a tuple. -/
  | tuple
  /-- A reference beside other keywords. -/
  | wrapper
deriving DecidableEq

/-- An entry in two dialects.  A node may refer to an address in the second one. -/
inductive Value.Reworded (scope : Option Addressing) (refers : NodeId → String → Prop) :
    Spelling → Value × Value → Value × Value → Prop
  | same {form : Spelling} {key v : Value} (hkey : key.Neutral) (hv : Held key v) :
    Reworded scope refers form (key, v) (key, v)
  | items (n : NodeId) : Reworded scope refers .common ("items", .fragment n) ("items", .fragment n)
  | sides (ns : List NodeId) :
    Reworded scope refers .common ("allOf", fragments ns) ("allOf", fragments ns)
  | leading (ns : List NodeId) :
    Reworded scope refers .tuple ("prefixItems", fragments ns) ("items", fragments ns)
  | rest (n : NodeId) :
    Reworded scope refers .tuple ("items", .fragment n) ("additionalItems", .fragment n)
  | besides {target : NodeId} {ref ref' : String} (haddress : Readdressed scope ref ref')
      (hrefers : refers target ref') :
    Reworded scope refers .wrapper ("$ref", .str ref) ("allOf", .list [.fragment target])

namespace Value.Reworded

variable {scope scope' : Option Addressing} {refers refers' : NodeId → String → Prop}
  {form : Spelling} {p q p' q' : Value × Value}

/-- An entry is the same in two dialects where nodes refer to more addresses. -/
theorem mono (hsub : ∀ n ref, refers n ref → refers' n ref) (h : Reworded scope refers form p q) :
    Reworded scope refers' form p q := by
  cases h with
  | same hkey hv => exact .same hkey hv
  | items n => exact .items n
  | sides ns => exact .sides ns
  | leading ns => exact .leading ns
  | rest n => exact .rest n
  | besides haddress hrefers => exact .besides haddress (hsub _ _ hrefers)

/-- Without special keywords an entry is the same in every form, whatever nodes refer to, and
    whatever addresses are like. -/
theorem of_neutral (h : Reworded scope refers .neutral p q) :
    Reworded scope' refers' form p q := by
  cases h with
  | same hkey hv => exact .same hkey hv

/-- As long as no node refers to an address, it makes no difference what addresses are like. -/
theorem of_nowhere (hnone : ∀ n ref, ¬ refers n ref) (h : Reworded scope refers form p q) :
    Reworded scope' refers' form p q := by
  cases h with
  | same hkey hv => exact .same hkey hv
  | items n => exact .items n
  | sides ns => exact .sides ns
  | leading ns => exact .leading ns
  | rest n => exact .rest n
  | besides _ hrefers => exact absurd hrefers (hnone _ _)

/-- Equal keys stay equal, and different ones different. -/
theorem key_iff (h : Reworded scope refers form p q) (h' : Reworded scope refers form p' q') :
    p.1.canonical = p'.1.canonical ↔ q.1.canonical = q'.1.canonical := by
  cases h with
  | same hkey _ =>
    cases h' with
    | same _ _ => exact Iff.rfl
    | _ => exact ⟨fun h => absurd h (hkey.ne (by decide)), fun h => absurd h (hkey.ne (by decide))⟩
  | _ =>
    cases h' with
    | same hkey _ =>
      exact ⟨fun h => absurd h.symm (hkey.ne (by decide)),
        fun h => absurd h.symm (hkey.ne (by decide))⟩
    | _ => simp

/-- A new value for an entry that is there already. -/
theorem replace (h : Reworded scope refers form p q) (h' : Reworded scope refers form p' q')
    (hkey : p.1.canonical = p'.1.canonical) :
    Reworded scope refers form (p.1, p'.2) (q.1, q'.2) := by
  have hkey' := (key_iff h h').mp hkey
  -- a text is the only key that is equal to it
  have hsame : ∀ {s s' : String} {v v' : Value}, p' = (.str s, v) → q' = (.str s', v') →
      Reworded scope refers form (p.1, p'.2) (q.1, q'.2) := by
    rintro s s' v v' rfl rfl
    have hp : p.1 = .str s := Value.canonical_eq_str hkey
    have hq : q.1 = .str s' := Value.canonical_eq_str hkey'
    rw [hp, hq]
    exact h'
  cases h' with
  | @same _ key v hneutral hv =>
    cases hv with
    | data _ hplain =>
      cases h with
      | same hneutral' _ => exact .same hneutral' (.data _ hplain)
      | _ => exact absurd hkey.symm (hneutral.ne (by decide))
    | _ => exact hsame rfl rfl
  | _ => exact hsame rfl rfl

end Value.Reworded

namespace Entries

/-- Mappings that say the same in two dialects, entry by entry. -/
def Reworded (scope : Option Addressing) (refers : NodeId → String → Prop) (form : Spelling)
    (es fs : Entries) : Prop :=
  List.Forall₂ (Value.Reworded scope refers form) es fs

variable {scope scope' : Option Addressing} {refers refers' : NodeId → String → Prop}
  {form : Spelling} {es fs news news' : Entries}
  {p q : Value × Value} {key : Value}

/-- The keywords of a node in two dialects. -/
inductive RewordedBody (scope : Option Addressing) (refers : NodeId → String → Prop)
    (es fs : Entries) : Prop
  | intro (form : Spelling) (h : es.Reworded scope refers form fs)
    (hcomplete : form = .tuple → es.has (.str "prefixItems") = true)

/-- The fragment of a node in two dialects: a reference, or keywords. -/
inductive RewordedFragment (scope : Option Addressing) (refers : NodeId → String → Prop) :
    Entries → Entries → Prop
  | reference {ref ref' : String} (h : Readdressed scope ref ref') :
    RewordedFragment scope refers [(Visit.refKey, .str ref)] [(Visit.refKey, .str ref')]
  | body {es fs : Entries} (h : es.RewordedBody scope refers fs) :
    RewordedFragment scope refers es fs

namespace Reworded

/-- Empty mappings say the same. -/
theorem nil : Reworded scope refers form [] [] := List.Forall₂.nil

/-- Mappings say the same where nodes refer to more addresses. -/
theorem mono (hsub : ∀ n ref, refers n ref → refers' n ref)
    (h : Reworded scope refers form es fs) :
    Reworded scope refers' form es fs := List.Forall₂.imp (fun _ _ => .mono hsub) h

/-- Mappings with neutral keys alone say the same in every way in which keywords are used. -/
theorem of_neutral (h : Reworded scope refers .neutral es fs) :
    Reworded scope' refers' form es fs :=
  List.Forall₂.imp (fun _ _ => .of_neutral) h

/-- Mappings without references say the same wherever references lead. -/
theorem of_nowhere (hnone : ∀ n ref, ¬ refers n ref) (h : Reworded scope refers form es fs) :
    Reworded scope' refers' form es fs := List.Forall₂.imp (fun _ _ => .of_nowhere hnone) h

/-- Mappings go on saying the same when entries are set that do. -/
theorem set (h : Reworded scope refers form es fs) (hp : Value.Reworded scope refers form p q) :
    Reworded scope refers form (es.set p.1 p.2) (fs.set q.1 q.2) := by
  induction h with
  | nil => exact .cons hp .nil
  | @cons p' q' es fs hfirst hrest ih =>
    have hkey := hfirst.key_iff hp
    unfold Entries.set
    by_cases h : p'.1.canonical = p.1.canonical
    · rw [if_pos h, if_pos (hkey.mp h)]
      exact .cons (hfirst.replace hp h) hrest
    · rw [if_neg h, if_neg (mt hkey.mpr h)]
      exact .cons hfirst ih

/-- Mappings go on saying the same when mappings are merged that do. -/
theorem update (h : Reworded scope refers form es fs)
    (hnews : Reworded scope refers form news news') :
    Reworded scope refers form (es.update news) (fs.update news') := by
  induction hnews generalizing es fs with
  | nil => exact h
  | cons hp _ ih => exact ih (h.set hp)

/-- A key that is taken over is equal to corresponding keys. -/
theorem neutral_iff (hkey : key.Neutral) (hp : Value.Reworded scope refers form p q) :
    p.1.canonical = key.canonical ↔ q.1.canonical = key.canonical := by
  have hsame : Value.Reworded scope refers form (key, .null) (key, .null) :=
    .same hkey (.data key rfl)
  exact hp.key_iff hsame

/-- Mappings go on saying the same when a neutral key is erased. -/
theorem erase (h : Reworded scope refers form es fs) (hkey : key.Neutral) :
    Reworded scope refers form (es.erase key) (fs.erase key) := by
  induction h with
  | nil => exact .nil
  | @cons p q es fs hfirst hrest ih =>
    have hiff := neutral_iff hkey hfirst
    unfold Entries.erase
    by_cases h : p.1.canonical = key.canonical
    · rw [if_pos h, if_pos (hiff.mp h)]
      exact hrest
    · rw [if_neg h, if_neg (mt hiff.mpr h)]
      exact .cons hfirst ih

/-- Under a key that is taken over stands the same. -/
theorem get? (h : Reworded scope refers form es fs) (hkey : key.Neutral) :
    fs.get? key = es.get? key := by
  induction h with
  | nil => rfl
  | @cons p q es fs hfirst hrest ih =>
    have hiff := neutral_iff hkey hfirst
    unfold Entries.get?
    by_cases h : p.1.canonical = key.canonical
    · rw [if_pos h, if_pos (hiff.mp h)]
      cases hfirst with
      | same _ _ => rfl
      | _ => exact absurd h.symm (hkey.ne (by decide))
    · rw [if_neg h, if_neg (mt hiff.mpr h), ih]

/-- In the second dialect no reference stands beside other keywords. -/
theorem get?_ref (h : Reworded scope refers form es fs) : fs.get? Visit.refKey = none := by
  refine get?_eq_none fun q hq => ?_
  obtain ⟨p, -, hp⟩ := View.exists_of_mem_right h hq
  cases hp with
  | same hkey _ => exact hkey.ne (by decide)
  | _ => simp [Visit.refKey]

/-- A mapping without special keywords has none of them in either dialect. -/
theorem get?_of_neutral (h : Reworded scope refers .neutral es fs) {name : String}
    (hname : name ∈ dialectKeywords) : es.get? (.str name) = none ∧ fs.get? (.str name) = none := by
  constructor
  · refine get?_eq_none fun p hp => ?_
    obtain ⟨q, -, hpq⟩ := View.exists_of_mem_right (List.Forall₂.flip h) hp
    cases hpq with
    | same hkey _ => exact hkey.ne hname
  · refine get?_eq_none fun q hq => ?_
    obtain ⟨p, -, hpq⟩ := View.exists_of_mem_right h hq
    cases hpq with
    | same hkey _ => exact hkey.ne hname

/-- As long as no node refers to an address, neither does in the first dialect. -/
theorem get?_ref_left (hnone : ∀ n ref, ¬ refers n ref) (h : Reworded scope refers form es fs) :
    es.get? Visit.refKey = none := by
  refine get?_eq_none fun p hp => ?_
  obtain ⟨q, -, hpq⟩ := View.exists_of_mem_right (List.Forall₂.flip h) hp
  cases hpq with
  | same hkey _ => exact hkey.ne (by decide)
  | besides _ hrefers => exact absurd hrefers (hnone _ _)
  | _ => simp [Visit.refKey]

/-- The keywords of documents as a whole are not among those of schemas. -/
theorem get?_documentKey (h : Reworded scope refers form es fs) {name : String}
    (hname : name ∈ ["$defs", "definitions", "$schema"]) :
    es.get? (.str name) = none ∧ fs.get? (.str name) = none := by
  -- The keywords of the document are among those that bodies do not use.
  have hapart : ∀ {p q : Value × Value}, Value.Reworded scope refers form p q →
      p.1.canonical ≠ .str name ∧ q.1.canonical ≠ .str name := by
    intro p q hpq
    cases hpq with
    | same hkey _ =>
      have hspecial : ∀ name ∈ ["$defs", "definitions", "$schema"], name ∈ dialectKeywords := by
        decide
      exact ⟨hkey.ne (hspecial name hname), hkey.ne (hspecial name hname)⟩
    | _ =>
      simp only [List.mem_cons, List.not_mem_nil, or_false] at hname
      rcases hname with rfl | rfl | rfl <;> exact ⟨by simp, by simp⟩
  constructor
  · refine get?_eq_none fun p hp => ?_
    obtain ⟨q, -, hpq⟩ := View.exists_of_mem_right (List.Forall₂.flip h) hp
    exact (hapart hpq).1
  · refine get?_eq_none fun q hq => ?_
    obtain ⟨p, -, hpq⟩ := View.exists_of_mem_right h hq
    exact (hapart hpq).2

/-- A mapping without special keywords is the same in both dialects. -/
theorem refl (hes : ∀ p ∈ es, p.1.Neutral ∧ p.2.isPlain = true) :
    Reworded scope refers form es es :=
  List.forall₂_same.mpr fun p hp => .same (hes p hp).1 (.data _ (hes p hp).2)

end Reworded

/-- Keywords say the same where nodes refer to more addresses. -/
theorem RewordedBody.mono (hsub : ∀ n ref, refers n ref → refers' n ref)
    (h : es.RewordedBody scope refers fs) : es.RewordedBody scope refers' fs := by
  obtain ⟨form, hbody, hcomplete⟩ := h
  exact ⟨form, hbody.mono hsub, hcomplete⟩

/-- Setting what stands there already changes nothing. -/
theorem Distinct.set_of_mem (h : es.Distinct) (hp : p ∈ es) : es.set p.1 p.2 = es := by
  induction es with
  | nil => cases hp
  | cons q rest ih =>
    obtain ⟨hq, hrest⟩ := List.pairwise_cons.mp h
    unfold Entries.set
    rcases List.mem_cons.mp hp with rfl | hp
    · rw [if_pos rfl]
    · rw [if_neg (hq p hp), ih hrest hp]

/-- Merging in what stands there already changes nothing. -/
theorem Distinct.update_of_subset (h : es.Distinct) (hsub : news ⊆ es) : es.update news = es := by
  induction news with
  | nil => rfl
  | cons p rest ih =>
    obtain ⟨hp, hrest⟩ := List.cons_subset.mp hsub
    rw [update_cons, h.set_of_mem hp]
    exact ih hrest

/-- A key that is not there goes to the end. -/
theorem set_of_get?_none {v : Value} (h : es.get? key = none) :
    es.set key v = es ++ [(key, v)] := by
  induction es with
  | nil => rfl
  | cons q rest ih =>
    unfold Entries.get? at h
    unfold Entries.set
    split at h
    · cases h
    · rename_i hkey
      rw [if_neg hkey, ih h]
      rfl

end Entries

end SchemaGraph
