import SchemaGraph.Proofs.Document.Dialect
import SchemaGraph.Proofs.Survey.Shapes

namespace SchemaGraph

/-!
# Keywords in strata

A node whose content is passed on may stand apart.  Then its keywords are not below those of the
node that passes them on, but behind them, in a stratum of their own.  How many nodes stand apart
makes no difference to what the keywords say about values, as long as the nodes that pass content
on have keywords that are independent of those that were separated from them.

* `Store.strata?`        — the keywords of a node in strata
* `Store.verdict`        — what a node says about values
* `Store.Independent`    — the own keywords of a node are independent of those it passes on
* `Store.strata?_refines`, `Store.verdict_eq` — where strata are separated does not matter then
-/

namespace Entries

/-- The keys that are texts. -/
def names (es : Entries) : List String :=
  es.filterMap fun p =>
    match p.1 with
    | .str name => some name
    | _ => none

/-- The values by name. -/
def named (es : Entries) (name : String) : Option Value := es.get? (.str name)

/-- Entries over the first of several strata. -/
def onTop (own : Entries) : List Entries → List Entries
  | [] => [own]
  | es :: rest => es.update own :: rest

/-- What the keywords of one stratum hold, when it is known what the values hold. -/
def keywordsOf (f : String → Value → Holding (Json → Verdict)) (es : Entries) : Keywords :=
  fun name => (es.named name).map (f name)

/-- A name is a key if a value stands under it. -/
theorem mem_names_iff {es : Entries} {name : String} :
    name ∈ es.names ↔ (es.named name).isSome := by
  unfold names named
  rw [List.mem_filterMap]
  constructor
  · rintro ⟨p, hp, hname⟩
    split at hname
    · rename_i k hk
      cases hname
      rw [Option.isSome_iff_ne_none]
      intro hnone
      exact canonical_ne_of_get? hnone hp (by rw [hk])
    · cases hname
  · intro h
    obtain ⟨v, hv⟩ := Option.isSome_iff_exists.mp h
    exact ⟨_, mem_of_get?_str hv, rfl⟩

/-- What a stratum finds is what the dialect finds with its keywords. -/
theorem mem_findings_keywordsOf {D : Dialect} {f : String → Value → Holding (Json → Verdict)}
    {es : Entries} {x : Json} {v : Verdict} :
    v ∈ D.findings es.names (es.keywordsOf f) x ↔ D.Finds (es.keywordsOf f) x v := by
  refine D.mem_findings fun name => ?_
  rw [mem_names_iff, keywordsOf, Option.isSome_map]

end Entries

namespace Store

variable {s : Store} {guide : Guide} {links : Nat} {apart fewer : NodeId → Bool}

/-- The keywords of a node in strata: its own, over those of the node whose content it passes on,
    or in front of them if that node stands apart. -/
def strata? (s : Store) (guide : Guide) (links : Nat) (apart : NodeId → Bool) :
    Nat → NodeId → Option (List Entries)
  | steps, n =>
    match s.contents? guide links n with
    | none => none
    | some v =>
      match v.target with
      | none => some [v.fragment]
      | some m =>
        match steps with
        | 0 => none
        | steps + 1 =>
          match strata? s guide links apart steps m with
          | none => none
          | some below =>
            some (if apart m then v.fragment :: below else Entries.onTop v.fragment below)

/-- A node that passes nothing on has one stratum. -/
theorem strata?_of_none {steps : Nat} {n : NodeId} {v : Visit}
    (hv : s.contents? guide links n = some v) (ht : v.target = none) :
    s.strata? guide links apart steps n = some [v.fragment] := by
  unfold strata?
  simp only [hv, ht]

/-- A node that passes content on lies in front of its target, or merges with the first stratum of
    it. -/
theorem strata?_succ {steps : Nat} {n m : NodeId} {v : Visit} {below : List Entries}
    (hv : s.contents? guide links n = some v) (ht : v.target = some m)
    (hm : s.strata? guide links apart steps m = some below) :
    s.strata? guide links apart (steps + 1) n
      = some (if apart m then v.fragment :: below else Entries.onTop v.fragment below) := by
  unfold strata?
  simp only [hv, ht, hm]

/-- There is no other way to come to strata: by the one rule or by the other. -/
theorem strata?_cases {steps : Nat} {n : NodeId} {strata : List Entries}
    (h : s.strata? guide links apart steps n = some strata) :
    ∃ v, s.contents? guide links n = some v ∧
      ((v.target = none ∧ strata = [v.fragment]) ∨
        ∃ m steps' below, v.target = some m ∧ steps = steps' + 1 ∧
          s.strata? guide links apart steps' m = some below ∧
          strata = if apart m then v.fragment :: below else Entries.onTop v.fragment below) := by
  unfold strata? at h
  split at h
  · cases h
  · rename_i v hv
    refine ⟨v, hv, ?_⟩
    split at h
    · rename_i ht
      cases h
      exact .inl ⟨ht, rfl⟩
    · rename_i m ht
      split at h
      · cases h
      · rename_i steps'
        split at h
        · cases h
        · rename_i below hbelow
          cases h
          exact .inr ⟨m, steps', below, ht, rfl, hbelow, rfl⟩

/-- There is always a first stratum, and it is that of the node. -/
theorem strata?_ne_nil {steps : Nat} {n : NodeId} {strata : List Entries}
    (h : s.strata? guide links apart steps n = some strata) : ∃ es rest, strata = es :: rest := by
  obtain ⟨v, -, ⟨-, rfl⟩ | ⟨m, -, below, -, -, -, rfl⟩⟩ := strata?_cases h
  · exact ⟨_, _, rfl⟩
  · split
    · exact ⟨_, _, rfl⟩
    · cases below with
      | nil => exact ⟨_, _, rfl⟩
      | cons es rest => exact ⟨_, _, rfl⟩

/-- A node that has keywords has them in strata too, whatever stands apart. -/
theorem exists_strata? (apart : NodeId → Bool) {steps : Nat} {n : NodeId} {es : Entries}
    (h : s.keywords? guide links steps n = some es) :
    ∃ strata, s.strata? guide links apart steps n = some strata := by
  induction steps generalizing n es with
  | zero =>
    obtain ⟨v, hv, ⟨ht, -⟩ | ⟨m, steps', below, -, hsteps, -⟩⟩ := keywords?_cases h
    · exact ⟨_, strata?_of_none hv ht⟩
    · omega
  | succ steps ih =>
    obtain ⟨v, hv, ⟨ht, -⟩ | ⟨m, steps', below, ht, hsteps, hbelow, -⟩⟩ := keywords?_cases h
    · exact ⟨_, strata?_of_none hv ht⟩
    · obtain rfl : steps = steps' := by omega
      obtain ⟨strata, hstrata⟩ := ih hbelow
      exact ⟨_, strata?_succ hv ht hstrata⟩

/-- Strata that were found stay the same over more steps. -/
theorem strata?_mono {steps more : Nat} (hle : steps ≤ more) {n : NodeId} {strata : List Entries}
    (h : s.strata? guide links apart steps n = some strata) :
    s.strata? guide links apart more n = some strata := by
  induction steps generalizing more n strata with
  | zero =>
    obtain ⟨v, hv, ⟨ht, rfl⟩ | ⟨m, steps', below, -, hsteps, -⟩⟩ := strata?_cases h
    · exact strata?_of_none hv ht
    · omega
  | succ steps ih =>
    obtain ⟨v, hv, ⟨ht, rfl⟩ | ⟨m, steps', below, ht, hsteps, hbelow, rfl⟩⟩ := strata?_cases h
    · exact strata?_of_none hv ht
    · obtain ⟨more, rfl⟩ : ∃ k, more = k + 1 := ⟨more - 1, by omega⟩
      obtain rfl : steps = steps' := by omega
      exact strata?_succ hv ht (ih (by omega) hbelow)

section Shapes

variable {visited : NodeId → Prop} (hsuited : ∀ n, visited n → s.Suited guide.catalog n)
  (hedge : ∀ n m, visited n → s.Edge guide.settings.side n m → visited m)
include hsuited hedge

/-- Every stratum has the shape of contents, over all the nodes behind. -/
theorem strata?_shaped {steps : Nat} {n : NodeId} (hn : visited n) {strata : List Entries}
    (h : s.strata? guide links apart steps n = some strata) :
    ∀ es ∈ strata, es.Shaped visited := by
  induction steps generalizing n strata with
  | zero =>
    obtain ⟨v, hv, ⟨-, rfl⟩ | ⟨m, steps', below, -, hsteps, -⟩⟩ := strata?_cases h
    · exact List.forall_mem_singleton.mpr ((contents?_shaped (hsuited n hn) hv).mono (hedge n · hn))
    · omega
  | succ steps ih =>
    obtain ⟨v, hv, ⟨-, rfl⟩ | ⟨m, steps', below, ht, hsteps, hbelow, rfl⟩⟩ := strata?_cases h
    · exact List.forall_mem_singleton.mpr ((contents?_shaped (hsuited n hn) hv).mono (hedge n · hn))
    · obtain rfl : steps = steps' := by omega
      have hown := (contents?_shaped (hsuited n hn) hv).mono (hedge n · hn)
      have hm := hedge n m hn (passes_of_contents? hv ht).edge
      have hall := ih hm hbelow
      split
      · exact List.forall_mem_cons.mpr ⟨hown, hall⟩
      · obtain ⟨es, rest, rfl⟩ := strata?_ne_nil hbelow
        obtain ⟨hes, hrest⟩ := List.forall_mem_cons.mp hall
        exact List.forall_mem_cons.mpr ⟨hes.merge hown, hrest⟩

end Shapes

/-! ### Verdicts -/

/-- What a node says about a value, as deep as is looked. -/
def verdict (D : Dialect) (s : Store) (guide : Guide) (links : Nat) (apart : NodeId → Bool) :
    Nat → NodeId → Json → Verdict
  | 0, _, _ => .unsettled
  | depth + 1, n, x =>
    match s.strata? guide links apart links n with
    | none => .unsettled
    | some strata => .all (strata.flatMap fun es => D.findings es.names
        (es.keywordsOf fun name => Value.held (verdict D s guide links apart depth)
          (Json.verdict D (fun _ => none) 0 depth) (Role.of name)) x)

/-- The own keywords of a node are independent of the first stratum of another one. -/
def Independent (D : Dialect) (s : Store) (guide : Guide) (apart : NodeId → Bool)
    (n m : NodeId) : Prop :=
  ∀ links steps v es rest, s.contents? guide links n = some v →
    s.strata? guide links apart steps m = some (es :: rest) →
      D.Independent v.fragment.named es.named

end Store

/-- Strata say the same about values, whatever their values hold. -/
def Dialect.Same (D : Dialect) (strata others : List Entries) : Prop :=
  ∀ f x v, (∃ es ∈ strata, D.Finds (es.keywordsOf f) x v) ↔
    ∃ es ∈ others, D.Finds (es.keywordsOf f) x v

namespace Dialect

variable {D : Dialect} {strata others : List Entries}

/-- Strata say the same as they do. -/
theorem Same.refl (D : Dialect) (strata : List Entries) : D.Same strata strata :=
  fun _ _ _ => Iff.rfl

/-- Strata that say the same do so behind one more. -/
theorem Same.cons (h : D.Same strata others) (es : Entries) :
    D.Same (es :: strata) (es :: others) := by
  intro f x v
  simp only [List.exists_mem_cons_iff, h f x v]

/-- Independent keywords may stand in front of a stratum, instead of above it. -/
theorem Same.split {own below whole : Entries} {rest : List Entries}
    (h : D.Same strata (below :: rest))
    (hwhole : ∀ name, whole.named name = (own.named name).or (below.named name))
    (hindependent : D.Independent own.named below.named) :
    D.Same (own :: strata) (whole :: rest) := by
  intro f x v
  have hkeywords : whole.keywordsOf f
      = fun name => (own.keywordsOf f name).or (below.keywordsOf f name) := by
    funext name
    simp only [Entries.keywordsOf, hwhole, Option.map_or]
  have hfinds := (hindependent.map f).finds (x := x) (v := v)
  rw [List.exists_mem_cons_iff, h f x v, List.exists_mem_cons_iff, List.exists_mem_cons_iff,
    hkeywords, ← or_assoc]
  exact or_congr_left hfinds.symm

end Dialect

namespace Store

variable {D : Dialect} {s : Store} {guide : Guide} {links : Nat} {apart fewer : NodeId → Bool}

/-- How the strata of a node differ when fewer nodes stand apart: either the first one is the
    same, or it goes further, through a node that no longer stands apart. -/
inductive Refines (D : Dialect) (s : Store) (guide : Guide) (links : Nat)
    (apart fewer : NodeId → Bool) (n : NodeId) : List Entries → List Entries → Prop
  | same {es : Entries} {rest rest' : List Entries} (h : D.Same rest rest') :
      Refines D s guide links apart fewer n (es :: rest) (es :: rest')
  | split {own below whole : Entries} {rest rest' : List Entries} {m : NodeId} {steps : Nat}
      (hm : Relation.TransGen (s.Passes guide.settings.side) n m) (hapart : apart m = true)
      (hfewer : fewer m = false)
      (hbelow : s.strata? guide links fewer steps m = some (below :: rest'))
      (hwhole : ∀ name, whole.named name = (own.named name).or (below.named name))
      (hindependent : D.Independent own.named below.named) (h : D.Same rest (below :: rest')) :
      Refines D s guide links apart fewer n (own :: rest) (whole :: rest')

/-- Strata that refine others say the same as those. -/
theorem Refines.sound {n : NodeId} {strata others : List Entries}
    (h : Refines D s guide links apart fewer n strata others) : D.Same strata others := by
  cases h with
  | same h => exact h.cons _
  | split _ _ _ _ hwhole hindependent h => exact h.split hwhole hindependent

section Separation

variable {visited : NodeId → Prop} (hsuited : ∀ n, visited n → s.Suited guide.catalog n)
  (hedge : ∀ n m, visited n → s.Edge guide.settings.side n m → visited m)
  (hle : ∀ m, fewer m = true → apart m = true)
  (hindependent : ∀ n m, visited n → Relation.TransGen (s.Passes guide.settings.side) n m →
    apart m = true → fewer m = false → s.Independent D guide fewer n m)
include hsuited hedge hle hindependent

/-- **Separation.** When fewer nodes stand apart, the strata of a node say the same. -/
theorem strata?_refines {steps : Nat} {n : NodeId} (hn : visited n) {strata others : List Entries}
    (h : s.strata? guide links apart steps n = some strata)
    (h' : s.strata? guide links fewer steps n = some others) :
    Refines D s guide links apart fewer n strata others := by
  induction steps generalizing n strata others with
  | zero =>
    obtain ⟨v, hv, ⟨ht, rfl⟩ | ⟨m, steps', below, -, hsteps, -⟩⟩ := strata?_cases h
    · rw [strata?_of_none hv ht] at h'
      cases h'
      exact .same (.refl D [])
    · omega
  | succ steps ih =>
    obtain ⟨v, hv, ⟨ht, rfl⟩ | ⟨t, steps', below, ht, hsteps, hbelow, rfl⟩⟩ := strata?_cases h
    · rw [strata?_of_none hv ht] at h'
      cases h'
      exact .same (.refl D [])
    obtain rfl : steps = steps' := by omega
    obtain ⟨v', hv', ⟨ht', -⟩ | ⟨t', steps', below', ht', hsteps', hbelow', rfl⟩⟩ :=
      strata?_cases h'
    · obtain rfl : v' = v := Option.some.inj (hv'.symm.trans hv)
      rw [ht] at ht'
      cases ht'
    obtain rfl : steps = steps' := by omega
    obtain rfl : v' = v := Option.some.inj (hv'.symm.trans hv)
    obtain rfl : t' = t := Option.some.inj (ht'.symm.trans ht)
    have hpass := passes_of_contents? hv ht
    have hbehind := hedge n t' hn hpass.edge
    have hdistinct := (contents?_shaped (hsuited n hn) hv).distinct
    have hrefines := ih hbehind hbelow hbelow'
    cases hfewer : fewer t' with
    | true =>
      -- the node behind stands apart either way
      rw [if_pos (hle t' hfewer), if_pos rfl]
      exact .same hrefines.sound
    | false =>
      obtain ⟨es, rest, rfl⟩ := strata?_ne_nil hbelow'
      rw [if_neg Bool.false_ne_true]
      cases hapart : apart t' with
      | true =>
        -- here the strata are separated, and only here the own keywords meet the others
        rw [if_pos rfl]
        have hown := hindependent n t' hn (.single hpass) hapart hfewer
        exact .split (.single hpass) hapart hfewer hbelow'
          (fun name => Entries.get?_update hdistinct _ _)
          (hown links steps v' es rest hv hbelow') hrefines.sound
      | false =>
        rw [if_neg Bool.false_ne_true]
        cases hrefines with
        | same hsame => exact .same hsame
        | @split own lowest _ rest _ m steps' hm hapart' hfewer' hlowest hwhole hind hsame =>
          -- the own keywords come to those that were separated further behind
          have hm' := Relation.TransGen.head hpass hm
          have hown := hindependent n m hn hm' hapart' hfewer'
          have hover : ∀ (es : Entries) name,
              (es.update v'.fragment).named name = (v'.fragment.named name).or (es.named name) :=
            fun es name => Entries.get?_update hdistinct _ _
          refine .split hm' hapart' hfewer' hlowest (fun name => ?_) ?_ hsame
          · rw [hover, hover, hwhole, Option.or_assoc]
          · have hor := hind.or (hown links steps' v' lowest _ hv hlowest)
            simpa only [← hover] using hor

end Separation

end Store

end SchemaGraph
