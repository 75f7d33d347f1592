import SchemaGraph.Proofs.Survey.Exploration
import SchemaGraph.Proofs.Value.Entries

namespace SchemaGraph

open SchemaGraph.Action

/-!
# What descents uphold

A descent changes visits in few ways: keywords are set or merged into a fragment, defaults are
settled, and the rest of a visit is noted.  What none of these takes from a visit holds of all
visits behind a descent, whatever comes of it.

* `Visit.Upheld`   — what no step of a descent takes from a visit
* `Conversion.visit_upholds` — it holds of all visits behind a descent
* `Visit.Tidy`     — fragments and definitions have each key once
-/

/-- What no step of a descent takes from a visit. -/
structure Visit.Upheld (Q : Visit → Prop) : Prop where
  entered : Q {}
  write : ∀ {v : Visit} (key : String) (value : Value), Q v →
    Q { v with fragment := v.fragment.set (.str key) value }
  merge : ∀ {v : Visit} (es : Entries), Q v → Q { v with fragment := v.fragment.update es }
  note : ∀ {v w : Visit}, w.fragment = v.fragment → w.definition = v.definition → Q v → Q w
  settle : ∀ {v : Visit} (kind : Kind), Q v → Q (Conversion.settleDefault kind v)

namespace Conversion

variable {Q : Visit → Prop} {c d : Conversion} {n : NodeId}

/-- All visits have a property. -/
def Every (Q : Visit → Prop) (c : Conversion) : Prop := ∀ n v, c.survey.visit? n = some v → Q v

/-- If all visits have a property, they have it behind. -/
def Upholds (Q : Visit → Prop) (c d : Conversion) : Prop := c.Every Q → d.Every Q

instance : Std.Refl (Upholds Q) := ⟨fun _ h => h⟩

instance : Trans (Upholds Q) (Upholds Q) (Upholds Q) := ⟨fun h₁ h₂ h => h₂ (h₁ h)⟩

/-- What concerns the store alone changes no visit. -/
theorem onStore_upholds {α : Type} (a : Action Store α) : Within (Upholds Q) (onStore a) :=
  fun _ h => h

/-- A change of one visit upholds a property that the change keeps. -/
theorem onVisit_upholds {f : Visit → Visit} (hf : ∀ v, Q v → Q (f v)) :
    Within (Upholds Q) (onVisit n f) := by
  intro c h m v hv
  obtain ⟨rfl, w, hw, rfl⟩ | ⟨-, hv⟩ := Survey.visit?_modify_cases hv
  · exact hf w (h m w hw)
  · exact h m v hv

variable {guide : Guide} {visit : NodeId → Path → Action Conversion Unit} (hq : Visit.Upheld Q)
include hq

/-- Every change that a step makes upholds the property. -/
theorem treads_upholds (n : NodeId) : Treads n (Upholds Q) where
  fetch := onStore_upholds _
  requiredNames _ _ := onStore_upholds _
  resolve := onStore_upholds _
  fail _ := onStore_upholds _
  write key _ := onVisit_upholds fun _ => hq.write key _
  merge more := onVisit_upholds fun _ => hq.merge more
  passOn _ := onVisit_upholds fun _ => hq.note rfl rfl
  prefault _ := onVisit_upholds fun _ => hq.note rfl rfl
  settle kind := onVisit_upholds fun _ => hq.settle kind

/-- Lowering a node upholds the property if the visits it makes do. -/
theorem lower_upholds (hvisit : ∀ m path, Within (Upholds Q) (visit m path)) (n : NodeId)
    (path : Path) : Within (Upholds Q) (lower guide visit n path) :=
  (treads_upholds hq n).lower hvisit (fun _ => onVisit_upholds fun _ => hq.note rfl rfl) path

/-- Arriving once more upholds the property. -/
theorem revisit_upholds (ancestors : List NodeId) (n : NodeId) (path : Path) :
    Within (Upholds Q) (revisit ancestors n path) := by
  refine .bind (onVisit_upholds fun _ => hq.note rfl rfl) fun _ => ?_
  split
  · exact .bind (onVisit_upholds fun _ => hq.note rfl rfl) fun _ => onStore_upholds _
  · exact within_pure _

/-- A node that is entered begins with an empty visit, which has the property. -/
theorem entered_upholds (hn : c.survey.has n = false) : Upholds Q c (c.entered n) := by
  intro h m v hv
  obtain ⟨-, rfl⟩ | ⟨-, hv⟩ := Survey.visit?_enter_cases hn hv
  · exact hq.entered
  · exact h m v hv

/-- Arriving at a node upholds the property: induction on the depth. -/
theorem arrive_upholds (depth : Nat) (ancestors : List NodeId) (n : NodeId) (path : Path) :
    Within (Upholds Q) (arrive guide depth ancestors n path) := by
  induction depth generalizing ancestors n path with
  | zero =>
    intro c
    rw [arrive_eq]
    split
    · exact revisit_upholds hq ancestors n path c
    · rename_i hn
      exact entered_upholds hq (by simpa using hn)
  | succ depth ih =>
    intro c
    rw [arrive_eq]
    split
    · exact revisit_upholds hq ancestors n path c
    · rename_i hn
      exact Trans.trans (entered_upholds hq (by simpa using hn))
        (lower_upholds hq (fun m path => ih (n :: ancestors) m path) n path (c.entered n))

/-- **What descents uphold.** Whatever comes of a descent, what no step takes from a visit holds of
    all visits behind it. -/
theorem visit_upholds (n : NodeId) (ancestors : List NodeId) (path : Path) :
    Within (Upholds Q) (Conversion.visit guide n ancestors path) :=
  .bind within_get fun _ => arrive_upholds hq _ ancestors n path

end Conversion

/-! ### Keys -/

/-- The fragment and the definition of a visit have each key once. -/
structure Visit.Tidy (v : Visit) : Prop where
  fragment : v.fragment.Distinct
  definition : ∀ body, v.definition = some body → body.Distinct

namespace Visit.Tidy

variable {v : Visit}

/-- The body of a tidy visit has each key once. -/
theorem body (h : v.Tidy) : v.body.Distinct := by
  unfold Visit.body
  cases hd : v.definition with
  | none => exact h.fragment
  | some body => exact h.definition body hd

/-- A visit stays tidy with a body that has each key once. -/
theorem withBody (h : v.Tidy) {body : Entries} (hb : body.Distinct) : (v.withBody body).Tidy := by
  unfold Visit.withBody
  split
  · refine ⟨h.fragment, fun b hbody => ?_⟩
    obtain rfl := Option.some.inj hbody
    exact hb
  · exact ⟨hb, h.definition⟩

/-- Descents keep fragments tidy. -/
theorem upheld : Visit.Upheld Visit.Tidy where
  entered := ⟨.nil, nofun⟩
  write key value h := ⟨h.fragment.set _ _, h.definition⟩
  merge es h := ⟨h.fragment.update _, h.definition⟩
  note hf hd h := ⟨hf ▸ h.fragment, hd ▸ h.definition⟩
  settle {v} kind h := by
    have hfragment : ∀ es : Entries, es.Distinct →
        (if v.prefault ≠ .undefined ∧ (es.get? "default").getD .null = .null then
          es.set "default" v.prefault else es).Distinct := by
      intro es hes
      split
      · exact hes.set _ _
      · exact hes
    refine ⟨hfragment _ ?_, h.definition⟩
    split
    · exact (h.fragment.erase _).erase _
    · exact h.fragment

end Visit.Tidy

end SchemaGraph
