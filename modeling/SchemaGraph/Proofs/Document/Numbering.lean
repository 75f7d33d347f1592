import SchemaGraph.Proofs.Document.Addresses
import SchemaGraph.Proofs.Document.Composing

namespace SchemaGraph

open SchemaGraph.Action Conversion

/-!
# Ids of definitions

A definition that is listed in a table gets the id that its node brings along, or one that is
made from a number.  The numbers only grow, so that made ids are different; nothing keeps them
apart from the ids that nodes bring along, nor these from each other.

* `Conversion.Numbered` — where the ids of definitions have come from
* `Emission.hoist_settle_numbers` — whatever the graph is like, ids come from there
* `Emission.Apart`      — the ids that nodes bring along are different, and not of the made form
* `Conversion.Numbered.told` — then the ids of definitions can be told apart
-/

namespace Emission

/-- How the ids begin that are made. -/
def stem (linkage : Option Linkage) : String :=
  if linkage.isSome then "schema" else "__schema"

/-- Whether the definition of a node is listed in a table: neither the root of a document that
    stands alone nor a node with a document of its own is. -/
def isListed (e : Emission) (store : Store) (linkage : Option Linkage) (n : NodeId) : Bool :=
  match linkage with
  | some _ => !(documentId store linkage n).isTruthy
  | none => n ≠ e.root

end Emission

namespace Conversion

/-- Every id of a definition is the one that its node brings along, or was made for a node that
    brings none, from a number that is used up and stands for no other node. -/
structure Numbered (e : Emission) (own : NodeId → Value) (c : Conversion) : Prop where
  listed : ∀ {n v}, c.survey.visit? n = some v → v.definitionId.isTruthy = true →
    e.isListed c.store c.linkage n = true
  given : ∀ {n v}, c.survey.visit? n = some v → v.definitionId.isTruthy = true →
    (own n).isTruthy = true ∧ v.definitionId = own n ∨
      (own n).isTruthy = false ∧
        ∃ k < c.survey.counter, v.definitionId = .str (Emission.stem c.linkage ++ toString k)
  distinct : ∀ {n m v w}, c.survey.visit? n = some v → c.survey.visit? m = some w →
    v.definitionId.isTruthy = true → (own n).isTruthy = false → (own m).isTruthy = false →
    w.definitionId = v.definitionId → m = n

variable {e : Emission} {own : NodeId → Value} {c d : Conversion}

/-- A change to one visit that gives it no id, its own one or the next one. -/
theorem Numbered.step (h : c.Numbered e own) (hlinkage : d.linkage = c.linkage)
    (hlisted : ∀ n, e.isListed d.store d.linkage n = e.isListed c.store c.linkage n)
    {n : NodeId} {w : Visit}
    (hothers : ∀ m, m ≠ n → d.survey.visit? m = c.survey.visit? m)
    (hn : d.survey.visit? n = some w) (hle : c.survey.counter ≤ d.survey.counter)
    (hid : w.definitionId.isTruthy = true → e.isListed c.store c.linkage n = true ∧
      ((own n).isTruthy = true ∧ w.definitionId = own n ∨
        (own n).isTruthy = false ∧ c.survey.counter < d.survey.counter ∧
          w.definitionId = .str (Emission.stem c.linkage ++ toString c.survey.counter))) :
    d.Numbered e own := by
  -- the next number stands for no other node yet
  have hfresh : ∀ {m u}, m ≠ n → d.survey.visit? m = some u → u.definitionId.isTruthy = true →
      w.definitionId.isTruthy = true → (own m).isTruthy = false → (own n).isTruthy = false →
      u.definitionId ≠ w.definitionId := by
    intro m u hm hu hutruthy hwtruthy hmown hnown hsame
    rcases h.given ((hothers m hm).symm.trans hu) hutruthy with ⟨hown, -⟩ | ⟨-, k, hk, hmade⟩
    · rw [hmown] at hown
      cases hown
    · rcases (hid hwtruthy).2 with ⟨hown, -⟩ | ⟨-, -, hnext⟩
      · rw [hnown] at hown
        cases hown
      · rw [hmade, hnext] at hsame
        have hnumber := eq_of_append_toString (Value.str.inj hsame)
        omega
  refine ⟨fun {m u} hu htruthy => ?_, fun {m u} hu htruthy => ?_,
    fun {m m' u u'} hu hu' htruthy hown hown' hsame => ?_⟩
  · rw [hlisted]
    by_cases hm : m = n
    · subst hm
      obtain rfl := Option.some.inj (hn.symm.trans hu)
      exact (hid htruthy).1
    · exact h.listed ((hothers m hm).symm.trans hu) htruthy
  · rw [hlinkage]
    by_cases hm : m = n
    · subst hm
      obtain rfl := Option.some.inj (hn.symm.trans hu)
      exact (hid htruthy).2.imp_right fun ⟨hown, hlt, hmade⟩ => ⟨hown, _, hlt, hmade⟩
    · refine (h.given ((hothers m hm).symm.trans hu) htruthy).imp_right ?_
      exact fun ⟨hown, k, hk, hmade⟩ => ⟨hown, k, by omega, hmade⟩
  · by_cases hm : m = n
    · subst hm
      obtain rfl := Option.some.inj (hn.symm.trans hu)
      by_contra hm'
      exact hfresh hm' hu' (hsame ▸ htruthy) htruthy hown' hown hsame
    · by_cases hm' : m' = n
      · subst hm'
        obtain rfl := Option.some.inj (hn.symm.trans hu')
        exact absurd hsame.symm (hfresh hm hu htruthy (hsame ▸ htruthy) hown hown')
      · exact h.distinct ((hothers m hm).symm.trans hu) ((hothers m' hm').symm.trans hu') htruthy
          hown hown' hsame

/-- The id of a document persists. -/
theorem Persists.documentId (h : Persists c d) (n : NodeId) :
    Emission.documentId d.store d.linkage n = Emission.documentId c.store c.linkage n := by
  unfold Emission.documentId Emission.annotatedId
  rw [h.linkage]
  cases c.linkage with
  | none => rfl
  | some l => simp only [h.catalog]

/-- Ids stay told apart while definitions stay what they are. -/
theorem Numbered.of_persists (h : c.Numbered e own) (hp : Persists c d) : d.Numbered e own := by
  have hlisted : ∀ n, e.isListed d.store d.linkage n = e.isListed c.store c.linkage n := by
    intro n
    unfold Emission.isListed
    rw [hp.documentId, hp.linkage]
  refine ⟨fun {n w} hw htruthy => ?_, fun {n w} hw htruthy => ?_,
    fun {n m w w'} hw hw' htruthy hown hown' hsame => ?_⟩
  · obtain ⟨v, hv, hvw⟩ := hp.back hw
    rw [hlisted]
    exact h.listed hv (hvw.id ▸ htruthy)
  · obtain ⟨v, hv, hvw⟩ := hp.back hw
    rw [hvw.id, hp.linkage, hp.counter]
    exact h.given hv (hvw.id ▸ htruthy)
  · obtain ⟨v, hv, hvw⟩ := hp.back hw
    obtain ⟨v', hv', hvw'⟩ := hp.back hw'
    rw [hvw.id] at htruthy hsame
    rw [hvw'.id] at hsame
    exact h.distinct hv hv' htruthy hown hown' hsame

end Conversion

namespace Emission

variable {e : Emission} {own : NodeId → Value} {c d p : Conversion} {l : Linkage}

/-! ### Choosing ids -/

/-- Where there is no first id, the second one is chosen, or one is made. -/
theorem chooseId_numbers {first second id : Value} {stem : String}
    (hfirst : first.isTruthy = false) (h : Returns (chooseId first second stem) c id d) :
    second.isTruthy = true ∧ id = second ∧ d = c ∨
      second.isTruthy = false ∧ id = .str (stem ++ toString c.survey.counter) ∧
        d.survey.counter = c.survey.counter + 1 := by
  unfold chooseId at h
  rw [if_neg (by simp [hfirst])] at h
  split at h
  · rename_i hsecond
    obtain ⟨rfl, rfl⟩ := returns_pure.mp h
    exact .inl ⟨hsecond, rfl, rfl⟩
  · rename_i hsecond
    obtain ⟨hid, hd⟩ := Prod.mk.inj h
    exact .inr ⟨by simpa using hsecond, (Except.ok.inj hid).symm, by rw [← hd]⟩

/-- The id for a node that has none yet: no id, the one in its fragment, or the next one. -/
theorem referenceFor_numbers {n : NodeId} {v : Visit} {ref : String} {id : Option Value}
    (hnull : v.definitionId = .null) (h : Returns (e.referenceFor n v) c (ref, id) d) :
    id = none ∧ d.survey = c.survey ∨
      e.isListed c.store c.linkage n = true ∧
        ((fragmentId v).isTruthy = true ∧ id = some (fragmentId v) ∧
            d.survey.counter = c.survey.counter ∨
          (fragmentId v).isTruthy = false ∧
            id = some (.str (stem c.linkage ++ toString c.survey.counter)) ∧
            d.survey.counter = c.survey.counter + 1) := by
  have hnone : v.definitionId.isTruthy = false := by rw [hnull]; rfl
  unfold referenceFor at h
  obtain ⟨_, _, hget, h₁⟩ := returns_bind.mp h
  obtain ⟨rfl, rfl⟩ := returns_get.mp hget
  unfold isListed stem
  dsimp only at h₁
  split at h₁
  -- Across documents a node with a document of its own gets no id; in the common one an id is
  -- chosen.
  -- Across documents a node with a document of its own gets no id; in the common one an id is
  -- chosen.
  · rename_i linkage hl
    rw [hl] at h₁ ⊢
    split at h₁
    · split at h₁
      · obtain ⟨hchoice, rfl⟩ := returns_pure.mp h₁
        exact .inl ⟨(Prod.mk.inj hchoice).2, rfl⟩
      · exact absurd h₁ not_returns_fail
    · rename_i hdocument
      obtain ⟨chosen, d', hchoose, h₂⟩ := returns_bind.mp h₁
      obtain ⟨_, d'', hvisit, h₃⟩ := returns_bind.mp h₂
      obtain ⟨hchoice, rfl⟩ := returns_pure.mp h₃
      obtain rfl := returns_onVisit.mp hvisit
      refine .inr ⟨by simpa using hdocument, ?_⟩
      rw [(Prod.mk.inj hchoice).2]
      rcases chooseId_numbers hnone hchoose with ⟨htruthy, rfl, rfl⟩ | ⟨hfalsy, rfl, hnext⟩
      · exact .inl ⟨htruthy, rfl, rfl⟩
      · exact .inr ⟨hfalsy, rfl, hnext⟩
  -- In a document that stands alone the root gets no id; for any other node one is chosen.
  · rename_i hl
    rw [hl]
    split at h₁
    · obtain ⟨hchoice, rfl⟩ := returns_pure.mp h₁
      exact .inl ⟨(Prod.mk.inj hchoice).2, rfl⟩
    · rename_i hroot
      obtain ⟨chosen, d', hchoose, h₂⟩ := returns_bind.mp h₁
      obtain ⟨hchoice, rfl⟩ := returns_pure.mp h₂
      refine .inr ⟨by simpa using hroot, ?_⟩
      rw [(Prod.mk.inj hchoice).2]
      rcases chooseId_numbers rfl hchoose with ⟨htruthy, rfl, rfl⟩ | ⟨hfalsy, rfl, hnext⟩
      · exact .inl ⟨htruthy, rfl, rfl⟩
      · exact .inr ⟨hfalsy, rfl, hnext⟩

/-! ### Hoisting -/

/-- Hoisting a node gives its definition the id in its fragment, or the next one. -/
theorem extract_numbers {n : NodeId} {v : Visit} (hv : c.survey.visit? n = some v)
    (hown : v.isReference = false → v.definitionId = .null ∧ own n = fragmentId v)
    (hc : c.Numbered e own) (h : Returns (e.extract n) c () d) : d.Numbered e own := by
  obtain ⟨w, c', hvisit, h₁⟩ := returns_bind.mp h
  obtain ⟨hw, rfl⟩ := Prod.mk.inj hvisit
  rw [hv] at hw
  obtain rfl := Except.ok.inj hw
  rw [Option.getD_some] at h₁
  split at h₁
  · obtain ⟨-, rfl⟩ := returns_pure.mp h₁
    exact hc
  · rename_i href
    obtain ⟨hnull, hown⟩ := hown (by simpa using href)
    obtain ⟨⟨ref, id⟩, c₁, hreference, h₂⟩ := returns_bind.mp h₁
    obtain ⟨_, c₂, hdefine, hlog⟩ := returns_bind.mp h₂
    obtain ⟨hrewrites, hothers, old, hold, -⟩ := (referenceFor_meets hv).of_returns hreference
    -- Nothing but the visit of the node and the counter changes.
    have hrest : Rewrites c d := by
      refine hrewrites.trans (Rewrites.trans ?_ ((log_rewrites _).of_returns hlog))
      exact (rewrites_onVisit n _).of_returns hdefine
    have hlisted : ∀ m, e.isListed d.store d.linkage m = e.isListed c.store c.linkage m := by
      intro m
      rw [hrest.linkage, hrest.store]
      rfl
    have hsurvey : d.survey = c₁.survey.modify n fun v => define v ref id := by
      rw [← (Prod.mk.inj hlog).2, ← (Prod.mk.inj hdefine).2]
    have hdn : d.survey.visit? n = some (define { v with definitionId := old } ref id) := by
      rw [hsurvey]
      exact Survey.visit?_modify_of_visit? hold _
    have hdm : ∀ m, m ≠ n → d.survey.visit? m = c.survey.visit? m := fun m hm => by
      rw [hsurvey, Survey.visit?_modify_of_ne hm]
      exact hothers m hm
    have hcounter : d.survey.counter = c₁.survey.counter := by
      rw [hsurvey]
      rfl
    -- Either the definition is listed nowhere and gets no id, or an id was chosen for it.
    rcases referenceFor_numbers hnull hreference with ⟨rfl, hsame⟩ | ⟨hlist, hchosen⟩
    · rw [hsame, hv] at hold
      have hold : old = v.definitionId := congrArg (·.definitionId) (Option.some.inj hold).symm
      refine hc.step hrest.linkage hlisted hdm hdn (by rw [hcounter, hsame]) fun htruthy => ?_
      have hfalse : old.isTruthy = true := htruthy
      rw [hold, hnull] at hfalse
      cases hfalse
    · rw [← hown] at hchosen
      refine hc.step hrest.linkage hlisted hdm hdn ?_ fun _ => ⟨hlist, ?_⟩
      · rcases hchosen with ⟨-, -, hsame⟩ | ⟨-, -, hnext⟩ <;> omega
      -- Its own id, if it has one, and the next number otherwise.
      · rcases hchosen with ⟨htruthy, rfl, -⟩ | ⟨hfalsy, rfl, hnext⟩
        · exact .inl ⟨htruthy, rfl⟩
        · exact .inr ⟨hfalsy, by omega, rfl⟩

/-- Nodes that are hoisted in order get the ids in their fragments, or made ones. -/
theorem hoistAll_numbers {ns : List NodeId}
    (hown : ∀ {n v}, p.survey.visit? n = some v → v.isReference = false →
      v.definitionId = .null ∧ own n = fragmentId v)
    (hns : ∀ n ∈ ns, p.survey.has n = true) (hpc : Hoists e p c) (hc : c.Numbered e own)
    (h : Returns (e.hoistAll ns) c () d) : d.Numbered e own := by
  induction ns generalizing c with
  | nil =>
    obtain ⟨-, rfl⟩ := returns_pure.mp h
    exact hc
  | cons n rest ih =>
    obtain ⟨hn, hrest⟩ := List.forall_mem_cons.mp hns
    obtain ⟨v, hv⟩ : ∃ v, c.survey.visit? n = some v := by
      apply Survey.visit?_of_has
      rw [hpc.rewrites.has]
      exact hn
    have hstep : ∀ {c'}, Returns (e.extract n) c () c' → Hoists e p c' ∧ c'.Numbered e own := by
      intro c' hextract
      refine ⟨hpc.trans ((extract_hoists (Survey.has_of_visit? hv)).of_returns hextract).1, ?_⟩
      refine extract_numbers hv (fun href => ?_) hc hextract
      -- what is no reference yet is as it was in the beginning
      obtain ⟨v₀, hv₀⟩ := Survey.visit?_of_has hn
      rcases hpc.visits hv₀ with hsame | ⟨-, ref, id, -, hdefined⟩
      · obtain rfl := Option.some.inj (hv.symm.trans hsame)
        exact hown hv₀ href
      · obtain rfl := Option.some.inj (hv.symm.trans hdefined)
        cases href
    obtain ⟨-, ⟨-, c', hextract, h₁⟩ | ⟨-, h₁⟩⟩ := hoistAll_returns hv h
    · obtain ⟨hpc', hc'⟩ := hstep hextract
      exact ih hrest hpc' hc' h₁
    · exact ih hrest hpc hc h₁

/-- The id in the fragment of a node, if it was visited. -/
def broughtId (c : Conversion) (n : NodeId) : Value :=
  ((c.survey.visit? n).map fragmentId).getD .null

/-- **Numbering.** Whatever the graph and the override are like, behind hoisting and settling the
    ids of definitions are those that nodes have brought along, or were made. -/
theorem hoist_settle_numbers
    (hnull : ∀ {n v}, p.survey.visit? n = some v → v.definitionId = .null)
    (h : Returns (do e.hoist; e.settleVisits) p () c) : c.Numbered e (broughtId p) := by
  obtain ⟨_, d, hhoist, hsettle⟩ := returns_bind.mp h
  -- No visit has an id before hoisting, so there is nothing to be numbered.
  have hnew : p.Numbered e (broughtId p) := by
    have hfalse : ∀ {n v}, p.survey.visit? n = some v → v.definitionId.isTruthy ≠ true := by
      intro n v hv
      rw [hnull hv]
      decide
    exact ⟨fun hv htruthy => absurd htruthy (hfalse hv),
      fun hv htruthy => absurd htruthy (hfalse hv),
      fun hv _ htruthy _ _ _ => absurd htruthy (hfalse hv)⟩
  have hown : ∀ {n v}, p.survey.visit? n = some v → v.isReference = false →
      v.definitionId = .null ∧ broughtId p n = fragmentId v := by
    intro n v hv _
    refine ⟨hnull hv, ?_⟩
    rw [broughtId, hv]
    rfl
  have hd : d.Numbered e (broughtId p) := by
    obtain ⟨_, _, hget, hall⟩ := returns_bind.mp hhoist
    obtain ⟨rfl, rfl⟩ := returns_get.mp hget
    exact hoistAll_numbers hown (fun n hn => (Survey.has_iff _ _).mpr hn) (.refl _) hnew hall
  exact hd.of_persists (settleVisits_persists.of_returns hsettle)

/-! ### Ids that can be told apart -/

/-- The ids that nodes bring along are texts, different from each other and from all ids that
    are made. -/
structure Apart (stem : String) (own : NodeId → Value) (among : NodeId → Prop) : Prop where
  text : ∀ n, among n → (own n).isTruthy = true →
    ∃ id, own n = .str id ∧ ∀ k : Nat, id ≠ stem ++ toString k
  one : ∀ n m, among n → among m → (own n).isTruthy = true → own m = own n → m = n

/-- Where nodes bring no ids along, there is nothing to tell apart. -/
theorem apart_of_none {stem : String} {own : NodeId → Value} {among : NodeId → Prop}
    (hnone : ∀ n, among n → (own n).isTruthy = false) : Apart stem own among where
  text n hn htruthy := by
    rw [hnone n hn] at htruthy
    cases htruthy
  one n _ hn _ htruthy := by
    rw [hnone n hn] at htruthy
    cases htruthy

/-- A single id that was not made is apart. -/
theorem apart_of_single {stem id : String} {own : NodeId → Value} {among : NodeId → Prop}
    {n : NodeId} (hsingle : ∀ m, among m → (own m).isTruthy = true → m = n)
    (hid : own n = .str id) (hstem : ∀ k : Nat, id ≠ stem ++ toString k) :
    Apart stem own among where
  text m hm htruthy := ⟨id, by rw [hsingle m hm htruthy, hid], hstem⟩
  one m m' hm hm' htruthy hsame := by
    rw [hsingle m hm htruthy, hsingle m' hm' (hsame ▸ htruthy)]

end Emission

namespace Conversion

variable {e : Emission} {own : NodeId → Value} {c : Conversion}

/-- The node is a definition with an id. -/
def Identified (c : Conversion) (n : NodeId) : Prop :=
  ∃ v, c.survey.visit? n = some v ∧ v.definitionId.isTruthy = true

/-- Where each node was visited once, every entry of the visits is the visit of its node. -/
theorem visit?_of_mem {s : Survey} (hnodup : s.order.Nodup) {n : NodeId} {v : Visit}
    (h : (n, v) ∈ s.visits) : s.visit? n = some v := by
  unfold Survey.order at hnodup
  unfold Survey.visit?
  generalize s.visits = visits at *
  induction visits with
  | nil => cases h
  | cons p rest ih =>
    obtain ⟨m, w⟩ := p
    obtain ⟨hfirst, hnodup⟩ := List.nodup_cons.mp hnodup
    unfold Survey.find?
    rcases List.mem_cons.mp h with h | h
    · cases h
      rw [if_pos rfl]
    · rw [if_neg]
      · exact ih hnodup h
      · rintro rfl
        exact hfirst (List.mem_map.mpr ⟨_, h, rfl⟩)

/-- **Ids.** If the ids that nodes bring along can be told apart, those of all definitions
    can. -/
theorem Numbered.told (h : c.Numbered e own) (hnodup : c.survey.order.Nodup)
    (hapart : Emission.Apart (Emission.stem c.linkage) own c.Identified) : c.survey.Told := by
  refine ⟨fun q hq htruthy => ?_, fun q hq r hr htruthy hsame => ?_⟩
  · have hv := visit?_of_mem hnodup hq
    rcases h.given hv htruthy with ⟨hown, hid⟩ | ⟨-, k, -, hmade⟩
    · obtain ⟨id, hid', -⟩ := hapart.text q.1 ⟨_, hv, htruthy⟩ hown
      exact ⟨id, hid.trans hid'⟩
    · exact ⟨_, hmade⟩
  · have hv := visit?_of_mem hnodup hq
    have hw := visit?_of_mem hnodup hr
    have htruthy' : r.2.definitionId.isTruthy = true := hsame ▸ htruthy
    have hn : c.Identified q.1 := ⟨_, hv, htruthy⟩
    have hm : c.Identified r.1 := ⟨_, hw, htruthy'⟩
    -- an id that was brought along is none that was made
    have hmixed : ∀ {n v}, c.Identified n → (own n).isTruthy = true → v = own n →
        ∀ k : Nat, v ≠ .str (Emission.stem c.linkage ++ toString k) := by
      intro n v hn hown hv k hmade
      obtain ⟨id, hid, hne⟩ := hapart.text n hn hown
      exact hne k (Value.str.inj (hid.symm.trans (hv.symm.trans hmade)))
    rcases h.given hv htruthy with ⟨hown, hid⟩ | ⟨hown, k, -, hmade⟩ <;>
      rcases h.given hw htruthy' with ⟨hown', hid'⟩ | ⟨hown', k', -, hmade'⟩
    · exact hapart.one q.1 r.1 hn hm hown (hid'.symm.trans (hsame.trans hid))
    · exact absurd (hsame.symm.trans hmade') (hmixed hn hown hid k')
    · exact absurd (hsame.trans hmade) (hmixed hm hown' hid' k)
    · exact h.distinct hv hw htruthy hown hown' hsame

/-- Ids without the signs that pointers are made with can stand in pointers. -/
theorem Numbered.addressable (h : c.Numbered e own) (hnodup : c.survey.order.Nodup)
    (htold : c.survey.Told)
    (hplain : ∀ n id, c.Identified n → own n = .str id → '/' ∉ id.toList ∧ '~' ∉ id.toList) :
    c.survey.Addressable := by
  refine ⟨fun q hq htruthy => ?_, htold.distinct⟩
  have hv := visit?_of_mem hnodup hq
  obtain ⟨id, hid⟩ := htold.text q hq htruthy
  refine ⟨id, hid, ?_⟩
  rcases h.given hv htruthy with ⟨-, hown⟩ | ⟨-, k, -, hmade⟩
  · exact hplain q.1 id ⟨_, hv, htruthy⟩ (hown.symm.trans hid)
  · obtain rfl := Value.str.inj (hid.symm.trans hmade)
    have hstem : ∀ sign, sign = '/' ∨ sign = '~' →
        sign ∉ (Emission.stem c.linkage).toList ∧ sign.isDigit = false := by
      unfold Emission.stem
      rintro sign (rfl | rfl) <;> split <;> decide
    refine ⟨fun hmem => ?_, fun hmem => ?_⟩
    · obtain ⟨hnot, hdigit⟩ := hstem '/' (.inl rfl)
      exact hnot (mem_of_mem_append_toString hmem hdigit)
    · obtain ⟨hnot, hdigit⟩ := hstem '~' (.inr rfl)
      exact hnot (mem_of_mem_append_toString hmem hdigit)

/-- Across documents, no definition with an id is that of a node with a document of its own. -/
theorem Numbered.documentId_of_identified {l : Linkage} (h : c.Numbered e own)
    (hl : c.linkage = some l) {n : NodeId} (hn : c.Identified n) :
    (Emission.documentId c.store c.linkage n).isTruthy = false := by
  obtain ⟨v, hv, htruthy⟩ := hn
  have hlisted := h.listed hv htruthy
  unfold Emission.isListed at hlisted
  rw [hl] at hlisted ⊢
  simpa using hlisted

end Conversion

end SchemaGraph
