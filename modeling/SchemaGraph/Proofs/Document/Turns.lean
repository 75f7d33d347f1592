import SchemaGraph.Proofs.Document.Showing

namespace SchemaGraph

open SchemaGraph.Action Conversion

/-!
# Settling in turns

Settling finishes the nodes that wait one after the other, each of them behind its target.  The turn
of a node looks at its visit and at the fragment of its target, and changes its visit alone.  Two
turns that are both due may change places, so that whatever order nodes are settled in, the same
turns are taken and the same conversion is left.

* `Visit.finished`       — a visit that has had its turn
* `Emission.settleAllTold` — settling, with the nodes that are finished on the way
* `Emission.Turns`       — turns that are taken one after the other, each behind its target
* `Emission.settleTold_turns` — settling a node takes turns
* `Emission.Turns.unique` — when no visit waits any more, the order of turns has made no difference
* `Emission.settleAllTold_unique` — nor has the order in which nodes were settled
-/

namespace Survey

variable {s : Survey} {n m : NodeId} {f g : Visit → Visit}

/-- Changes that agree on the visit of a node change a survey in the same way. -/
theorem modify_congr (h : ∀ v, s.visit? n = some v → f v = g v) : s.modify n f = s.modify n g := by
  have hchange : ∀ vs : List (NodeId × Visit), (∀ v, find? n vs = some v → f v = g v) →
      change n f vs = change n g vs := by
    intro vs
    induction vs with
    | nil => intro _; rfl
    | cons p rest ih =>
      obtain ⟨k, w⟩ := p
      intro hvs
      by_cases hk : k = n
      · have hw := hvs w (by simp [find?, hk])
        simp [change, hk, hw]
      · simp only [change, if_neg hk]
        rw [ih fun v hv => hvs v (by simpa [find?, hk] using hv)]
  unfold modify
  rw [hchange s.visits h]

/-- Two changes of one visit are one. -/
theorem modify_modify (s : Survey) (n : NodeId) (f g : Visit → Visit) :
    (s.modify n f).modify n g = s.modify n fun v => g (f v) := by
  have hchange : ∀ vs, change n g (change n f vs) = change n (fun v => g (f v)) vs := by
    intro vs
    induction vs with
    | nil => rfl
    | cons p rest ih =>
      obtain ⟨k, w⟩ := p
      by_cases hk : k = n <;> simp [change, hk, ih]
  simp only [modify, hchange]

/-- Changes of different visits may change places. -/
theorem modify_comm (s : Survey) (h : m ≠ n) (f g : Visit → Visit) :
    (s.modify m f).modify n g = (s.modify n g).modify m f := by
  have hchange : ∀ vs, change n g (change m f vs) = change m f (change n g vs) := by
    intro vs
    induction vs with
    | nil => rfl
    | cons p rest ih =>
      obtain ⟨k, w⟩ := p
      by_cases hn : k = n
      · subst hn
        simp [change, h.symm]
      · by_cases hm : k = m <;> simp [change, hn, hm, h, ih]
  simp only [modify, hchange]

end Survey

/-! ### Turns -/

/-- A visit that has had its turn: it is finished, and its body has the content of its target. -/
def Visit.finished (target : Target) (fragment : NodeId → Entries) (v : Visit) : Visit :=
  match v.target with
  | none => { v with merged := true }
  | some t =>
    ({ v with merged := true } : Visit).withBody
      (Emission.inherited target v.body t (fragment t))

section Finished

variable {target : Target} {fragment below : NodeId → Entries} {v : Visit} {t : NodeId}

/-- A visit that passes content on is finished with a body that has taken it over. -/
theorem Visit.finished_of_some (ht : v.target = some t) :
    v.finished target fragment = ({ v with merged := true } : Visit).withBody
      (Emission.inherited target v.body t (fragment t)) := by
  simp [finished, ht]

/-- A visit that has had its turn is finished. -/
@[simp] theorem Visit.merged_finished : (v.finished target fragment).merged = true := by
  unfold finished
  split <;> simp

/-- A visit that has had its turn passes content on to the same target. -/
@[simp] theorem Visit.target_finished : (v.finished target fragment).target = v.target := by
  unfold finished
  split <;> simp

/-- A turn looks at no fragment but that of the target. -/
theorem Visit.finished_congr (h : ∀ t, v.target = some t → fragment t = below t) :
    v.finished target fragment = v.finished target below := by
  unfold finished
  split
  · rfl
  · rename_i t ht
    rw [h t ht]

end Finished

namespace Conversion

variable {c : Conversion} {n m t : NodeId} {f : Visit → Visit}

/-- A change of visits that leaves targets alone leaves alone where content is passed on. -/
theorem next_modify (hf : ∀ v, (f v).target = v.target) :
    ({ c with survey := c.survey.modify n f } : Conversion).Next = c.Next := by
  funext k m
  have hvisit : (c.survey.modify n f).visit? k = if k = n then (c.survey.visit? k).map f
      else c.survey.visit? k := by
    by_cases hk : k = n
    · rw [if_pos hk, hk, Survey.visit?_modify_self]
    · rw [if_neg hk, Survey.visit?_modify_of_ne hk]
  show (∃ v, (c.survey.modify n f).visit? k = some v ∧ _) = ∃ v, c.survey.visit? k = some v ∧ _
  rw [hvisit]
  split
  · cases hv : c.survey.visit? k with
    | none => simp
    | some v => simp [hf]
  · rfl

/-- A change of one visit concerns no other that may wait. -/
theorem waits_modify_of_ne (h : m ≠ n) :
    ({ c with survey := c.survey.modify n f } : Conversion).waits m = c.waits m := by
  unfold waits
  dsimp only
  rw [Survey.visit?_modify_of_ne h]

/-- A visit that is finished waits no more. -/
theorem waits_modify_self (hf : ∀ v, (f v).merged = true) :
    ({ c with survey := c.survey.modify n f } : Conversion).waits n = false := by
  unfold waits
  dsimp only
  rw [Survey.visit?_modify_self]
  cases c.survey.visit? n <;> simp [hf]

/-- A node that waits is not the target of one whose target does not. -/
theorem not_next_of_waits (hn : c.waits n = true) (hbehind : ∀ t, c.Next m t → c.waits t = false) :
    ¬ c.Next m n := by
  intro h
  rw [hbehind n h] at hn
  cases hn

/-- The turn of a node is due: its visit waits, and its target does not. -/
structure Due (c : Conversion) (n : NodeId) : Prop where
  waits : c.waits n = true
  behind : ∀ t, c.Next n t → c.waits t = false

/-- What settling runs through without a failure: targets are visited, content is not passed on in
    a circle, and no node that waits for its target asks for anything besides. -/
structure Smooth (c : Conversion) : Prop where
  next : ∀ {n m}, c.Next n m → c.survey.has m = true
  acyclic : ∀ n, ¬ Relation.TransGen c.Next n n
  spared : ∀ {n v}, c.survey.visit? n = some v → v.merged = false → v.target.isSome →
    v.body.get? Emission.allOfKey = none

/-- A visit that comes to be finished makes nothing less smooth. -/
theorem Smooth.modify (h : c.Smooth) (htarget : ∀ v, (f v).target = v.target)
    (hmerged : ∀ v, (f v).merged = true) :
    ({ c with survey := c.survey.modify n f } : Conversion).Smooth where
  next {k m} hk := by
    rw [next_modify htarget] at hk
    rw [has_modify]
    exact h.next hk
  acyclic := by
    rw [next_modify htarget]
    exact h.acyclic
  spared {k v} hv hwaits hsome := by
    obtain ⟨rfl, u, -, rfl⟩ | ⟨-, hv⟩ := Survey.visit?_modify_cases hv
    · rw [hmerged u] at hwaits
      cases hwaits
    · exact h.spared hv hwaits hsome

end Conversion

namespace Emission

variable {e : Emission} {b c d f : Conversion} {n m : NodeId} {ns ms : List NodeId} {v : Visit}

/-- A conversion in which a node has had its turn. -/
def turned (e : Emission) (c : Conversion) (n : NodeId) : Conversion :=
  { c with survey := c.survey.modify n (Visit.finished e.target c.survey.fragment) }

/-- A node that has had its turn has a finished visit. -/
theorem visit?_turned_self (hv : c.survey.visit? n = some v) :
    (e.turned c n).survey.visit? n = some (v.finished e.target c.survey.fragment) :=
  Survey.visit?_modify_of_visit? hv _

/-- A turn leaves the visits of other nodes. -/
theorem visit?_turned_of_ne (h : m ≠ n) :
    (e.turned c n).survey.visit? m = c.survey.visit? m := Survey.visit?_modify_of_ne h c.survey _

/-- A turn leaves the targets of all nodes. -/
theorem next_turned : (e.turned c n).Next = c.Next := next_modify fun _ => Visit.target_finished

/-- A turn makes no other node wait, nor stop waiting. -/
theorem waits_turned_of_ne (h : m ≠ n) : (e.turned c n).waits m = c.waits m := waits_modify_of_ne h

/-- A node that has had its turn does not wait. -/
theorem waits_turned_self : (e.turned c n).waits n = false :=
  waits_modify_self fun _ => Visit.merged_finished

/-- The same nodes are visited behind a turn. -/
theorem has_turned : (e.turned c n).survey.has m = c.survey.has m := has_modify ..

/-- Settling goes on smoothly behind a turn. -/
theorem smooth_turned (h : c.Smooth) : (e.turned c n).Smooth :=
  h.modify (fun _ => Visit.target_finished) fun _ => Visit.merged_finished

/-- Settling goes on smoothly when a node is marked as finished. -/
theorem smooth_marked (h : c.Smooth) : (marked c n).Smooth := h.modify (fun _ => rfl) fun _ => rfl

/-- A node that is due stays so when another one has its turn. -/
theorem due_turned (h : m ≠ n) (hm : c.Due m) : (e.turned c n).Due m where
  waits := (waits_turned_of_ne h).trans hm.waits
  behind t ht := by
    rw [next_turned] at ht
    by_cases htn : t = n
    · rw [htn, waits_turned_self]
    · rw [waits_turned_of_ne htn, hm.behind t ht]

/-- **Turns change places.** Of two nodes that are both due, either may have its turn first. -/
theorem turned_comm (h : m ≠ n) (hm : c.Due m) (hn : c.Due n) :
    e.turned (e.turned c m) n = e.turned (e.turned c n) m := by
  let f := Visit.finished e.target c.survey.fragment
  have hsecond : ∀ {k l : NodeId}, k ≠ l → c.Due k → c.Due l →
      e.turned (e.turned c l) k = { c with survey := (c.survey.modify l f).modify k f } := by
    intro k l hkl hk hl
    unfold turned
    congr 1
    refine Survey.modify_congr fun v hv => ?_
    rw [Survey.visit?_modify_of_ne hkl] at hv
    -- the other node is not the target, which would not be due then
    refine Visit.finished_congr fun t ht => fragment_eq (visit?_turned_of_ne ?_)
    rintro rfl
    exact not_next_of_waits hl.waits hk.behind ⟨v, hv, ht⟩
  rw [hsecond h.symm hn hm, hsecond h hm hn, Survey.modify_comm c.survey h]

/-- Turns that are taken one after the other, each of them when it is due. -/
inductive Turns (e : Emission) : Conversion → List NodeId → Conversion → Prop
  | done (c : Conversion) : Turns e c [] c
  | turn {c d : Conversion} {n : NodeId} {ns : List NodeId} (due : c.Due n)
      (rest : Turns e (e.turned c n) ns d) : Turns e c (n :: ns) d

namespace Turns

/-- Turns may be taken in two rounds. -/
theorem append (h₁ : e.Turns b ns c) (h₂ : e.Turns c ms d) : e.Turns b (ns ++ ms) d := by
  induction h₁ with
  | done => exact h₂
  | turn hdue _ ih => exact .turn hdue (ih h₂)

/-- A node that is not among those that had their turns. -/
theorem visit?_of_not_mem (h : e.Turns c ns d) (hn : n ∉ ns) :
    d.survey.visit? n = c.survey.visit? n := by
  induction h with
  | done => rfl
  | turn hdue _ ih =>
    rw [List.mem_cons, not_or] at hn
    rw [ih hn.2, visit?_turned_of_ne hn.1]

/-- The same nodes are visited behind turns. -/
theorem has (h : e.Turns c ns d) : d.survey.has n = c.survey.has n := by
  induction h with
  | done => rfl
  | turn hdue _ ih => rw [ih, has_turned]

/-- Settling goes on smoothly behind turns. -/
theorem smooth (h : e.Turns c ns d) (hc : c.Smooth) : d.Smooth := by
  induction h with
  | done => exact hc
  | turn hdue _ ih => exact ih (smooth_turned hc)

/-- What has not waited does not wait. -/
theorem not_waits (h : e.Turns c ns d) (hn : c.waits n = false) : d.waits n = false := by
  induction h with
  | done => exact hn
  | @turn c d m ns hdue _ ih =>
    apply ih
    by_cases hnm : n = m
    · rw [hnm, waits_turned_self]
    · rw [waits_turned_of_ne hnm, hn]

/-- A node that has a turn waits before. -/
theorem waits_of_mem (h : e.Turns c ns d) (hn : n ∈ ns) : c.waits n = true := by
  induction h with
  | done => cases hn
  | @turn c d m ns hdue _ ih =>
    rcases List.mem_cons.mp hn with rfl | hn
    · exact hdue.waits
    · by_cases hnm : n = m
      · rw [hnm, hdue.waits]
      · rw [← waits_turned_of_ne hnm, ih hn]

/-- What has waited had its turn, or waits still. -/
theorem mem_of_waits (h : e.Turns c ns d) (hn : c.waits n = true) (hd : d.waits n = false) :
    n ∈ ns := by
  by_contra hmem
  unfold waits at hn hd
  rw [h.visit?_of_not_mem hmem, hn] at hd
  cases hd

/-- **Once.** No node has two turns. -/
theorem nodup (h : e.Turns c ns d) : ns.Nodup := by
  induction h with
  | done => exact List.nodup_nil
  | turn hdue hrest ih =>
    refine List.nodup_cons.mpr ⟨fun hmem => ?_, ih⟩
    have hwaits := hrest.waits_of_mem hmem
    rw [waits_turned_self] at hwaits
    cases hwaits

/-- **What turns leave.** A node that had its turn has the content of its target, as this is left in
    the end: a target has its own turn first, and is never changed behind it. -/
theorem visit?_of_mem (h : e.Turns c ns d) (hn : n ∈ ns) (hv : c.survey.visit? n = some v) :
    d.survey.visit? n = some (v.finished e.target d.survey.fragment) := by
  induction h with
  | done => cases hn
  | @turn c d m ns hdue hrest ih =>
    by_cases hnm : n = m
    · subst hnm
      have hout : n ∉ ns := fun hmem => by
        have hwaits := hrest.waits_of_mem hmem
        rw [waits_turned_self] at hwaits
        cases hwaits
      rw [hrest.visit?_of_not_mem hout, visit?_turned_self hv]
      congr 1
      refine Visit.finished_congr fun t ht => ?_
      have hbehind := hdue.behind t ⟨v, hv, ht⟩
      have htn : t ≠ n := by
        rintro rfl
        rw [hdue.waits] at hbehind
        cases hbehind
      -- the target does not wait, so that it is none of those that have their turns later
      have htns : t ∉ ns := fun hmem => by
        have hwaits := hrest.waits_of_mem hmem
        rw [waits_turned_of_ne htn, hbehind] at hwaits
        cases hwaits
      exact (fragment_eq ((hrest.visit?_of_not_mem htns).trans (visit?_turned_of_ne htn))).symm
    · exact ih ((List.mem_cons.mp hn).resolve_left hnm) ((visit?_turned_of_ne hnm).trans hv)

/-- A turn that is due may be taken first. -/
theorem pull (h : e.Turns c ns d) (hn : c.Due n) (hmem : n ∈ ns) :
    e.Turns (e.turned c n) (ns.erase n) d := by
  induction h with
  | done => cases hmem
  | @turn c d m ns hdue hrest ih =>
    by_cases hnm : n = m
    · subst hnm
      rw [List.erase_cons_head]
      exact hrest
    · have hlater := ih (due_turned hnm hn) ((List.mem_cons.mp hmem).resolve_left hnm)
      rw [List.erase_cons_tail (by simpa using Ne.symm hnm)]
      refine .turn (due_turned (Ne.symm hnm) hdue) ?_
      rw [turned_comm hnm hn hdue]
      exact hlater

/-- **Any order of turns.** Turns that are taken until no visit waits are the same, in some order,
    and leave the same conversion. -/
theorem unique {d' : Conversion} (h : e.Turns c ns d) (h' : e.Turns c ms d')
    (hd : ∀ n, d.waits n = false) (hd' : ∀ n, d'.waits n = false) : ns.Perm ms ∧ d' = d := by
  induction h generalizing ms with
  | done =>
    cases h' with
    | done => exact ⟨.refl _, rfl⟩
    | @turn _ _ m _ hdue _ =>
      have hwaits := hdue.waits
      rw [hd m] at hwaits
      cases hwaits
  | @turn c d n ns hdue hrest ih =>
    have hmem := h'.mem_of_waits hdue.waits (hd' n)
    obtain ⟨hperm, heq⟩ := ih (h'.pull hdue hmem) hd
    exact ⟨(hperm.cons n).trans (List.perm_cons_erase hmem).symm, heq⟩

end Turns

/-! ### Settling -/

/-- Finishes a node like `settle`, and tells which nodes are finished on the way, in order. -/
def settleTold (e : Emission) : Nat → NodeId → Action Conversion (List NodeId)
  | 0, _ => pure []
  | links + 1, n => do
    let v ← visitOf n
    if v.merged then pure []
    else
      onVisit n fun v => { v with merged := true }
      match v.target with
      | none =>
        e.amend n v
        pure [n]
      | some t =>
        let behind ← settleTold e links t
        let body ← e.inherit v.body t
        onVisit n fun v => v.withBody body
        e.amend n v
        pure (behind ++ [n])

/-- Finishes nodes in order like `settleAll`, and tells which nodes are finished on the way. -/
def settleAllTold (e : Emission) (links : Nat) : List NodeId → Action Conversion (List NodeId)
  | [] => pure []
  | n :: rest => do
    let first ← e.settleTold links n
    let later ← settleAllTold e links rest
    pure (first ++ later)

/-- What is told makes no difference. -/
theorem settle_eq_told (links : Nat) (n : NodeId) :
    e.settle links n = (do let _ ← e.settleTold links n; pure ()) := by
  induction links generalizing n with
  | zero => rfl
  | succ links ih =>
    rw [settle_eq]
    unfold settleTold finish
    rw [bind_assoc]
    refine bind_congr fun v => ?_
    split
    · simp
    · rw [bind_assoc]
      refine bind_congr fun _ => ?_
      cases v.target with
      | none => simp
      | some t => simp [ih]

/-- To settle nodes is to settle them and forget which ones were finished on the way. -/
theorem settleAll_eq_told (links : Nat) (ns : List NodeId) :
    e.settleAll links ns = (do let _ ← e.settleAllTold links ns; pure ()) := by
  induction ns with
  | nil => rfl
  | cons n rest ih =>
    unfold settleAll settleAllTold
    rw [settle_eq_told, ih]
    simp

/-- Marking a node as finished leaves all fragments. -/
theorem fragment_marked (c : Conversion) (n : NodeId) :
    (marked c n).survey.fragment = c.survey.fragment := by
  funext m
  exact congrArg (Option.getD · [])
    (Survey.map_visit?_modify (g := (·.fragment)) (f := ({ · with merged := true })) (fun _ => rfl)
      c.survey n m)

/-- The turn of a node and the mark of another one may change places: the turn reads the fragment of
    its target, and a mark is in no fragment. -/
theorem turned_marked (h : m ≠ n) : e.turned (marked c n) m = marked (e.turned c m) n := by
  unfold turned
  rw [fragment_marked]
  unfold marked
  congr 1
  exact Survey.modify_comm c.survey h.symm _ _

/-- Turns of other nodes that do not pass on the content of a node may be taken before it is
    marked. -/
theorem Turns.unmark (h : e.Turns (marked c n) ns f) (hns : ∀ m ∈ ns, ¬ c.Next m n) :
    ∃ d, e.Turns c ns d ∧ f = marked d n := by
  generalize hb : marked c n = b at h
  induction h generalizing c with
  | done =>
    subst hb
    exact ⟨c, .done c, rfl⟩
  | @turn b f m ns hdue hrest ih =>
    subst hb
    obtain ⟨hm, hns⟩ := List.forall_mem_cons.mp hns
    -- The marked node does not wait, so it is never due.
    have hmn : m ≠ n := by
      rintro rfl
      have hwaits := hdue.waits
      rw [show (marked c m).waits m = false from waits_modify_self fun _ => rfl] at hwaits
      cases hwaits
    have hdue' : c.Due m := by
      refine ⟨(waits_modify_of_ne hmn).symm.trans hdue.waits, fun t ht => ?_⟩
      have htn : t ≠ n := fun h => hm (h ▸ ht)
      refine (waits_modify_of_ne htn).symm.trans (hdue.behind t ?_)
      rw [show (marked c n).Next = c.Next from next_modify fun _ => rfl]
      exact ht
    have hnext : ∀ k ∈ ns, ¬ (e.turned c m).Next k n := by
      rw [next_turned]
      exact hns
    obtain ⟨d, hd, rfl⟩ := ih hnext (turned_marked hmn).symm
    exact ⟨d, .turn hdue' hd, rfl⟩

/-! ### Settling a node -/

/-- A node without a target passes content on to none. -/
theorem not_next_of_none (hv : c.survey.visit? n = some v) (ht : v.target = none) (m : NodeId) :
    ¬ c.Next n m := by
  rintro ⟨u, hu, hut⟩
  rw [Option.some.inj (hu.symm.trans hv), ht] at hut
  cases hut

/-- A node passes on the content of its target alone. -/
theorem eq_of_next {t : NodeId} (hv : c.survey.visit? n = some v) (ht : v.target = some t)
    (h : c.Next n m) : m = t := by
  obtain ⟨u, hu, hut⟩ := h
  rw [Option.some.inj (hu.symm.trans hv), ht] at hut
  exact (Option.some.inj hut).symm

/-- The visit of a node is looked up where it is. -/
theorem returns_visitOf (hv : c.survey.visit? n = some v) : Returns (visitOf n) c v c := by
  unfold Returns
  rw [run_visitOf, hv]
  rfl

/-- Without an override, showing a node does nothing. -/
theorem returns_amend (hoverride : e.override = none) : Returns (e.amend n v) c () c := by
  unfold amend
  rw [hoverride]
  exact returns_pure.mpr ⟨rfl, rfl⟩

/-- A node that is finished is left as it is. -/
theorem settleTold_of_merged {links : Nat} (hv : c.survey.visit? n = some v)
    (hmerged : v.merged = true) : Returns (e.settleTold (links + 1) n) c [] c := by
  refine returns_bind.mpr ⟨v, c, returns_visitOf hv, ?_⟩
  simp [hmerged]

/-- A node that passes nothing on has its turn when it is marked. -/
theorem settleTold_of_none (hoverride : e.override = none) {links : Nat}
    (hv : c.survey.visit? n = some v) (hfresh : v.merged = false) (ht : v.target = none) :
    Returns (e.settleTold (links + 1) n) c [n] (e.turned c n) := by
  have hmark : marked c n = e.turned c n := by
    unfold turned marked
    congr 1
    refine Survey.modify_congr fun u hu => ?_
    obtain rfl := Option.some.inj (hu.symm.trans hv)
    simp [Visit.finished, ht]
  refine returns_bind.mpr ⟨v, c, returns_visitOf hv, ?_⟩
  rw [hfresh, if_neg Bool.false_ne_true]
  refine returns_bind.mpr ⟨(), marked c n, rfl, ?_⟩
  rw [ht, hmark]
  exact returns_bind.mpr ⟨(), _, returns_amend hoverride, returns_pure.mpr ⟨rfl, rfl⟩⟩

/-- A node has its turn when it takes over the content of its target, which was settled behind the
    mark. -/
theorem settleTold_of_some (hoverride : e.override = none) {links : Nat} {t : NodeId}
    (hv : c.survey.visit? n = some v) (hfresh : v.merged = false) (ht : v.target = some t)
    (hspared : v.body.get? allOfKey = none) (hd : d.survey.visit? n = some v)
    (hrun : Returns (e.settleTold links t) (marked c n) ns (marked d n)) :
    Returns (e.settleTold (links + 1) n) c (ns ++ [n]) (e.turned d n) := by
  let body := inherited e.target v.body t (d.survey.fragment t)
  -- the mark and the body that is written behind it are one change
  have hmodify : (marked d n).survey.modify n (·.withBody body)
      = d.survey.modify n (Visit.finished e.target d.survey.fragment) := by
    unfold marked
    rw [Survey.modify_modify]
    refine Survey.modify_congr fun u hu => ?_
    obtain rfl := Option.some.inj (hu.symm.trans hd)
    rw [Visit.finished_of_some ht]
  have hwrite : Returns (onVisit n (·.withBody body)) (marked d n) () (e.turned d n) :=
    returns_onVisit.mpr (congrArg (fun survey => { d with survey }) hmodify.symm)
  have hinherit : Returns (e.inherit v.body t) (marked d n) body (marked d n) := by
    show e.inherit v.body t (marked d n)
      = (Except.ok (inherited e.target v.body t (d.survey.fragment t)), marked d n)
    rw [← fragment_marked d n]
    exact run_inherit fun _ _ => hspared
  refine returns_bind.mpr ⟨v, c, returns_visitOf hv, ?_⟩
  rw [hfresh, if_neg Bool.false_ne_true]
  refine returns_bind.mpr ⟨(), marked c n, rfl, ?_⟩
  rw [ht]
  refine returns_bind.mpr ⟨ns, marked d n, hrun, returns_bind.mpr ⟨body, _, hinherit, ?_⟩⟩
  refine returns_bind.mpr ⟨(), e.turned d n, hwrite, ?_⟩
  exact returns_bind.mpr ⟨(), _, returns_amend hoverride, returns_pure.mpr ⟨rfl, rfl⟩⟩

/-- **Settling a node.** The nodes that it reaches and that wait have their turns, the node itself
    the last one; nothing fails. -/
theorem settleTold_turns (hoverride : e.override = none) (links : Nat) (hc : c.Smooth)
    (hn : c.survey.has n = true) (hlinks : c.waiting < links) :
    ∃ ns d, Returns (e.settleTold links n) c ns d ∧ e.Turns c ns d ∧ d.waits n = false ∧
      ∀ m ∈ ns, Relation.ReflTransGen c.Next n m := by
  induction links generalizing n c with
  | zero => omega
  | succ links ih =>
    obtain ⟨v, hv⟩ := Survey.visit?_of_has hn
    have hwaits := waits_of_visit? hv
    cases hmerged : v.merged with
    | true =>
      exact ⟨[], c, settleTold_of_merged hv hmerged, .done c, by simp [hwaits, hmerged], nofun⟩
    | false =>
      rw [hmerged] at hwaits
      cases ht : v.target with
      | none =>
        have hdue : c.Due n := ⟨hwaits, fun t h => absurd h (not_next_of_none hv ht t)⟩
        refine ⟨[n], e.turned c n, settleTold_of_none hoverride hv hmerged ht,
          .turn hdue (.done _), waits_turned_self, fun m hm => ?_⟩
        rw [List.mem_singleton.mp hm]
      | some t =>
        have hnext : c.Next n t := ⟨v, hv, ht⟩
        -- one visit less waits behind the mark, and the target is settled there
        have hlt := (marked_advances c n).waiting_lt hwaits (waits_modify_self fun _ => rfl)
        have hhas : (marked c n).survey.has t = true := (has_modify ..).trans (hc.next hnext)
        obtain ⟨ns, f, hrun, hturns, hdone, hreach⟩ := ih (smooth_marked hc) hhas (by omega)
        rw [show (marked c n).Next = c.Next from next_modify fun _ => rfl] at hreach
        -- nothing that the target reaches leads back to the node
        have hloop := hc.acyclic n
        obtain ⟨d, hd, rfl⟩ := hturns.unmark fun m hm h =>
          hloop (.head' hnext ((hreach m hm).tail h))
        have hout : n ∉ ns := fun hmem => hloop (.head' hnext (hreach n hmem))
        have htn : t ≠ n := by
          rintro rfl
          exact hloop (.single hnext)
        have hvd : d.survey.visit? n = some v := (hd.visit?_of_not_mem hout).trans hv
        have hdue : d.Due n := by
          refine ⟨by rw [waits_of_visit? hvd, hmerged]; rfl, fun t' h => ?_⟩
          rw [eq_of_next hvd ht h, ← hdone]
          exact (waits_modify_of_ne htn).symm
        have hspared := hc.spared hv hmerged (by rw [ht]; rfl)
        refine ⟨ns ++ [n], e.turned d n,
          settleTold_of_some hoverride hv hmerged ht hspared hvd hrun,
          hd.append (.turn hdue (.done _)), waits_turned_self, fun m hm => ?_⟩
        rcases List.mem_append.mp hm with hm | hm
        · exact .head hnext (hreach m hm)
        · rw [List.mem_singleton.mp hm]

/-- Nodes that are settled in order have had their turns. -/
theorem settleAllTold_turns (hoverride : e.override = none) {links : Nat} (hc : c.Smooth)
    {ms : List NodeId} (hms : ∀ n ∈ ms, c.survey.has n = true) (hlinks : c.waiting < links) :
    ∃ ns d, Returns (e.settleAllTold links ms) c ns d ∧ e.Turns c ns d ∧
      ∀ n ∈ ms, d.waits n = false := by
  induction ms generalizing c with
  | nil => exact ⟨[], c, returns_pure.mpr ⟨rfl, rfl⟩, .done c, nofun⟩
  | cons m rest ih =>
    obtain ⟨hm, hrest⟩ := List.forall_mem_cons.mp hms
    obtain ⟨ns, b, hfirst, hb, hdone, -⟩ := settleTold_turns hoverride links hc hm hlinks
    have hsettle : Returns (e.settle links m) c () b := by
      rw [settle_eq_told]
      exact returns_bind.mpr ⟨ns, b, hfirst, returns_pure.mpr ⟨rfl, rfl⟩⟩
    have hle := ((settle_advances links m).of_returns hsettle).waiting_le
    obtain ⟨ns', d, hlater, hd, hall⟩ :=
      ih (hb.smooth hc) (fun n hn => hb.has.trans (hrest n hn)) (by omega)
    refine ⟨ns ++ ns', d, ?_, hb.append hd, List.forall_mem_cons.mpr ⟨hd.not_waits hdone, hall⟩⟩
    refine returns_bind.mpr ⟨ns, b, hfirst, ?_⟩
    exact returns_bind.mpr ⟨ns', d, hlater, returns_pure.mpr ⟨rfl, rfl⟩⟩

/-- **Any order.** However often, and in whatever order the visited nodes are settled, none of them
    left out, the same conversion is left: each node that waits has had one turn. -/
theorem settleAllTold_unique (hoverride : e.override = none) (hc : c.Smooth) :
    ∃ d, (∀ n, d.waits n = false) ∧
      ∀ links, c.survey.size < links → ∀ ms : List NodeId, (∀ n, n ∈ ms ↔ c.survey.has n = true) →
        ∃ ns, Returns (e.settleAllTold links ms) c ns d ∧ e.Turns c ns d := by
  have hle := c.waiting_le_size
  have hrun : ∀ links, c.survey.size < links → ∀ ms : List NodeId,
      (∀ n, n ∈ ms ↔ c.survey.has n = true) → ∃ ns d,
        Returns (e.settleAllTold links ms) c ns d ∧ e.Turns c ns d ∧ ∀ n, d.waits n = false := by
    intro links hlinks ms hms
    obtain ⟨ns, d, hreturns, hturns, hdone⟩ :=
      settleAllTold_turns hoverride hc (fun n hn => (hms n).mp hn) (by omega : c.waiting < links)
    refine ⟨ns, d, hreturns, hturns, fun n => ?_⟩
    cases hn : c.survey.has n with
    | true => exact hdone n ((hms n).mpr hn)
    | false =>
      have hnone : d.survey.visit? n = none := by
        simpa [Survey.has] using hturns.has.trans hn
      simp [waits, hnone]
  obtain ⟨ns, d, -, hturns, hd⟩ :=
    hrun (c.survey.size + 1) (by omega) c.survey.order fun n => (Survey.has_iff _ n).symm
  refine ⟨d, hd, fun links hlinks ms hms => ?_⟩
  obtain ⟨ns', d', hreturns, hturns', hd'⟩ := hrun links hlinks ms hms
  -- All runs of turns that leave nothing waiting end in the same conversion.
  obtain ⟨-, rfl⟩ := hturns.unique hturns' hd hd'
  exact ⟨ns', hreturns, hturns'⟩

end Emission

end SchemaGraph
