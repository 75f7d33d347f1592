import SchemaGraph.Proofs.Value.Founded

namespace SchemaGraph.View

/-!
# Views of different surveys

Two conversions of the same nodes have surveys with different numbers, and different surveys behind
them.  What they show is the same, as far as what they hold is the same and points at nothing else.

* `View.Ample`        — no more places hold pointers than the view has room for
* `View.enter_enough` — what comes to an end at all does so within the size of an ample view
* `View.Twins`        — views that hold the same under different numbers
* `View.Twins.document_iff` — twins make the same documents
-/

variable {view other : View} {among path path' : List Place} {p q : Place} {j : Json} {v : Value}

/-! ### Depth -/

/-- No more places hold pointers than the view says. -/
def Ample (view : View) : Prop :=
  ∃ among : List Place, among.length ≤ view.size ∧ ∀ p, view.places p ≠ [] → p ∈ among

/-- What is found at a place depends on the places that are pointed at from there. -/
theorem content_congr {f g : Place → Value}
    (h : ∀ q ∈ view.places p, ∀ j, (f q).toJson = .ok j → g q = f q)
    (hj : (view.content f p).toJson = .ok j) : view.content g p = view.content f p := by
  cases p with
  | fragment k n =>
    obtain ⟨ms, hms, -⟩ := Value.toJson_dict.mp hj
    exact congrArg Value.dict (Value.expandEntries_congr h hms)
  | list k =>
    obtain ⟨js, hjs, -⟩ := Value.toJson_list.mp hj
    exact congrArg Value.list (Value.expandList_congr h hjs)

/-- What no pointer is left of at some depth is found at every depth for which there are too few
    places that hold pointers: on the way down no place is met twice. -/
theorem enter_enough (hamong : ∀ p, view.places p ≠ [] → p ∈ among) {depth more : Nat}
    (hnodup : path.Nodup) (hsub : path ⊆ among) (hdepth : among.length < depth + path.length)
    (hj : (view.enter (fun _ => false) more path p).toJson = .ok j) :
    view.enter (fun _ => false) depth path p = view.enter (fun _ => false) more path p := by
  induction more generalizing depth path p j with
  | zero => exact absurd hj (not_toJson_pointer p j)
  | succ more ih =>
    have hlength := (hnodup.subperm hsub).length_le
    obtain ⟨depth, rfl⟩ : ∃ k, depth = k + 1 := ⟨depth - 1, by omega⟩
    unfold enter at hj ⊢
    split at hj
    · exact absurd hj (not_toJson_pointer p j)
    · rename_i hfresh
      rw [if_neg hfresh, if_neg hfresh]
      have hout : p ∉ path := by simpa using hfresh
      refine content_congr (fun q hq j hj => ?_) hj
      refine ih (List.nodup_cons.mpr ⟨hout, hnodup⟩) ?_ ?_ hj
      · exact List.cons_subset.mpr ⟨hamong p (List.ne_nil_of_mem hq), hsub⟩
      · rw [List.length_cons]
        omega

/-- What becomes a document at some depth is settled to the same. -/
theorem Ample.settle_eq (h : view.Ample) {depth : Nat}
    (hj : (v.expand (view.enter (fun _ => false) depth []) view.survey).toJson = .ok j) :
    view.settle v = v.expand (view.enter (fun _ => false) depth []) view.survey := by
  obtain ⟨among, hsize, hamong⟩ := h
  refine Value.expand_congr (fun p _ j hj => ?_) hj
  refine enter_enough hamong List.nodup_nil (List.nil_subset _) ?_ hj
  rw [List.length_nil]
  omega

/-! ### Twins -/

/-- Views that hold the same of some nodes in their own surveys, which have different numbers, and
    the same of the surveys before.  What they hold points at nothing else. -/
structure Twins (reach : NodeId → Prop) (count : Nat) (view other : View) : Prop where
  before : count ≤ view.survey
  behind : count ≤ other.survey
  own : ∀ n, reach n → other.fragment other.survey n = view.fragment view.survey n
  past : ∀ k < count, ∀ n, other.fragment k n = view.fragment k n
  list : ∀ k, other.list k = view.list k
  ownReaches : ∀ n, reach n → (view.fragment view.survey n).Each (Value.Reaches reach count)
  pastReaches : ∀ k < count, ∀ n, (view.fragment k n).Each (Value.Past count)
  listReaches : ∀ k, ∀ v ∈ view.list k, v.Reaches reach count

namespace Twins

variable {reach : NodeId → Prop} {count : Nat}

/-- Twins are twins of each other. -/
theorem symm (h : view.Twins reach count other) : other.Twins reach count view where
  before := h.behind
  behind := h.before
  own n hn := (h.own n hn).symm
  past k hk n := (h.past k hk n).symm
  list k := (h.list k).symm
  ownReaches n hn := h.own n hn ▸ h.ownReaches n hn
  pastReaches k hk n := h.past k hk n ▸ h.pastReaches k hk n
  listReaches k := h.list k ▸ h.listReaches k

/-- Places that are known stay apart when they are moved. -/
theorem moved_inj (h : view.Twins reach count other) (hp : p.Known reach count view.survey)
    (hq : q.Known reach count view.survey)
    (hsame : p.moved view.survey other.survey = q.moved view.survey other.survey) : p = q := by
  have hbehind := h.behind
  cases p with
  | list k =>
    cases q with
    | list l => exact hsame
    | fragment l m => cases hsame
  | fragment k n =>
    cases q with
    | list l => cases hsame
    | fragment l m =>
      obtain ⟨hkl, rfl⟩ := Place.fragment.inj hsame
      have hk := hp k n rfl
      have hl := hq l n rfl
      unfold Place.renumber at hkl
      have hnumber : k = l := by split at hkl <;> split at hkl <;> omega
      rw [hnumber]

/-- From places that are known only such places are pointed at. -/
theorem known (h : view.Twins reach count other) (hp : p.Known reach count view.survey)
    (hq : q ∈ view.places p) : q.Known reach count view.survey := by
  cases p with
  | fragment k n =>
    obtain ⟨entry, hentry, hq⟩ := Value.mem_entryPlaces.mp hq
    rcases hp k n rfl with ⟨rfl, hn⟩ | hk
    · exact h.ownReaches n hn entry hentry _ q hq
    · intro l m hl
      -- surveys before point at themselves and at earlier ones
      have hknown := h.pastReaches k hk n entry hentry k q hq l m hl
      omega
  | list k =>
    obtain ⟨x, hx, hq⟩ := Value.mem_listPlaces.mp hq
    exact h.listReaches k x hx _ q hq

/-- The same is found at a place that is known, with the places moved that are pointed at. -/
theorem content_moved (h : view.Twins reach count other) (hp : p.Known reach count view.survey)
    (g : Place → Value) : other.content g (p.moved view.survey other.survey) =
      view.content (g ∘ Place.moved view.survey other.survey) p := by
  cases p with
  | fragment k n =>
    -- The fragment is one of the survey at hand, or one of an earlier survey.
    have hsame : other.fragment (Place.renumber view.survey other.survey k) n =
        view.fragment k n := by
      unfold Place.renumber
      rcases hp k n rfl with ⟨rfl, hn⟩ | hk
      · rw [if_pos rfl]
        exact h.own n hn
      · have hbefore := h.before
        rw [if_neg (by omega)]
        exact h.past k hk n
    have hpast : (view.fragment k n).Each (Value.Past count) := by
      rcases hp k n rfl with ⟨rfl, hn⟩ | hk
      · exact (h.ownReaches n hn).mono fun v hv => hv.mono fun _ _ => trivial
      · exact h.pastReaches k hk n
    show Value.dict (Value.expandEntries g (Place.renumber view.survey other.survey k)
      (other.fragment (Place.renumber view.survey other.survey k) n)) = _
    rw [hsame, Value.expandEntries_moved g other.survey h.before k hpast]
    rfl
  | list k =>
    have hmoved := Value.expandList_moved g other.survey h.before view.survey (h.listReaches k)
    rw [Place.renumber, if_pos rfl] at hmoved
    show Value.list (Value.expandList g other.survey (other.list k)) = _
    rw [h.list, hmoved]
    rfl

/-- Where the one view leaves no pointer, its twin replaces pointers by the same. -/
theorem enter (h : view.Twins reach count other) {depth : Nat}
    (hpath : ∀ p, p.Known reach count view.survey →
      p.moved view.survey other.survey ∈ path' → p ∈ path)
    (hp : p.Known reach count view.survey)
    (hj : (view.enter (fun _ => false) depth path p).toJson = .ok j) :
    other.enter (fun _ => false) depth path' (p.moved view.survey other.survey) =
      view.enter (fun _ => false) depth path p := by
  induction depth generalizing path path' p j with
  | zero => exact absurd hj (not_toJson_pointer p j)
  | succ depth ih =>
    unfold View.enter at hj ⊢
    split at hj
    · exact absurd hj (not_toJson_pointer p j)
    · rename_i hfresh
      have hout : p ∉ path := by simpa using hfresh
      have hout' : p.moved view.survey other.survey ∉ path' := fun hmem => hout (hpath p hp hmem)
      rw [if_neg hfresh, if_neg (by simpa using hout'), h.content_moved hp]
      -- Moving places is injective on those that are known, so that no new circle is met.
      have hbelow : ∀ q, q.Known reach count view.survey →
          q.moved view.survey other.survey ∈ p.moved view.survey other.survey :: path' →
          q ∈ p :: path := by
        intro q hq hmem
        rcases List.mem_cons.mp hmem with hsame | hmem
        · exact List.mem_cons.mpr (.inl (h.moved_inj hq hp hsame))
        · exact List.mem_cons_of_mem _ (hpath q hq hmem)
      exact content_congr (fun q hq j hj => ih hbelow (h.known hp hq) hj) hj

/-- A value that is a document for the one view is the same document for its twin. -/
theorem settle (h : view.Twins reach count other) (hother : other.Ample)
    (hv : v.Reaches reach count) (hj : (view.settle v).document = .ok j) :
    other.settle v = view.settle v := by
  obtain ⟨j', hj'⟩ : ∃ j', (view.settle v).toJson = .ok j' := by
    unfold Value.document at hj
    cases hrun : (view.settle v).toJson with
    | error f => simp [hrun, Except.mapError] at hj
    | ok j' => exact ⟨j', rfl⟩
  have hmoved := Value.expand_moved (other.enter (fun _ => false) (view.size + 1) [])
    other.survey h.before view.survey hv
  rw [Place.renumber, if_pos rfl] at hmoved
  have hsame : v.expand (other.enter (fun _ => false) (view.size + 1) []) other.survey =
      view.settle v := by
    rw [hmoved]
    refine Value.expand_congr (fun p hp j hj => ?_) hj'
    exact h.enter (fun _ _ hmem => by cases hmem) (hv view.survey p hp) hj
  rw [← hsame] at hj' ⊢
  exact hother.settle_eq hj'

/-- **Documents.** Twins make the same documents. -/
theorem document_iff (h : view.Twins reach count other) (hview : view.Ample) (hother : other.Ample)
    (hv : v.Reaches reach count) :
    (view.settle v).document = .ok j ↔ (other.settle v).document = .ok j := by
  constructor
  · intro hj
    rw [h.settle hother hv hj]
    exact hj
  · intro hj
    rw [h.symm.settle hview hv hj]
    exact hj

end Twins

end SchemaGraph.View
