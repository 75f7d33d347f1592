import SchemaGraph.Proofs.Document.Holding
import SchemaGraph.Proofs.Document.Settling
import SchemaGraph.Proofs.Survey.Shapes

namespace SchemaGraph

open SchemaGraph.Action Conversion

/-!
# What compiled bodies mean

The body of a node behind settling either holds the keywords of the node, or it refers to a
definition behind it and holds the keywords that are put over it.  Read with its references
followed, a document therefore has the keywords of the node that it was made for, and level by
level the same tree.

* `Survey.Compiled`  — what settling has made of the contents of nodes
* `Means`            — what a body says about the keywords of its node
* `View.Matches`     — the members of an object show the entries of a mapping
* `Linked.unfold_eq_lower` — unfolded to any depth, a document is the tree of its node
-/

open Emission

namespace Survey

/-- The keywords that describe a node itself. -/
def body (s : Survey) (n : NodeId) : Entries := ((s.visit? n).map Visit.body).getD []

/-- A node is a definition, and its fragment the reference to it. -/
def Refers (s : Survey) (n : NodeId) (ref : String) : Prop :=
  ∃ v, s.visit? n = some v ∧ v.definition.isSome ∧ v.fragment = [(Visit.refKey, .str ref)]

/-- What has become of a visit: its body holds what the node behind it says, and its fragment is
    the body or a bare reference. -/
structure Became (target : Target) (s : Survey) (v w : Visit) : Prop where
  body : w.body =
    match v.target with
    | none => v.fragment
    | some t => inherited target v.fragment t (s.fragment t)
  fragment : w.definition = none ∨
    w.definition.isSome ∧ ∃ ref, w.fragment = [(Visit.refKey, .str ref)]

/-- Every visit has become what its content and the nodes behind it ask for. -/
def Compiled (target : Target) (s s' : Survey) : Prop :=
  ∀ {n v}, s.visit? n = some v → ∃ w, s'.visit? n = some w ∧ Became target s' v w

/-- The fragment of a compiled node is its body, or refers to it. -/
theorem Compiled.fragment_cases {target : Target} {s s' : Survey} (h : Compiled target s s')
    {n : NodeId} (hn : s.has n = true) :
    s'.fragment n = s'.body n ∨
      ∃ ref, s'.Refers n ref ∧ s'.fragment n = [(Visit.refKey, .str ref)] := by
  obtain ⟨v, hv⟩ := visit?_of_has hn
  obtain ⟨w, hw, hbecame⟩ := h hv
  have hfragment : s'.fragment n = w.fragment := by simp [fragment, hw]
  rcases hbecame.fragment with hnone | ⟨hsome, ref, href⟩
  · refine .inl ?_
    rw [hfragment, body, hw]
    simp [Visit.body, hnone]
  · exact .inr ⟨ref, ⟨w, hw, hsome, href⟩, hfragment.trans href⟩

end Survey

/-! ### Meaning of bodies -/

/-- A body holds a reference to the definition of a node under a keyword. -/
inductive Hides (target : Target) (body : Entries) (m : NodeId) (ref : String) : String → Prop
  | ref (ht : target = .draft2020) (h : body.get? "$ref" = some (.str ref)) :
    Hides target body m ref "$ref"
  | allOf (ht : target = .draft7) (hnone : body.get? "$ref" = none)
      (h : body.get? "allOf" = some (.list [.fragment m])) : Hides target body m ref "allOf"

/-- What a body says: it holds the given keywords, or it refers to a definition and holds what
    is put over the keywords of that. -/
inductive Means (guide : Guide) (s : Store) (links : Nat) (survey : Survey)
    (visited : NodeId → Prop) : Nat → Entries → Entries → Prop
  | direct {steps : Nat} {body es : Entries} (href : body.get? "$ref" = none)
      (hall : ∀ v, body.get? "allOf" = some v → v.Fits visited "allOf")
      (hsame : ∀ name : String, es.get? (.str name) = body.get? (.str name)) :
      Means guide s links survey visited steps body es
  | refers {steps : Nat} {body es below : Entries} {m : NodeId} {ref : String} (keyword : String)
      (hvisited : visited m) (hm : survey.Refers m ref)
      (hkeyword : Hides guide.settings.target body m ref keyword)
      (hbelow : s.keywords? guide links steps m = some below)
      (hsame : ∀ name : String, es.get? (.str name)
        = (if name = keyword then none else body.get? (.str name)).or (below.get? (.str name))) :
      Means guide s links survey visited (steps + 1) body es

section Bodies

variable {guide : Guide} {s : Store} {links steps : Nat} {survey : Survey}
  {visited : NodeId → Prop} {own below body : Entries}

/-- Merged keywords hold the own value where there is one, and the one below elsewhere. -/
theorem get?_mergeBelow (hown : own.Distinct) (hbelow : below.Distinct) (key : Value) :
    (mergeBelow own below).get? key = (own.get? key).or (below.get? key) := by
  unfold mergeBelow
  rw [Entries.get?_update hown, Entries.get?_update hbelow]
  cases own.get? key <;> simp

/-- Keywords put over a body mean what they put over the keywords that the body means. -/
theorem Means.merge (h : Means guide s links survey visited steps body below)
    (hown : own.Shaped visited) (hall : guide.settings.target = .draft7 → own.get? "allOf" = none)
    (hbody : body.Distinct) :
    Means guide s links survey visited (steps + 1) (mergeBelow own body)
      (below.update own) := by
  have href : own.get? "$ref" = none := by
    cases hget : own.get? "$ref" with
    | none => rfl
    | some v => exact absurd (hown.fits hget).1 (by decide)
  have hmerged : ∀ name : String, (mergeBelow own body).get? (.str name)
      = (own.get? (.str name)).or (body.get? (.str name)) :=
    fun name => get?_mergeBelow hown.distinct hbody _
  -- The own keywords say nothing under the keyword that refers, so that it is the one below.
  cases h with
  | direct href' hall' hsame =>
    refine .direct ?_ (fun v hv => ?_) fun name => ?_
    · rw [hmerged, href, href']
      rfl
    · rw [hmerged] at hv
      rcases Option.or_eq_some_iff.mp hv with hv | ⟨-, hv⟩
      · exact (hown.fits hv).2
      · exact hall' v hv
    · rw [hmerged, Entries.get?_update hown.distinct, hsame]
  | @refers steps _ _ below' m ref keyword hvisited hm hkeyword hbelow hsame =>
    refine .refers keyword hvisited hm ?_
      (Store.keywords?_mono (Nat.le_succ steps) hbelow) fun name => ?_
    · cases hkeyword with
      | ref ht h =>
        refine .ref ht ?_
        rw [hmerged, href, Option.none_or]
        exact h
      | allOf ht hnone h =>
        refine .allOf ht ?_ ?_
        · rw [hmerged, href, hnone]
          rfl
        · rw [hmerged, hall ht, Option.none_or]
          exact h
    -- Under the keyword that refers nothing is put over; elsewhere the own value wins on both
    -- sides.
    · have hspared : own.get? (.str keyword) = none := by
        cases hkeyword with
        | ref => exact href
        | allOf ht => exact hall ht
      rw [Entries.get?_update hown.distinct, hsame, hmerged]
      by_cases hname : name = keyword
      · subst hname
        rw [if_pos rfl, if_pos rfl, hspared]
        simp
      · rw [if_neg hname, if_neg hname]
        cases own.get? (.str name) <;> simp

/-- A bare reference, alone or with keywords put over it, means these keywords over those of the
    node behind it. -/
theorem Means.of_bare {t : NodeId} {ref : String} (ht : survey.Refers t ref) (hvisited : visited t)
    (hbelow : s.keywords? guide links steps t = some below) (hown : own.Shaped visited)
    (hall : guide.settings.target = .draft7 → own.get? "allOf" = none) :
    Means guide s links survey visited (steps + 1)
      (inherited guide.settings.target own t [(Visit.refKey, .str ref)]) (below.update own) := by
  have href : own.get? "$ref" = none := by
    cases hget : own.get? "$ref" with
    | none => rfl
    | some v => exact absurd (hown.fits hget).1 (by decide)
  have hes : ∀ name : String, (below.update own).get? (.str name)
      = (own.get? (.str name)).or (below.get? (.str name)) :=
    fun name => Entries.get?_update hown.distinct _ _
  unfold inherited
  -- The reference goes among the own keywords, or into `allOf` where those beside it would be
  -- ignored.
  cases htarget : guide.settings.target with
  | draft2020 =>
    rw [if_neg (by simp)]
    have hbare : Entries.Distinct [(Visit.refKey, .str ref)] := List.pairwise_singleton _ _
    refine .refers "$ref" hvisited ht (.ref htarget ?_) hbelow fun name => ?_
    · rw [get?_mergeBelow hown.distinct hbare, href]
      rfl
    · rw [hes, get?_mergeBelow hown.distinct hbare]
      by_cases hname : name = "$ref"
      · subst hname
        rw [if_pos rfl, href]
      · have hother : Entries.get? (.str name) [(Visit.refKey, .str ref)] = none := by
          refine Entries.get?_eq_none fun p hp => ?_
          rw [List.mem_singleton.mp hp]
          exact fun h => hname (Value.str.inj h).symm
        rw [if_neg hname, hother, Option.or_none]
  | draft7 =>
    rw [if_pos ⟨rfl, rfl⟩]
    refine .refers "allOf" hvisited ht (.allOf htarget ?_ ?_) hbelow fun name => ?_
    · rw [allOfKey, Entries.get?_set_str, if_neg (by decide), href]
    · rw [allOfKey, Entries.get?_set_self]
    · rw [hes, allOfKey, Entries.get?_set_str]
      by_cases hname : name = "allOf"
      · subst hname
        rw [if_pos rfl, hall htarget]
      · rw [if_neg hname, if_neg hname]

/-- In the dialect that ignores keywords beside a reference no body has one. -/
theorem Means.get?_ref (h : Means guide s links survey visited steps body below)
    (ht : guide.settings.target = .draft7) : body.get? "$ref" = none := by
  cases h with
  | direct href => exact href
  | refers _ _ _ hkeyword =>
    cases hkeyword with
    | ref ht' => rw [ht] at ht'; cases ht'
    | allOf _ hnone => exact hnone

end Bodies

/-- A compiled survey, with what the store has to say about its nodes. -/
structure Grounded (guide : Guide) (s : Store) (links : Nat) (p c : Survey) : Prop where
  contents : ∀ {n v}, p.visit? n = some v →
    ∃ w, s.contents? guide links n = some w ∧ w.content = v.content
  suited : ∀ n, p.has n = true → s.Suited guide.catalog n
  undemanding : guide.settings.target = .draft7 → ∀ n, p.has n = true →
    s.Undemanding guide.catalog n
  edge : ∀ n m, p.has n = true → s.Edge guide.settings.side n m → p.has m = true
  compiled : p.Compiled guide.settings.target c

namespace Grounded

variable {guide : Guide} {s : Store} {links : Nat} {p c : Survey}

/-- Content that is taken over keeps texts as keys. -/
theorem texts_inherited {target : Target} {own below : Entries} {t : NodeId} (hown : own.Texts)
    (hbelow : below.Texts) : (inherited target own t below).Texts := by
  unfold inherited
  split
  · exact hown.set "allOf" _
  · exact (hown.update hbelow).update hown

/-- Content that is taken over has each key once. -/
theorem distinct_inherited {target : Target} {own below : Entries} {t : NodeId}
    (hown : own.Distinct) : (inherited target own t below).Distinct := by
  unfold inherited
  split
  · exact hown.set _ _
  · exact (hown.update below).update own

/-- What the survey holds of a node, and what has become of it. -/
theorem visit (h : Grounded guide s links p c) {n : NodeId} (hn : p.has n = true) {v : Visit}
    (hv : s.contents? guide links n = some v) :
    v.fragment.Shaped (fun m => p.has m = true) ∧
      (v.target.isSome → guide.settings.target = .draft7 → v.fragment.get? "allOf" = none) ∧
      c.body n =
        match v.target with
        | none => v.fragment
        | some t => inherited guide.settings.target v.fragment t (c.fragment t) := by
  obtain ⟨u, hu⟩ := Survey.visit?_of_has hn
  obtain ⟨w, hw, hsame⟩ := h.contents hu
  obtain rfl : w = v := Option.some.inj (hw.symm.trans hv)
  obtain ⟨x, hx, hbecame⟩ := h.compiled hu
  have hshaped := Store.contents?_shaped (h.suited n hn) hv
  refine ⟨hshaped.mono fun m hm => h.edge n m hn hm,
    fun hsome ht => Store.contents?_allOf (h.suited n hn) (h.undemanding ht n hn) hv hsome, ?_⟩
  have hfragment : w.fragment = u.fragment := congrArg (·.1) hsame
  have htarget : w.target = u.target := congrArg (·.2.1) hsame
  rw [hfragment, htarget, Survey.body, hx]
  exact hbecame.body

/-- The body of a node that passes nothing on. -/
theorem means_own (h : Grounded guide s links p c) {n : NodeId} (hn : p.has n = true) {v : Visit}
    (hv : s.contents? guide links n = some v) (ht : v.target = none) (steps : Nat) :
    (c.body n).Texts ∧ (c.body n).Distinct ∧
      Means guide s links c (fun m => p.has m = true) steps (c.body n) v.fragment := by
  obtain ⟨hshaped, -, hbody⟩ := h.visit hn hv
  rw [ht] at hbody
  rw [hbody]
  refine ⟨hshaped.texts, hshaped.distinct, .direct ?_ (fun w hw => (hshaped.fits hw).2)
    fun _ => rfl⟩
  cases hget : v.fragment.get? "$ref" with
  | none => rfl
  | some w => exact absurd (hshaped.fits hget).1 (by decide)

/-- **Bodies.** The body of a compiled node has texts as keys, each once, and means the keywords
    of the node. -/
theorem means_body (h : Grounded guide s links p c) {steps : Nat} {n : NodeId} {es : Entries}
    (hn : p.has n = true) (hes : s.keywords? guide links steps n = some es) :
    (c.body n).Texts ∧ (c.body n).Distinct ∧
      Means guide s links c (fun m => p.has m = true) steps (c.body n) es := by
  -- Induction on the steps to the end of the chain along which content is passed on.
  induction steps generalizing n es with
  | zero =>
    obtain ⟨v, hv, ⟨ht, rfl⟩ | ⟨t, steps', below, -, hsteps, -⟩⟩ := Store.keywords?_cases hes
    · exact h.means_own hn hv ht 0
    · omega
  | succ steps ih =>
    obtain ⟨v, hv, ⟨ht, rfl⟩ | ⟨t, steps', below, ht, hsteps, hbelow, rfl⟩⟩ :=
      Store.keywords?_cases hes
    · exact h.means_own hn hv ht _
    · obtain rfl : steps = steps' := by omega
      have hvisited := h.edge n t hn (Store.passes_of_contents? hv ht).edge
      obtain ⟨hshaped, hall, hbody⟩ := h.visit hn hv
      have hspared := hall (by rw [ht]; rfl)
      simp only [ht] at hbody
      rw [hbody]
      obtain ⟨htexts, hdistinct, hmeans⟩ := ih hvisited hbelow
      rcases Survey.Compiled.fragment_cases h.compiled hvisited with hsame | ⟨ref, href, hbare⟩
      · -- the content of the node behind is merged in
        have hmerge : inherited guide.settings.target v.fragment t (c.fragment t)
            = mergeBelow v.fragment (c.body t) := by
          unfold inherited
          rw [hsame, if_neg]
          rintro ⟨hhas, htarget⟩
          have hnone := hmeans.get?_ref htarget
          rw [Entries.has, Visit.refKey, hnone] at hhas
          cases hhas
        refine ⟨texts_inherited hshaped.texts (hsame ▸ htexts),
          distinct_inherited hshaped.distinct, ?_⟩
        rw [hmerge]
        exact hmeans.merge hshaped hspared hdistinct
      · rw [hbare]
        refine ⟨texts_inherited hshaped.texts fun p hp => ⟨"$ref", ?_⟩,
          distinct_inherited hshaped.distinct, .of_bare href hvisited hbelow hshaped hspared⟩
        rw [List.mem_singleton.mp hp]
        rfl

/-- The body of a compiled node leaves out the keywords that the node does not have, but for
    those that hold references. -/
theorem body_unset (h : Grounded guide s links p c) {steps : Nat} {n : NodeId} {es : Entries}
    (hn : p.has n = true) (hes : s.keywords? guide links steps n = some es) {name : String}
    (hnone : es.get? (.str name) = none) (href : name ≠ "$ref") (hall : name ≠ "allOf") :
    (c.body n).get? (.str name) = none := by
  obtain ⟨-, -, hmeans⟩ := h.means_body hn hes
  cases hmeans with
  | direct _ _ hsame => exact (hsame name).symm.trans hnone
  | refers keyword _ _ hkeyword _ hsame =>
    have hne : name ≠ keyword := by
      rintro rfl
      cases hkeyword with
      | ref => exact href rfl
      | allOf => exact hall rfl
    have hor := (hsame name).symm.trans hnone
    rw [if_neg hne, Option.or_eq_none_iff] at hor
    exact hor.1

/-- The body of a compiled node leaves the dialect to documents. -/
theorem body_dialect (h : Grounded guide s links p c) {steps : Nat} {n : NodeId} {es : Entries}
    (hn : p.has n = true) (hes : s.keywords? guide links steps n = some es) :
    (c.body n).get? "$schema" = none := by
  refine h.body_unset hn hes ?_ (by decide) (by decide)
  cases hget : es.get? "$schema" with
  | none => rfl
  | some x =>
    have hshaped := Store.keywords?_shaped h.suited h.edge hn hes
    exact absurd (hshaped.fits hget).1 (by decide)

/-- The fragment of a compiled node has texts as keys, each once. -/
theorem fragment_formed (h : Grounded guide s links p c) {steps : Nat} {n : NodeId} {es : Entries}
    (hn : p.has n = true) (hes : s.keywords? guide links steps n = some es) :
    (c.fragment n).Texts ∧ (c.fragment n).Distinct := by
  obtain ⟨htexts, hdistinct, -⟩ := h.means_body hn hes
  rcases Survey.Compiled.fragment_cases h.compiled hn with hsame | ⟨ref, -, hbare⟩
  · rw [hsame]
    exact ⟨htexts, hdistinct⟩
  · rw [hbare]
    refine ⟨fun p hp => ⟨"$ref", ?_⟩, List.pairwise_singleton _ _⟩
    rw [List.mem_singleton.mp hp]
    rfl

end Grounded

/-! ### Documents -/

/-- The members of an object show the entries of a mapping. -/
def View.Matches (view : View) (es : Entries) (ds : List (String × Json)) : Prop :=
  ∀ name : String, Option.Rel view.Shows (es.get? (.str name)) (Json.lookup? name ds)

/-- A value that is related to a document shows it. -/
theorem View.shows_of_rel {view : View} {v : Value} {j : Json}
    (h : Option.Rel view.Shows (some v) (some j)) : view.Shows v j := by
  cases h with
  | some h => exact h

/-- A keyword of the mapping is shown by the member of its name. -/
theorem View.Matches.lookup? {view : View} {es : Entries} {ds : List (String × Json)}
    (h : view.Matches es ds) {name : String} {v : Value} (hv : es.get? (.str name) = some v) :
    ∃ j, Json.lookup? name ds = some j ∧ view.Shows v j := by
  have hrel := h name
  rw [hv] at hrel
  cases hlookup : Json.lookup? name ds with
  | none => rw [hlookup] at hrel; cases hrel
  | some j =>
    rw [hlookup] at hrel
    exact ⟨j, rfl, View.shows_of_rel hrel⟩

/-- A keyword that the mapping lacks has no member. -/
theorem View.Matches.lookup?_none {view : View} {es : Entries} {ds : List (String × Json)}
    (h : view.Matches es ds) {name : String} (hv : es.get? (.str name) = none) :
    Json.lookup? name ds = none := by
  have hrel := h name
  rw [hv] at hrel
  cases hlookup : Json.lookup? name ds with
  | none => rfl
  | some j => rw [hlookup] at hrel; cases hrel

/-- Related choices choose what is related. -/
theorem Option.rel_or {α β : Type} {r : α → β → Prop} {a a' : Option α} {b b' : Option β}
    (h : Option.Rel r a b) (h' : Option.Rel r a' b') : Option.Rel r (a.or a') (b.or b') := by
  cases h with
  | none => exact h'
  | some h => exact .some h

/-- A text shows itself. -/
theorem View.shows_str {view : View} {s : String} {j : Json} (h : view.Shows (.str s) j) :
    j = .str s := by
  have := View.shows_of_plain rfl h
  cases this
  rfl

/-- A bare reference shows itself. -/
theorem View.shows_bare {view : View} {n : NodeId} {ref : String} {j : Json}
    (hn : view.fragment view.survey n = [(Visit.refKey, .str ref)])
    (h : view.Shows (.fragment n) j) : j = .obj [("$ref", .str ref)] := by
  obtain ⟨ms, hms, rfl⟩ := View.shows_fragment h
  rw [hn] at hms
  have hall := hms.forall₂ fun p hp => ⟨"$ref", by rw [List.mem_singleton.mp hp]; rfl⟩
  obtain _ | ⟨⟨hkey, hvalue⟩, hrest⟩ := hall
  obtain _ | _ := hrest
  rename_i m
  obtain ⟨name, j⟩ := m
  obtain rfl := View.shows_str hvalue
  obtain rfl := Value.str.inj hkey
  rfl

/-- A compiled survey whose references lead to what its definitions show. -/
structure Linked (guide : Guide) (s : Store) (links bound : Nat) (p c : Survey) (view : View)
    (find : String → Option (List (String × Json))) : Prop where
  grounded : Grounded guide s links p c
  keywords : ∀ n, p.has n = true → ∃ es, s.keywords? guide links bound n = some es
  fragments : ∀ n, view.fragment view.survey n = c.fragment n
  leads : ∀ n ref, p.has n = true → c.Refers n ref →
    ∃ ds, find ref = some ds ∧ view.Matches (c.body n) ds

namespace Linked

variable {guide : Guide} {s : Store} {links bound : Nat} {p c : Survey} {view : View}
  {find : String → Option (List (String × Json))}

/-- Members that show a body which holds no reference have none. -/
theorem reference?_of_direct {visited : NodeId → Prop} {body : Entries}
    {ds : List (String × Json)} {target : Target} (hds : view.Matches body ds)
    (href : body.get? "$ref" = none)
    (hall : ∀ v, body.get? "allOf" = some v → v.Fits visited "allOf") :
    Json.reference? target ds = none := by
  have hnone := hds.lookup?_none href
  unfold Json.reference?
  rw [hnone]
  dsimp only
  split
  · rename_i _ _ ref hlookup
    have hrel := hds "allOf"
    rw [hlookup] at hrel
    cases hget : body.get? "allOf" with
    | none => rw [hget] at hrel; cases hrel
    | some v =>
      rw [hget] at hrel
      have hshows := View.shows_of_rel hrel
      -- A reference would be a list of one schema, which is a bare reference.
      cases hall v hget with
      | data hp hfree =>
        have hj := hfree _ (View.shows_of_plain hp hshows)
        simp [Role.of, Json.refFree, Json.refFreeList, Json.lookup?] at hj
      | fragment hrole hkey => exact absurd rfl hkey
      | list hrole hkey hhead h =>
        obtain ⟨js, hjs, hj⟩ := View.shows_list hshows
        have hlength := hjs.length_eq
        cases hj
        exact absurd hlength (hkey rfl)
      | members hrole => cases hrole
  · rfl

/-- Members that show a body which holds a reference refer to what it names. -/
theorem reference?_of_hides (h : Linked guide s links bound p c view find) {body : Entries}
    {ds : List (String × Json)} {m : NodeId} {ref keyword : String}
    (hds : view.Matches body ds) (hm : c.Refers m ref)
    (hkeyword : Hides guide.settings.target body m ref keyword) :
    Json.reference? guide.settings.target ds = some (ref, keyword) := by
  unfold Json.reference?
  cases hkeyword with
  | ref ht href =>
    obtain ⟨j, hj, hshows⟩ := hds.lookup? href
    obtain rfl := View.shows_str hshows
    rw [hj]
  | allOf ht hnone hall =>
    obtain ⟨j, hj, hshows⟩ := hds.lookup? hall
    have hbare : view.fragment view.survey m = [(Visit.refKey, .str ref)] := by
      obtain ⟨w, hw, -, hfragment⟩ := hm
      rw [h.fragments, Survey.fragment, hw]
      exact hfragment
    obtain ⟨js, hjs, rfl⟩ := View.shows_list hshows
    obtain _ | ⟨helement, hrest⟩ := hjs
    obtain _ | _ := hrest
    obtain rfl := View.shows_bare hbare helement
    simp only [hds.lookup?_none hnone, ht, hj]

/-- **Keywords.** Members that show a body have, with references followed, the keywords that the
    body means. -/
theorem keywords_of_means (h : Linked guide s links bound p c view find) {steps : Nat}
    {body es : Entries} {ds : List (String × Json)}
    (hmeans : Means guide s links c (fun m => p.has m = true) steps body es)
    (hds : view.Matches body ds) :
    ∃ found, Json.keywords find guide.settings.target steps ds = some found ∧
      ∀ name : String, Option.Rel view.Shows (es.get? (.str name)) (found name) := by
  induction steps generalizing body es ds with
  | zero =>
    cases hmeans with
    | direct href hall hsame =>
      refine ⟨_, Json.keywords_of_reference?_none (reference?_of_direct hds href hall), ?_⟩
      exact fun name => hsame name ▸ hds name
  | succ steps ih =>
    cases hmeans with
    | direct href hall hsame =>
      refine ⟨_, Json.keywords_of_reference?_none (reference?_of_direct hds href hall), ?_⟩
      exact fun name => hsame name ▸ hds name
    | @refers _ _ _ below m ref keyword hvisited hm hkeyword hbelow hsame =>
      -- The reference leads to the body of `m`, which is read with one step less.
      obtain ⟨ds', hfind, hds'⟩ := h.leads m ref hvisited hm
      obtain ⟨-, -, hmeans'⟩ := h.grounded.means_body hvisited hbelow
      obtain ⟨found, hfound, hrel⟩ := ih hmeans' hds'
      refine ⟨fun name => (if name = keyword then none else Json.lookup? name ds).or (found name),
        ?_, fun name => ?_⟩
      · simp only [Json.keywords, h.reference?_of_hides hds hm hkeyword, hfind, hfound]
      · rw [hsame]
        refine Option.rel_or ?_ (hrel name)
        split
        · exact .none
        · exact hds name

/-- Members that show what a node has become: its body, or its fragment. -/
def Stands (view : View) (c : Survey) (n : NodeId) (ds : List (String × Json)) : Prop :=
  view.Matches (c.body n) ds ∨ view.Matches (c.fragment n) ds

/-- The keywords of members that stand for a node are those of the node. -/
theorem keywords_of_stands (h : Linked guide s links bound p c view find) {n : NodeId}
    (hn : p.has n = true) {es : Entries} (hes : s.keywords? guide links bound n = some es)
    {ds : List (String × Json)} (hds : Stands view c n ds) {more : Nat} (hmore : bound < more) :
    ∃ found, Json.keywords find guide.settings.target more ds = some found ∧
      ∀ name : String, Option.Rel view.Shows (es.get? (.str name)) (found name) := by
  obtain ⟨-, -, hmeans⟩ := h.grounded.means_body hn hes
  -- Members that show the body are read as what it means.
  have hbody : ∀ {ds}, view.Matches (c.body n) ds →
      ∃ found, Json.keywords find guide.settings.target bound ds = some found ∧
        ∀ name : String, Option.Rel view.Shows (es.get? (.str name)) (found name) :=
    fun hds => h.keywords_of_means hmeans hds
  rcases hds with hds | hds
  · obtain ⟨found, hfound, hrel⟩ := hbody hds
    exact ⟨found, Json.keywords_mono (le_of_lt hmore) hfound, hrel⟩
  · rcases Survey.Compiled.fragment_cases h.grounded.compiled hn with hsame | ⟨ref, hm, hbare⟩
    · obtain ⟨found, hfound, hrel⟩ := hbody (hsame ▸ hds)
      exact ⟨found, Json.keywords_mono (le_of_lt hmore) hfound, hrel⟩
    · -- a bare reference costs one more link
      obtain ⟨more, rfl⟩ : ∃ k, more = k + 1 := ⟨more - 1, by omega⟩
      obtain ⟨ds', hfind, hds'⟩ := h.leads n ref hn hm
      obtain ⟨found, hfound, hrel⟩ := hbody hds'
      have hmore' := Json.keywords_mono (Nat.le_of_lt_succ hmore) hfound
      have hself : Entries.get? "$ref" [(Visit.refKey, .str ref)] = some (.str ref) := rfl
      rw [hbare] at hds
      obtain ⟨j, hj, hshows⟩ := hds.lookup? hself
      obtain rfl := View.shows_str hshows
      have hreference : Json.reference? guide.settings.target ds = some (ref, "$ref") := by
        unfold Json.reference?
        rw [hj]
      refine ⟨fun name => (if name = "$ref" then none else Json.lookup? name ds).or (found name),
        ?_, fun name => ?_⟩
      · simp only [Json.keywords, hreference, hfind, hmore']
      · show Option.Rel view.Shows _ ((if name = "$ref" then none else Json.lookup? name ds).or _)
        split
        · exact hrel name
        · rename_i hname
          have hother : Entries.get? (.str name) [(Visit.refKey, .str ref)] = none := by
            refine Entries.get?_eq_none fun q hq => ?_
            rw [List.mem_singleton.mp hq]
            exact fun h => hname (Value.str.inj h).symm
          rw [hds.lookup?_none hother]
          exact hrel name

/-! ### Trees -/

/-- The members of a child's object show its fragment. -/
theorem stands_of_shows (h : Linked guide s links bound p c view find) {n : NodeId}
    (hn : p.has n = true) {j : Json} (hj : view.Shows (.fragment n) j) :
    ∃ ds, j = .obj ds ∧ Stands view c n ds := by
  obtain ⟨es, hes⟩ := h.keywords n hn
  obtain ⟨htexts, hdistinct⟩ := h.grounded.fragment_formed hn hes
  obtain ⟨ms, hms, rfl⟩ := View.shows_fragment hj
  rw [h.fragments] at hms
  exact ⟨_, rfl, .inr fun name => hms.rel htexts hdistinct name⟩

/-- Members that stand for nodes, and the nodes, are read as the same thing, and that has a
    property. -/
def Agree {σ : Type} (p : Survey) (view : View) (c : Survey) (P : σ → Prop)
    (sub : List (String × Json) → σ) (node : NodeId → σ) : Prop :=
  ∀ {n ds}, p.has n = true → Stands view c n ds → sub ds = node n ∧ P (node n)

section Holding

variable {σ : Type} {P : σ → Prop} {sub plain : List (String × Json) → σ} {node : NodeId → σ}

/-- What stands in place of a schema. -/
theorem placed_eq (h : Linked guide s links bound p c view find)
    (hagree : Agree p view c P sub node)
    (hplain : ∀ ms, Json.refFree .schemas (.obj ms) = true → sub ms = plain ms)
    (hall : ∀ ms, P (plain ms)) {v : Value} {j : Json}
    (hv : v.Element fun m => p.has m = true) (hj : view.Shows v j) :
    j.placed sub = v.placed node plain ∧ (v.placed node plain).All P := by
  cases hv with
  | fragment hn =>
    obtain ⟨ds, rfl, hds⟩ := h.stands_of_shows hn hj
    obtain ⟨hsame, hholds⟩ := hagree hn hds
    exact ⟨congrArg Occupant.schema hsame, hholds⟩
  | data hp hfree =>
    have hjson := View.shows_of_plain hp hj
    have hplaced : v.placed node plain = j.placed plain := by
      unfold Value.placed
      split
      · cases hp
      · rw [hjson]
    -- Data holds no reference, so that it is read as it is.
    have hsame : j.placed sub = j.placed plain := by
      cases j with
      | obj ms => exact congrArg Occupant.schema (hplain ms (hfree _ hjson))
      | _ => rfl
    rw [hplaced]
    exact ⟨hsame, Json.all_placed hall j⟩

/-- Lists of what stands in place of schemas. -/
theorem map_placed_eq (h : Linked guide s links bound p c view find)
    (hagree : Agree p view c P sub node)
    (hplain : ∀ ms, Json.refFree .schemas (.obj ms) = true → sub ms = plain ms)
    (hall : ∀ ms, P (plain ms)) {xs : List Value} {js : List Json}
    (hxs : ∀ x ∈ xs, x.Element fun m => p.has m = true) (hjs : List.Forall₂ view.Shows xs js) :
    js.map (Json.placed sub) = xs.map (Value.placed node plain) ∧
      ∀ y ∈ xs.map (Value.placed node plain), y.All P := by
  induction hjs with
  | nil => exact ⟨rfl, nofun⟩
  | cons hxy _ ih =>
    obtain ⟨hx, hrest⟩ := List.forall_mem_cons.mp hxs
    obtain ⟨hplaced, hfirst⟩ := h.placed_eq hagree hplain hall hx hxy
    obtain ⟨hsame, hothers⟩ := ih hrest
    rw [List.map_cons, List.map_cons, hplaced, hsame]
    exact ⟨rfl, List.forall_mem_cons.mpr ⟨hfirst, hothers⟩⟩

/-- **Values.** What stands under a keyword of a document, read with references followed, is
    what the value of the keyword stands for. -/
theorem held_eq (h : Linked guide s links bound p c view find)
    (hagree : Agree p view c P sub node)
    (hplain : ∀ ms, Json.refFree .schemas (.obj ms) = true → sub ms = plain ms)
    (hall : ∀ ms, P (plain ms)) {key : String} {v : Value} {j : Json}
    (hv : v.Fits (fun m => p.has m = true) key) (hj : view.Shows v j) :
    j.held sub (.of key) = v.held node plain (.of key) ∧
      (v.held node plain (.of key)).All P := by
  cases hv with
  | data hp hfree =>
    -- Data is written as it stands, and is read by the plain reader on both sides.
    have hjson := View.shows_of_plain hp hj
    have hreading : v.held node plain (.of key) = j.held plain (.of key) := by
      unfold Value.held
      rw [hjson]
    rw [hreading]
    exact ⟨Json.held_congr hplain (hfree _ hjson), Json.all_held hall _ j⟩
  | @fragment n hrole _ hn =>
    obtain ⟨ds, rfl, hds⟩ := h.stands_of_shows hn hj
    obtain ⟨hsame, hholds⟩ := hagree hn hds
    rw [hrole]
    exact ⟨congrArg (Holding.one ∘ Occupant.schema) hsame, hholds⟩
  | @list xs hrole _ hhead hxs =>
    obtain ⟨js, hjs, rfl⟩ := View.shows_list hj
    obtain ⟨hsame, hholds⟩ := h.map_placed_eq hagree hplain hall hxs hjs
    rw [hrole, Value.held_list hhead]
    exact ⟨congrArg Holding.many hsame, hholds⟩
  | @members es hrole ht hd hes =>
    obtain ⟨ms, hms, rfl⟩ := View.shows_dict hj
    have hrel := fun name => hms.rel ht hd name
    -- The properties of an object, one by one.
    have hone : ∀ name x, Entries.get? (.str name) es = some x →
        ∃ y, Json.lookup? name (Json.ofMembers ms) = some y ∧
          y.placed sub = x.placed node plain ∧ (x.placed node plain).All P := by
      intro name x hx
      obtain ⟨n, rfl, hn⟩ := hes _ (Entries.mem_of_get?_str hx)
      obtain ⟨y, hy, hshows⟩ := View.Matches.lookup? hrel hx
      exact ⟨y, hy, h.placed_eq hagree hplain hall (.fragment hn) hshows⟩
    rw [hrole, Value.held_members ht fun p hp => (hes p hp).imp fun _ h => h.1]
    refine ⟨congrArg Holding.named ?_, fun name q hq => ?_⟩
    · funext name
      cases hx : Entries.get? (.str name) es with
      | none =>
        rw [View.Matches.lookup?_none hrel hx]
        rfl
      | some x =>
        obtain ⟨y, hy, hplaced, -⟩ := hone name x hx
        rw [hy, Option.map_some, Option.map_some, hplaced]
    · obtain ⟨x, hx, rfl⟩ := Option.map_eq_some_iff.mp hq
      obtain ⟨y, -, -, hholds⟩ := hone name x hx
      exact hholds

/-- Values, read as trees. -/
theorem read_eq {sub plain : List (String × Json) → Tree} {node : NodeId → Tree}
    (h : Linked guide s links bound p c view find)
    (hagree : Agree p view c Tree.Whole sub node)
    (hplain : ∀ ms, Json.refFree .schemas (.obj ms) = true → sub ms = plain ms)
    (hwhole : ∀ ms, (plain ms).Whole) {key : String} {v : Value} {j : Json}
    (hv : v.Fits (fun m => p.has m = true) key) (hj : view.Shows v j) :
    j.read sub (.of key) = v.read node plain (.of key) ∧
      (v.read node plain (.of key)).Whole := by
  obtain ⟨hsame, hholds⟩ := h.held_eq hagree hplain hwhole hv hj
  rw [← Json.tree_held, ← Value.tree_held, hsame]
  exact ⟨rfl, hholds.whole⟩

end Holding

/-- **Unfolding.** Members that stand for a node unfold, to any depth, to the tree of the node. -/
theorem unfold_eq_lower (h : Linked guide s links bound p c view find) (hlinks : bound < links)
    {depth : Nat} {n : NodeId} {ds : List (String × Json)} (hn : p.has n = true)
    (hds : Stands view c n ds) :
    Json.unfold find guide.settings.target links depth ds = s.lower guide links depth n ∧
      (s.lower guide links depth n).Whole := by
  -- Induction on the depth: what stands under a keyword is read by readers that agree one level
  -- deeper.
  induction depth generalizing n ds with
  | zero => exact ⟨rfl, .cut⟩
  | succ depth ih =>
    obtain ⟨es, hes⟩ := h.keywords n hn
    obtain ⟨found, hfound, hrel⟩ := h.keywords_of_stands hn hes hds hlinks
    have hshaped : es.Shaped fun m => p.has m = true :=
      Store.keywords?_shaped h.grounded.suited h.grounded.edge hn hes
    have hmore := Store.keywords?_mono (le_of_lt hlinks) hes
    -- Each keyword of the node is found in the document and read as the same thing.
    have hone : ∀ (name : String) (v : Value), es.get? (.str name) = some v →
        ∃ j, found name = some j ∧
          j.read (Json.unfold find guide.settings.target links depth) (.of name)
            = v.read (s.lower guide links depth) (Json.tree depth) (.of name) ∧
          (v.read (s.lower guide links depth) (Json.tree depth) (.of name)).Whole := by
      intro name v hv
      have hname := hrel name
      rw [hv] at hname
      cases hj : found name with
      | none => rw [hj] at hname; cases hname
      | some j =>
        rw [hj] at hname
        refine ⟨j, rfl, h.read_eq (fun hn hds => ih hn hds) (fun ms hms => ?_)
          (Json.whole_tree depth) (hshaped.fits hv).2 (View.shows_of_rel hname)⟩
        exact Json.unfold_of_refFree find _ links hms
    simp only [Json.unfold, Store.lower, hfound, hmore]
    refine ⟨?_, .members fun name x hx => ?_⟩
    · rw [Tree.members.injEq]
      funext name
      cases hv : es.get? (.str name) with
      | none =>
        have hname := hrel name
        rw [hv] at hname
        cases hj : found name with
        | none => rfl
        | some j => rw [hj] at hname; cases hname
      | some v =>
        obtain ⟨j, hj, hread, -⟩ := hone name v hv
        rw [hj, Option.map_some, Option.map_some, hread]
    · obtain ⟨v, hv, rfl⟩ := Option.map_eq_some_iff.mp hx
      obtain ⟨j, -, -, hw⟩ := hone name v hv
      exact hw

end Linked

end SchemaGraph
