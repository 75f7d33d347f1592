import Mathlib
import SchemaGraph.Proofs.Document.Faithful
import SchemaGraph.Proofs.Document.Identity
import SchemaGraph.Proofs.Survey.Strata

namespace SchemaGraph

open SchemaGraph.Action Conversion Emission

/-!
# What documents accept

In a document the keywords of a node stand in strata: behind every definition whose content is
passed on there is a reference.  The dialect that reads keywords beside a reference takes both
together.  Two documents of the same node, in which different nodes became definitions, therefore
accept the same values, as long as nodes that pass content on do not interfere with the keywords
of nodes that became definitions in one of the documents only.

* `Grounded.body_strata`  — how the body of a node holds its strata
* `Linked.verdict_eq`     — what a document says is what its root says
* `Json.Accepts`, `Json.Rejects` — what a document that stands alone says in the end
* `Export.reuse_indifferent` — which nodes become definitions does not change that
* `Export.reuse_interferes`  — keywords that replace others may change it
-/

/-! ### Strata in bodies -/

/-- How a body holds strata: it has the keywords of the first one, and the reference to the
    definition that has the others. -/
inductive Layered (guide : Guide) (s : Store) (links : Nat) (p c : Survey) (steps : Nat)
    (body : Entries) : List Entries → Prop
  | single {es : Entries} (hes : es.named "$ref" = none)
      (hsame : ∀ name, body.named name = es.named name) :
      Layered guide s links p c steps body [es]
  | stacked {es : Entries} {rest : List Entries} {m : NodeId} {ref : String} {k : Nat}
      (hes : es.named "$ref" = none) (hk : k < steps) (hm : p.has m = true) (href : c.Refers m ref)
      (hrest : s.strata? guide links c.defines k m = some rest)
      (hsame : ∀ name, body.named name
        = if name = "$ref" then some (.str ref) else es.named name) :
      Layered guide s links p c steps body (es :: rest)

section Bodies

variable {guide : Guide} {s : Store} {links steps : Nat} {p c : Survey} {own body : Entries}
  {strata : List Entries} {visited : NodeId → Prop}

/-- Shaped keywords hold no reference. -/
theorem Entries.Shaped.named_ref (h : own.Shaped visited) : own.named "$ref" = none := by
  cases hget : own.named "$ref" with
  | none => rfl
  | some v => exact absurd (h.fits hget).1 (by decide)

/-- Keywords put over a body go over the first of its strata. -/
theorem Layered.merge (h : Layered guide s links p c steps body strata)
    (hown : own.Shaped visited) (hbody : body.Distinct) :
    Layered guide s links p c (steps + 1) (mergeBelow own body) (own.onTop strata) := by
  have hmerged : ∀ name, (mergeBelow own body).named name
      = (own.named name).or (body.named name) :=
    fun name => get?_mergeBelow hown.distinct hbody _
  have hover : ∀ (es : Entries) name,
      (es.update own).named name = (own.named name).or (es.named name) :=
    fun es name => Entries.get?_update hown.distinct _ _
  have href := hown.named_ref
  cases h with
  | single hes hsame =>
    refine .single ?_ fun name => ?_
    · rw [hover, href, hes, Option.or_none]
    · rw [hmerged, hover, hsame]
  | stacked hes hk hm hrefers hrest hsame =>
    -- The reference behind stays: no keyword of the node itself is called `$ref`.
    refine .stacked ?_ (Nat.lt_succ_of_lt hk) hm hrefers hrest fun name => ?_
    · rw [hover, href, hes, Option.or_none]
    · rw [hmerged, hover, hsame]
      by_cases hname : name = "$ref"
      · rw [hname, href, if_pos rfl, if_pos rfl, Option.none_or]
      · rw [if_neg hname, if_neg hname]

/-- Keywords put over a bare reference are a stratum of their own. -/
theorem Layered.of_bare {m : NodeId} {ref : String} (hm : p.has m = true)
    (hrefers : c.Refers m ref) (hrest : s.strata? guide links c.defines steps m = some strata)
    (hown : own.Shaped visited) :
    Layered guide s links p c (steps + 1) (mergeBelow own [(Visit.refKey, .str ref)])
      (own :: strata) := by
  have hbare : Entries.Distinct [(Visit.refKey, .str ref)] := List.pairwise_singleton _ _
  have href := hown.named_ref
  refine .stacked href (Nat.lt_succ_self steps) hm hrefers hrest fun name => ?_
  have hmerged : (mergeBelow own [(Visit.refKey, .str ref)]).named name
      = (own.named name).or (Entries.named [(Visit.refKey, .str ref)] name) :=
    get?_mergeBelow hown.distinct hbare _
  rw [hmerged]
  by_cases hname : name = "$ref"
  · rw [hname, href, if_pos rfl]
    rfl
  · have hother : Entries.named [(Visit.refKey, .str ref)] name = none := by
      refine Entries.get?_eq_none fun q hq => ?_
      rw [List.mem_singleton.mp hq]
      exact fun h => hname (Value.str.inj h).symm
    rw [if_neg hname, hother, Option.or_none]

end Bodies

namespace Grounded

variable {guide : Guide} {s : Store} {links : Nat} {p c : Survey}

/-- The fragment of a node is its body, unless the node is a definition. -/
theorem fragment_of_defines (h : Grounded guide s links p c) {n : NodeId} (hn : p.has n = true) :
    c.defines n = false ∧ c.fragment n = c.body n ∨
      c.defines n = true ∧ ∃ ref, c.Refers n ref ∧ c.fragment n = [(Visit.refKey, .str ref)] := by
  obtain ⟨v, hv⟩ := Survey.visit?_of_has hn
  obtain ⟨w, hw, hbecame⟩ := h.compiled hv
  have hdefines : c.defines n = w.definition.isSome := by
    rw [Survey.defines, hw, Option.bind_some]
  have hfragment : c.fragment n = w.fragment := by
    simp [Survey.fragment, hw]
  rw [hdefines, hfragment]
  rcases hbecame.fragment with hnone | ⟨hsome, ref, href⟩
  · refine .inl ⟨by rw [hnone]; rfl, ?_⟩
    simp [Survey.body, Visit.body, hw, hnone]
  · exact .inr ⟨hsome, ref, ⟨w, hw, hsome, href⟩, href⟩

/-- **Bodies in strata.** The body of a compiled node holds the strata of the node, where the
    definitions stand apart. -/
theorem body_layered (h : Grounded guide s links p c)
    (htarget : guide.settings.target = .draft2020) {steps : Nat} {n : NodeId}
    (hn : p.has n = true) {strata : List Entries}
    (hstrata : s.strata? guide links c.defines steps n = some strata) :
    (c.body n).Distinct ∧ Layered guide s links p c steps (c.body n) strata := by
  have hsingle : ∀ {n v} (k : Nat), p.has n = true → s.contents? guide links n = some v →
      v.target = none → (c.body n).Distinct ∧ Layered guide s links p c k (c.body n) [v.fragment] := by
    intro n v k hn hv ht
    obtain ⟨hshaped, -, hbody⟩ := h.visit hn hv
    rw [ht] at hbody
    rw [hbody]
    exact ⟨hshaped.distinct, .single hshaped.named_ref fun _ => rfl⟩
  -- Induction on the steps: each of them takes the first stratum of the node behind it, merged or
  -- behind a reference.
  induction steps generalizing n strata with
  | zero =>
    obtain ⟨v, hv, ⟨ht, rfl⟩ | ⟨t, steps', below, -, hsteps, -⟩⟩ := Store.strata?_cases hstrata
    · exact hsingle 0 hn hv ht
    · omega
  | succ steps ih =>
    obtain ⟨v, hv, ⟨ht, rfl⟩ | ⟨t, steps', below, ht, hsteps, hbelow, rfl⟩⟩ :=
      Store.strata?_cases hstrata
    · exact hsingle _ hn hv ht
    obtain rfl : steps = steps' := by omega
    have hvisited := h.edge n t hn (Store.passes_of_contents? hv ht).edge
    obtain ⟨hshaped, -, hbody⟩ := h.visit hn hv
    -- In this dialect nothing is asked for besides.
    have hinherited : ∀ es, inherited guide.settings.target v.fragment t es
        = mergeBelow v.fragment es := by
      intro es
      unfold inherited
      rw [if_neg]
      rintro ⟨-, holder⟩
      rw [htarget] at holder
      cases holder
    simp only [ht, hinherited] at hbody
    rw [hbody]
    have hdistinct : ∀ es, (mergeBelow v.fragment es).Distinct :=
      fun es => (hshaped.distinct.update es).update v.fragment
    refine ⟨hdistinct _, ?_⟩
    obtain ⟨hbehind, hlayered⟩ := ih hvisited hbelow
    rcases h.fragment_of_defines hvisited with ⟨hdefines, hsame⟩ | ⟨hdefines, ref, href, hbare⟩
    · rw [hdefines, hsame, if_neg Bool.false_ne_true]
      exact hlayered.merge hshaped hbehind
    · rw [hdefines, hbare, if_pos rfl]
      exact .of_bare hvisited href hbelow hshaped

end Grounded

/-! ### Strata in documents -/

namespace Json

/-- Without one member, the others are found as before. -/
theorem lookup?_filter_ne {name other : String} (ms : List (String × Json)) :
    lookup? name (ms.filter fun m => m.1 ≠ other)
      = if name = other then none else lookup? name ms := by
  induction ms with
  | nil => simp [lookup?]
  | cons m rest ih =>
    obtain ⟨key, j⟩ := m
    by_cases hkey : key = other
    · rw [List.filter_cons_of_neg (by simpa using hkey), ih]
      by_cases hname : name = other
      · rw [if_pos hname, if_pos hname]
      · rw [if_neg hname, if_neg hname, lookup?, if_neg (fun h => hname (h.symm.trans hkey))]
    · rw [List.filter_cons_of_pos (by simpa using hkey), lookup?, lookup?, ih]
      by_cases hname : name = other
      · rw [if_pos hname, if_pos hname, if_neg (fun h => hkey (h.trans hname))]
      · rw [if_neg hname, if_neg hname]

end Json

namespace Linked

variable {guide : Guide} {s : Store} {links bound : Nat} {p c : Survey} {view : View}
  {find : String → Option (List (String × Json))}

/-- **Segments.** Members that show the body of a node have its strata as segments. -/
theorem segments_of_body (h : Linked guide s links bound p c view find)
    (htarget : guide.settings.target = .draft2020) {steps : Nat} {n : NodeId}
    (hn : p.has n = true) {strata : List Entries}
    (hstrata : s.strata? guide links c.defines steps n = some strata)
    {ds : List (String × Json)} (hds : view.Matches (c.body n) ds) :
    ∃ segments, Json.segments find steps ds = some segments ∧
      List.Forall₂ view.Matches strata segments := by
  induction steps using Nat.strong_induction_on generalizing n strata ds with
  | h steps ih =>
    obtain ⟨-, hlayered⟩ := h.grounded.body_layered htarget hn hstrata
    cases hlayered with
    | @single es hes hsame =>
      have hmatches : view.Matches es ds := by
        intro name
        rw [← Entries.named, ← hsame]
        exact hds name
      have hnone : Json.reference? .draft2020 ds = none := by
        unfold Json.reference?
        rw [hmatches.lookup?_none hes]
      exact ⟨_, Json.segments_of_reference?_none hnone, .cons hmatches .nil⟩
    | @stacked es rest m ref k hes hk hm href hrest hsame =>
      obtain ⟨steps, rfl⟩ : ∃ j, steps = j + 1 := ⟨steps - 1, by omega⟩
      obtain ⟨ds', hfind, hds'⟩ := h.leads m ref hm href
      obtain ⟨segments, hsegments, hall⟩ := ih k hk hm hrest hds'
      have hmore := Json.segments_mono (Nat.le_of_lt_succ hk) hsegments
      -- the members but for the reference are the first stratum
      have hself : (c.body n).get? "$ref" = some (.str ref) := (hsame "$ref").trans (if_pos rfl)
      obtain ⟨j, hj, hshows⟩ := hds.lookup? hself
      obtain rfl := View.shows_str hshows
      have hreference : Json.reference? .draft2020 ds = some (ref, "$ref") := by
        unfold Json.reference?
        rw [hj]
      refine ⟨ds.filter (fun m => m.1 ≠ "$ref") :: segments, ?_, .cons (fun name => ?_) hall⟩
      · simp only [Json.segments, hreference, hfind, hmore]
      · rw [Json.lookup?_filter_ne]
        by_cases hname : name = "$ref"
        · rw [if_pos hname, hname, ← Entries.named, hes]
          exact .none
        · have hbody := hsame name
          rw [if_neg hname] at hbody
          rw [if_neg hname, ← Entries.named, ← hbody]
          exact hds name

/-- Members that stand for a node have its strata as segments, maybe behind an empty one. -/
theorem segments_of_stands (h : Linked guide s links bound p c view find)
    (htarget : guide.settings.target = .draft2020) {n : NodeId} (hn : p.has n = true)
    {strata : List Entries} (hstrata : s.strata? guide links c.defines bound n = some strata)
    {ds : List (String × Json)} (hds : Stands view c n ds) {more : Nat} (hmore : bound < more) :
    ∃ segments, List.Forall₂ view.Matches strata segments ∧
      (Json.segments find more ds = some segments ∨
        Json.segments find more ds = some ([] :: segments)) := by
  have hbody : ∀ {ds}, view.Matches (c.body n) ds →
      ∃ segments, List.Forall₂ view.Matches strata segments ∧
        (Json.segments find more ds = some segments ∨
          Json.segments find more ds = some ([] :: segments)) := by
    intro ds hds
    obtain ⟨segments, hsegments, hall⟩ := h.segments_of_body htarget hn hstrata hds
    exact ⟨segments, hall, .inl (Json.segments_mono (le_of_lt hmore) hsegments)⟩
  rcases hds with hds | hds
  · exact hbody hds
  rcases h.grounded.fragment_of_defines hn with ⟨-, hsame⟩ | ⟨-, ref, href, hbare⟩
  · exact hbody (hsame ▸ hds)
  -- a bare reference costs one more link
  obtain ⟨more, rfl⟩ : ∃ k, more = k + 1 := ⟨more - 1, by omega⟩
  obtain ⟨ds', hfind, hds'⟩ := h.leads n ref hn href
  obtain ⟨segments, hsegments, hall⟩ := h.segments_of_body htarget hn hstrata hds'
  have hsegments' := Json.segments_mono (Nat.le_of_lt_succ hmore) hsegments
  rw [hbare] at hds
  have hself : Entries.get? "$ref" [(Visit.refKey, .str ref)] = some (.str ref) := rfl
  obtain ⟨j, hj, hshows⟩ := hds.lookup? hself
  obtain rfl := View.shows_str hshows
  have hreference : Json.reference? .draft2020 ds = some (ref, "$ref") := by
    unfold Json.reference?
    rw [hj]
  have hempty : ds.filter (fun m => m.1 ≠ "$ref") = [] := by
    rw [List.eq_nil_iff_forall_not_mem]
    rintro ⟨name, j'⟩ hmem
    have hne : name ≠ "$ref" := by simpa using (List.mem_filter.mp hmem).2
    have hother : Entries.get? (.str name) [(Visit.refKey, .str ref)] = none := by
      refine Entries.get?_eq_none fun q hq => ?_
      rw [List.mem_singleton.mp hq]
      exact fun h => hne (Value.str.inj h).symm
    have hnone := hds.lookup?_none hother
    have hsome := Json.mem_names_iff.mp (List.mem_map_of_mem (f := (·.1)) (List.mem_filter.mp hmem).1)
    rw [hnone] at hsome
    cases hsome
  refine ⟨segments, hall, .inr ?_⟩
  simp only [Json.segments, hreference, hfind, hsegments', hempty]

/-! ### Verdicts -/

variable {D : Dialect}

/-- The keywords of a segment hold what those of its stratum hold, if the schemas in them do. -/
theorem keywordsOf_eq (h : Linked guide s links bound p c view find)
    {sub plain : List (String × Json) → Json → Verdict} {node : NodeId → Json → Verdict}
    (hagree : Agree p view c (fun _ => True) sub node)
    (hplain : ∀ ms, Json.refFree .schemas (.obj ms) = true → sub ms = plain ms)
    {es : Entries} (hes : es.Shaped fun m => p.has m = true) {ds : List (String × Json)}
    (hds : view.Matches es ds) :
    Json.keywordsOf sub ds = es.keywordsOf fun name => Value.held node plain (.of name) := by
  funext name
  unfold Json.keywordsOf Entries.keywordsOf Entries.named
  cases hv : es.get? (.str name) with
  | none =>
    rw [hds.lookup?_none hv]
    rfl
  | some v =>
    obtain ⟨j, hj, hshows⟩ := hds.lookup? hv
    have hheld := h.held_eq (P := fun _ => True) hagree hplain (fun _ => trivial) (hes.fits hv).2
      hshows
    rw [hj, Option.map_some, Option.map_some, hheld.1]

/-- Segments say what their strata say. -/
theorem exists_finds_iff {sub : List (String × Json) → Json → Verdict}
    {f : String → Value → Holding (Json → Verdict)} {strata : List Entries}
    {segments : List (List (String × Json))} (hall : List.Forall₂ view.Matches strata segments)
    (hsame : ∀ es ∈ strata, ∀ ds, view.Matches es ds →
      Json.keywordsOf sub ds = es.keywordsOf f) {x : Json} {v : Verdict} :
    (∃ ds ∈ segments, D.Finds (Json.keywordsOf sub ds) x v) ↔
      ∃ es ∈ strata, D.Finds (es.keywordsOf f) x v := by
  induction hall with
  | nil => simp
  | cons hds _ ih =>
    obtain ⟨hfirst, hrest⟩ := List.forall_mem_cons.mp hsame
    rw [List.exists_mem_cons_iff, List.exists_mem_cons_iff, hfirst _ hds, ih hrest]

/-- **Verdicts.** Members that stand for a node say, looked into to any depth, what the node says,
    even if fewer nodes stand apart there than are definitions. -/
theorem verdict_eq (h : Linked guide s links bound p c view find)
    (htarget : guide.settings.target = .draft2020) (hlinks : bound < links)
    {fewer : NodeId → Bool} (hle : ∀ m, fewer m = true → c.defines m = true)
    (hindependent : ∀ n m, p.has n = true →
      Relation.TransGen (s.Passes guide.settings.side) n m → c.defines m = true →
      fewer m = false → s.Independent D guide fewer n m)
    {depth : Nat} {n : NodeId} {ds : List (String × Json)} (hn : p.has n = true)
    (hds : Stands view c n ds) :
    Json.verdict D find links depth ds = s.verdict D guide links fewer depth n := by
  induction depth generalizing n ds with
  | zero => rfl
  | succ depth ih =>
    obtain ⟨es, hes⟩ := h.keywords n hn
    obtain ⟨strata, hstrata⟩ := Store.exists_strata? c.defines hes
    obtain ⟨others, hothers⟩ := Store.exists_strata? fewer hes
    obtain ⟨segments, hall, hsegments⟩ := h.segments_of_stands htarget hn hstrata hds hlinks
    have hrefines := Store.strata?_refines (D := D) h.grounded.suited h.grounded.edge hle
      hindependent hn hstrata hothers
    have hmore := Store.strata?_mono (le_of_lt hlinks) hothers
    have hshaped := Store.strata?_shaped h.grounded.suited h.grounded.edge hn hstrata
    funext x
    -- what the segments find is what the strata find, and these may be separated otherwise
    have hfinds : ∀ v, (∃ ds ∈ segments,
        D.Finds (Json.keywordsOf (Json.verdict D find links depth) ds) x v) ↔
          ∃ es ∈ others, D.Finds (es.keywordsOf fun name =>
            Value.held (s.verdict D guide links fewer depth)
              (Json.verdict D (fun _ => none) 0 depth) (.of name)) x v := by
      intro v
      rw [← hrefines.sound _ x v]
      refine exists_finds_iff hall fun es hes ds hds => ?_
      refine h.keywordsOf_eq (fun hn hds => ⟨ih hn hds, trivial⟩) (fun ms hms => ?_)
        (hshaped es hes) hds
      exact Json.verdict_of_refFree hms
    have hempty : D.findings (([] : List (String × Json)).map (·.1))
        (Json.keywordsOf (Json.verdict D find links depth) []) x = [] := rfl
    have hverdict : Json.verdict D find links (depth + 1) ds x
        = .all (segments.flatMap fun segment => D.findings (segment.map (·.1))
            (Json.keywordsOf (Json.verdict D find links depth) segment) x) := by
      rcases hsegments with hsegments | hsegments
      · simp only [Json.verdict, hsegments]
      · simp only [Json.verdict, hsegments, List.flatMap_cons, hempty, List.nil_append]
    rw [hverdict, Store.verdict, hmore]
    refine Verdict.all_congr fun v => ?_
    simp only [List.mem_flatMap, Json.mem_findings_keywordsOf, Entries.mem_findings_keywordsOf]
    exact hfinds v

end Linked

/-! ### Documents -/

namespace Json

/-- What a document that stands alone says about a value, as deep as is looked: what its root
    says, with the references into the document followed. -/
def judge (D : Dialect) (links depth : Nat) (doc : Json) : Json → Verdict :=
  verdict D (doc.inside? .draft2020) links depth (doc.content .draft2020)

/-- A document accepts a value: so it is said however deep one looks, from some depth on. -/
def Accepts (D : Dialect) (doc x : Json) : Prop :=
  ∃ bound, ∀ links depth, bound ≤ links → bound ≤ depth → doc.judge D links depth x = .accepted

/-- A document rejects a value: so it is said however deep one looks, from some depth on. -/
def Rejects (D : Dialect) (doc x : Json) : Prop :=
  ∃ bound, ∀ links depth, bound ≤ links → bound ≤ depth → doc.judge D links depth x = .rejected

/-- What is said from some depth on is said in the end. -/
theorem eventually_judge {D : Dialect} {doc x : Json} {v : Verdict} (bound : Nat)
    (h : ∀ links depth, doc.judge D (links + bound) (depth + bound) x = v) :
    ∃ bound, ∀ links depth, bound ≤ links → bound ≤ depth → doc.judge D links depth x = v := by
  refine ⟨bound, fun links depth hlinks hdepth => ?_⟩
  rw [← Nat.sub_add_cancel hlinks, ← Nat.sub_add_cancel hdepth]
  exact h _ _

/-- No document rejects what it accepts. -/
theorem Rejects.not_accepts {D : Dialect} {doc x : Json} (h : doc.Rejects D x) :
    ¬ doc.Accepts D x := by
  rintro ⟨k, hk⟩
  obtain ⟨b, hb⟩ := h
  have haccepted := hk (max k b) (max k b) (le_max_left k b) (le_max_left k b)
  rw [hb (max k b) (max k b) (le_max_right k b) (le_max_right k b)] at haccepted
  cases haccepted

/-- Documents that say the same, as soon as enough references are followed, accept and reject the
    same values. -/
theorem accepts_iff {D : Dialect} {doc other : Json} {b : Nat}
    (h : ∀ links, b ≤ links → ∀ depth, doc.judge D links depth = other.judge D links depth)
    (x : Json) : (doc.Accepts D x ↔ other.Accepts D x) ∧ (doc.Rejects D x ↔ other.Rejects D x) := by
  have heventually : ∀ {v} {doc other : Json}, (∀ links, b ≤ links → ∀ depth,
      doc.judge D links depth = other.judge D links depth) →
      (∃ k, ∀ links depth, k ≤ links → k ≤ depth → doc.judge D links depth x = v) →
      ∃ k, ∀ links depth, k ≤ links → k ≤ depth → other.judge D links depth x = v := by
    rintro v doc other hsame ⟨k, hk⟩
    refine ⟨max b k, fun links depth hlinks hdepth => ?_⟩
    rw [← hsame links (le_trans (le_max_left b k) hlinks)]
    exact hk links depth (le_trans (le_max_right b k) hlinks)
      (le_trans (le_max_right b k) hdepth)
  have hback := fun links hle depth => (h links hle depth).symm
  exact ⟨⟨heventually h, heventually hback⟩, ⟨heventually h, heventually hback⟩⟩

end Json

namespace Converter.Stands

variable {conv : Converter} {policy : EmissionSettings} {root : NodeId} {store s : Store}
  {p d c : Conversion} {doc : Json} {D : Dialect} {fewer : NodeId → Bool}

/-- A document that stands alone says what its root says, even if fewer nodes stand apart there
    than are definitions. -/
theorem judge_eq (hs : store.Closed) (h : conv.Stands policy root store p d c doc)
    (hoverride : conv.override = none) (htarget : conv.guide.settings.target = .draft2020)
    (hfresh : p.survey.Fresh conv.guide s)
    (hunlisted : ∀ n es, p.survey.has n = true → s.Supplied conv.guide.catalog n es →
      ∀ x, (.str "$defs", x) ∉ es)
    (hapart : Apart "__schema" (s.ownId conv.guide.catalog) c.Identified)
    (hplain : ∀ n id, c.Identified n → s.ownId conv.guide.catalog n = .str id →
      '/' ∉ id.toList ∧ '~' ∉ id.toList)
    (hle : ∀ m, fewer m = true → c.survey.defines m = true)
    (hindependent : ∀ n m, p.survey.has n = true →
      Relation.TransGen (s.Passes conv.guide.settings.side) n m → c.survey.defines m = true →
      fewer m = false → s.Independent D conv.guide fewer n m) {links bound : Nat}
    (hcontents : ∀ n v, p.survey.visit? n = some v →
      ∃ w, s.contents? conv.guide links n = some w ∧ w.content = v.content)
    (hkeywords : ∀ n, p.survey.has n = true →
      ∃ es, s.keywords? conv.guide links bound n = some es)
    (hlinks : bound < links) (depth : Nat) :
    doc.judge D links depth = s.verdict D conv.guide links fewer depth root := by
  have hcomposed := (hoist_settle_composes hoverride hfresh rfl).of_returns h.settled
  have haddressable : d.survey.Addressable := by
    refine addressable_of_hoist_settle hfresh.toIntact (h.nodup hs) (h.apart hs hapart)
      (fun n id hn => ?_) h.settled
    refine hplain n id ?_
    unfold Identified at hn ⊢
    rwa [h.survey]
  have hkeyword : (conv.emission policy root).target.definitionsKeyword = "$defs" := by
    show conv.guide.settings.target.definitionsKeyword = "$defs"
    rw [htarget]
    rfl
  obtain ⟨hlinked, hcontent⟩ := hcomposed.linked hfresh rfl (h.visited hs) (h.alone hs)
    (fun n es hn hes => hkeyword ▸ hunlisted n es hn hes) haddressable h.stop h.shows hcontents
    hkeywords
  rw [show (conv.emission policy root).target = .draft2020 from htarget] at hlinked hcontent
  rw [h.survey] at hle hindependent
  exact hlinked.verdict_eq htarget hlinks hle hindependent (h.visited hs) (.inl hcontent)

end Converter.Stands

/-- **Reuse.** Whenever a node is converted twice, with settings that differ only in which nodes
    become definitions, the two documents accept the same values and reject the same values, in
    every dialect in which keywords beside a reference count.

    Where a node passes on the content of another one that became a definition in one of the
    documents only, its own keywords must be independent of those that it passes on.  Besides,
    annotations and custom lowerings must supply data without references and without a table of
    definitions, content must not be passed on in a circle, and the ids that they supply for
    definitions must be texts that can be told apart and stand in pointers. -/
theorem Export.reuse_indifferent (D : Dialect) (x y : Export) (hx : x.override = none)
    (hy : y.override = none) (hannotations : y.annotations = x.annotations)
    {settings settings' : ExportSettings} (hsettings : x.settings = .ok settings)
    (hsettings' : y.settings = .ok settings') (hlowering : settings'.lowering = settings.lowering)
    (htarget : settings.lowering.target = .draft2020) {store : Store} (hs : store.Closed)
    {root : NodeId} {doc doc' : Json} {c c' : Conversion}
    (h : Returns (x.convert root) (start store) doc c)
    (h' : Returns (y.convert root) (start store) doc' c') :
    let catalog := x.annotations.getD "global"
    let guide : Guide := { settings := settings.lowering, catalog }
    let named := fun n => c.Identified n ∨ c'.Identified n
    let common := fun n => c.survey.defines n && c'.survey.defines n
    (∀ n, c.survey.has n = true → c.store.Suited catalog n) →
    (∀ n es, c.survey.has n = true → c.store.Supplied catalog n es →
      ∀ v, (.str "$defs", v) ∉ es) →
    (∀ n, ¬ Relation.TransGen (c.store.Passes settings.lowering.side) n n) →
    Apart "__schema" (c.store.ownId catalog) named →
    (∀ n id, named n → c.store.ownId catalog n = .str id →
      '/' ∉ id.toList ∧ '~' ∉ id.toList) →
    (∀ n m, c.survey.has n = true →
      Relation.TransGen (c.store.Passes settings.lowering.side) n m →
      c.survey.defines m ≠ c'.survey.defines m → c.store.Independent D guide common n m) →
    ∀ value, (doc.Accepts D value ↔ doc'.Accepts D value) ∧
      (doc.Rejects D value ↔ doc'.Rejects D value) := by
  intro catalog guide named common hsuited hunlisted hacyclic hapart hplain hindependent
  obtain ⟨p, d, hstands⟩ := x.convert_stands hsettings hs h
  obtain ⟨p', d', hstands'⟩ := y.convert_stands hsettings' hs h'
  -- both conversions begin with the same descent
  have hconv : y.converter settings' (y.annotations.getD "global")
      = x.converter settings catalog := by
    unfold Export.converter
    rw [hlowering, hannotations, hx, hy]
  rw [hconv] at hstands'
  obtain rfl : p = p' := (Returns.unique hstands.begun hstands'.begun).2
  have hfresh : p.survey.Fresh guide c.store :=
    { hstands.intact hs with
      suited := fun n hn => hsuited n ((hstands.has n).trans hn)
      undemanding := fun holder => by
        rw [show guide.settings.target = .draft2020 from htarget] at holder
        cases holder
      acyclic := hacyclic }
  have hclosed : c.store.Closed := by
    obtain ⟨p', hexplores, -, hrewrites, -⟩ := hstands.descent hs
    have hp' := (hexplores.descends.store (Converter.start_closed hs)).2
    have hcomposed := (hoist_settle_composes hx hfresh rfl).of_returns hstands.settled
    exact hstands.behind.closed (hcomposed.rewrites.closed (hrewrites.closed hp'))
  obtain ⟨bound, hbound⟩ := hfresh.explored.exists_keywords? hclosed hacyclic
  intro value
  refine Json.accepts_iff (b := bound + 1) (fun links hlinks depth => ?_) value
  obtain ⟨hcontents, hkeywords⟩ := hbound links (by omega)
  have hhas : ∀ {n}, p.survey.has n = true → c.survey.has n = true :=
    fun hn => (hstands.has _).trans hn
  have hunlisted' : ∀ n es, p.survey.has n = true → c.store.Supplied guide.catalog n es →
      ∀ v, (.str "$defs", v) ∉ es := fun n es hn => hunlisted n es (hhas hn)
  -- both documents say what the root says where only the common definitions stand apart
  have hleft : doc.judge D links depth = c.store.verdict D guide links common depth root := by
    refine hstands.judge_eq hs hx htarget hfresh hunlisted'
      ⟨fun n hn => hapart.text n (.inl hn), fun n m hn hm => hapart.one n m (.inl hn) (.inl hm)⟩
      (fun n id hn => hplain n id (.inl hn)) (fun m hm => (Bool.and_eq_true_iff.mp hm).1)
      (fun n m hn hpasses hdefines hfewer => ?_) hcontents hkeywords (by omega) depth
    refine hindependent n m (hhas hn) hpasses fun hsame => ?_
    have hboth : (c.survey.defines m && c'.survey.defines m) = false := hfewer
    rw [← hsame, hdefines] at hboth
    cases hboth
  have hright : doc'.judge D links depth = c.store.verdict D guide links common depth root := by
    refine hstands'.judge_eq hs hx htarget hfresh hunlisted'
      ⟨fun n hn => hapart.text n (.inr hn), fun n m hn hm => hapart.one n m (.inr hn) (.inr hm)⟩
      (fun n id hn => hplain n id (.inr hn)) (fun m hm => (Bool.and_eq_true_iff.mp hm).2)
      (fun n m hn hpasses hdefines hfewer => ?_) hcontents hkeywords (by omega) depth
    refine hindependent n m (hhas hn) hpasses fun hsame => ?_
    have hboth : (c.survey.defines m && c'.survey.defines m) = false := hfewer
    rw [hsame, hdefines] at hboth
    cases hboth
  rw [hleft, hright]

/-! ### Lengths -/

/-- A dialect that knows the least length of texts and the leading items of lists.  To it, all
    other keywords are annotations. -/
def lengths : Dialect where
  reads name := if name = "minLength" ∨ name = "prefixItems" then [name] else []
  judge name keywords x :=
    if name = "minLength" then
      match keywords name, x with
      | some (.one (.data (.int least))), .str text =>
        if least ≤ text.length then .accepted else .rejected
      | _, _ => .accepted
    else if name = "prefixItems" then
      match keywords name, x with
      | some (.many schemas), .arr xs => .all ((schemas.zip xs).map fun (schema, x) =>
          match schema with
          | .schema judge => judge x
          | _ => .accepted)
      | _, _ => .accepted
    else .accepted
  judge_congr {name f g} h := by
    funext x
    by_cases hlength : name = "minLength"
    · have hsame := h name (by simp [hlength])
      simp only [hlength] at hsame ⊢
      rw [hsame]
    · by_cases hitems : name = "prefixItems"
      · have hsame := h name (by simp [hitems])
        simp only [hitems] at hsame ⊢
        rw [hsame]
      · simp [hlength, hitems]

/-- A text of five characters at least, and the same text again, which cannot be changed. -/
def textPair : Store where
  nodes := [{ kind := .string, constraints := { minimum := .int 5 } },
    { kind := .readonly, inner := .node 0 }, { kind := .tuple, items := [.node 0, .node 1] }]

/-- The conversions of the pair: with all that is reused in place, and as definitions. -/
def textPairConverted : (Except Failure Json × Conversion) × (Except Failure Json × Conversion) :=
  (({} : Export).convert (.node 2) (start textPair),
    referring.convert (.node 2) (start textPair))

/-- To the text that it passes on, the second of the pair adds that it cannot be changed. -/
theorem textPair_added {s : Store} (hnodes : s.nodes = textPair.nodes)
    (hnotes : (s.catalog "global").entries = []) {links : Nat} {v : Visit}
    (h : s.contents? {} links (.node 1) = some v) :
    v.fragment = [(.str "readOnly", .bool true)] := by
  have hn : s.node? (.node 1) = some { kind := .readonly, inner := .node 0 } := by
    rw [Store.node?, hnodes]
    rfl
  have hnote : (s.catalog ({} : Guide).catalog).get? (.node 1) = none := by
    show Catalog.find? _ (s.catalog "global").entries = none
    rw [hnotes]
    rfl
  unfold Store.contents? at h
  rw [hn, hnote] at h
  cases h
  rfl

/-- The two documents of the pair accept the same values, although the text became a definition in
    one of them. -/
theorem Export.reuse_indifferent_textPair :
    ∃ doc doc' c c', Returns (({} : Export).convert (.node 2)) (start textPair) doc c ∧
      Returns (referring.convert (.node 2)) (start textPair) doc' c' ∧
      c.survey.defines (.node 0) = false ∧ c'.survey.defines (.node 0) = true ∧
      ∀ value, (doc.Accepts lengths value ↔ doc'.Accepts lengths value) ∧
        (doc.Rejects lengths value ↔ doc'.Rejects lengths value) := by
  have hclosed : textPair.Closed :=
    .of_forall (by decide) (List.forall_mem_nil _) (List.forall_mem_nil _)
  have hnodes : textPairConverted.1.2.store.nodes = textPair.nodes := by decide +kernel
  have hnotes : (textPairConverted.1.2.store.catalog "global").entries = [] := by decide +kernel
  have hdefines : textPairConverted.1.2.survey.defines (.node 0) = false ∧
      textPairConverted.2.2.survey.defines (.node 0) = true := by decide +kernel
  obtain ⟨doc, h⟩ : ∃ doc, Returns (({} : Export).convert (.node 2)) (start textPair) doc
      textPairConverted.1.2 := exists_returns (by decide +kernel)
  obtain ⟨doc', h'⟩ : ∃ doc, Returns (referring.convert (.node 2)) (start textPair) doc
      textPairConverted.2.2 := exists_returns (by decide +kernel)
  generalize textPairConverted.1.2 = c at hnodes hnotes hdefines h
  generalize textPairConverted.2.2 = c' at hdefines h'
  have hplain : ∀ node ∈ c.store.nodes, node.Plain ∧ node.lowering = .null := by
    rw [hnodes]
    decide
  have hunlowered : ∀ node ∈ c.store.nodes, node.lowering = .null :=
    fun node hn => (hplain node hn).2
  have hunsupplied : ∀ n es, ¬ c.store.Supplied "global" n es :=
    fun n es => Store.not_supplied hunlowered hnotes
  have hown : ∀ n, c.store.ownId "global" n = .null :=
    fun n => Store.ownId_eq_null hunlowered hnotes
  have hunnamed : ∀ n, ¬ (c.store.ownId "global" n).isTruthy = true := by
    intro n
    rw [hown]
    decide
  -- only the second node passes content on
  have hpasses : ∀ n m, c.store.Passes .output n m → n = .node 1 ∧ m = .node 0 := by
    intro n m hpass
    obtain ⟨node, lead, hn, hlead, hm⟩ := hpass
    cases n with
    | gap => cases hn
    | node i =>
      rw [Store.node?, hnodes] at hn
      rcases i with _ | _ | _ | i
      · cases hn; cases hlead
      · cases hn; cases hlead; cases hm; exact ⟨rfl, rfl⟩
      · cases hn; cases hlead
      · cases hn
  refine ⟨doc, doc', c, c', h, h', hdefines.1, hdefines.2, ?_⟩
  refine Export.reuse_indifferent lengths {} referring rfl rfl rfl rfl rfl rfl rfl hclosed h h'
    (fun n _ => ⟨fun node hn => ?_, fun es hes => (hunsupplied n es hes).elim⟩)
    (fun n es _ hes => (hunsupplied n es hes).elim) ?_
    ⟨fun n _ htruthy => ?_, fun n m _ _ htruthy => ?_⟩ (fun n id _ hid => ?_) fun n m _ hm _ => ?_
  · cases n with
    | gap => cases hn
    | node i => exact (hplain node (List.mem_of_getElem? hn)).1
  · refine Store.acyclic_of_rank (fun n => if n = .node 1 then 1 else 0) fun n m hm => ?_
    obtain ⟨rfl, rfl⟩ := hpasses n m hm
    decide
  · exact absurd htruthy (hunnamed n)
  · exact absurd htruthy (hunnamed n)
  · cases (hown n).symm.trans hid
  · obtain ⟨k, hk, -⟩ := Relation.TransGen.head'_iff.mp hm
    obtain ⟨rfl, -⟩ := hpasses n k hk
    intro links steps v es rest hv _
    rw [textPair_added hnodes hnotes hv]
    refine .of_unread fun r hr => ?_
    have hkey : r = "readOnly" := by
      by_contra hne
      have hnone : Entries.named [(.str "readOnly", .bool true)] r = none := by
        refine Entries.get?_eq_none fun q hq => ?_
        rw [List.mem_singleton.mp hq]
        exact fun h => hne (Value.str.inj h).symm
      rw [hnone] at hr
      cases hr
    subst hkey
    refine ⟨rfl, fun name _ hname => ?_⟩
    simp only [lengths] at hname
    split at hname
    · rename_i hreads
      obtain rfl := List.mem_singleton.mp hname
      revert hreads
      decide
    · cases hname

/-- The pair of texts, the second of which is annotated to be shorter. -/
def laxPair : Store :=
  { textPair with
    catalogs := [("global", { entries := [(.node 1, [(.str "minLength", .int 1)])] })] }

/-- The conversions of the lax pair: with all that is reused in place, and as definitions. -/
def laxPairConverted : (Except Failure Json × Conversion) × (Except Failure Json × Conversion) :=
  (({} : Export).convert (.node 2) (start laxPair), referring.convert (.node 2) (start laxPair))

/-- The document of a conversion. -/
def returned (result : Except Failure Json × Conversion) : Json := result.1.toOption.getD .null

/-- An action that succeeds returns what it has returned. -/
theorem returns_returned {a : Action Conversion Json} {c : Conversion}
    (h : (a c).1.isOk = true) : Returns a c (returned (a c)) (a c).2 := by
  unfold Returns returned
  cases ha : a c with
  | mk result d =>
    cases result with
    | ok doc => rfl
    | error f =>
      rw [ha] at h
      cases h

/-- An annotation that replaces a keyword of what it passes on replaces it in place only: beside a
    reference both count.  Of the two documents of the lax pair the first accepts a second text of
    three characters, and the second rejects it. -/
theorem Export.reuse_interferes :
    ∃ doc doc' c c' value, Returns (({} : Export).convert (.node 2)) (start laxPair) doc c ∧
      Returns (referring.convert (.node 2)) (start laxPair) doc' c' ∧
      doc.Accepts lengths value ∧ doc'.Rejects lengths value ∧ ¬ doc'.Accepts lengths value := by
  have h : Returns (({} : Export).convert (.node 2)) (start laxPair)
      (returned laxPairConverted.1) laxPairConverted.1.2 :=
    returns_returned (by decide +kernel)
  have h' : Returns (referring.convert (.node 2)) (start laxPair)
      (returned laxPairConverted.2) laxPairConverted.2.2 :=
    returns_returned (by decide +kernel)
  -- looking deeper than the texts makes no difference
  have haccepts : (returned laxPairConverted.1).Accepts lengths
      (.arr [.str "abcde", .str "abc"]) := by
    refine Json.eventually_judge 3 fun links depth => ?_
    cbv
  have hrejects : (returned laxPairConverted.2).Rejects lengths
      (.arr [.str "abcde", .str "abc"]) := by
    refine Json.eventually_judge 3 fun links depth => ?_
    cbv
  exact ⟨_, _, _, _, _, h, h', haccepts, hrejects, hrejects.not_accepts⟩

end SchemaGraph
