import SchemaGraph.Proofs.Document.Portions
import SchemaGraph.Proofs.Document.Repeating
import SchemaGraph.Proofs.Survey.Retracing

namespace SchemaGraph

open SchemaGraph.Action Conversion

/-!
# Documents of single nodes

A document that stands alone is emitted from a survey that may hold nodes of other roots.  It is the
document that a conversion of its root alone makes, as long as the same nodes become definitions,
and a cycle is rejected for both or for neither.

* `Survey.cycles`          — the nodes that were met below themselves
* `Emission.reply`         — what comes of a root behind hoisting and settling
* `Converter.Undisturbed`  — other roots make no difference to what becomes a definition
* `Converter.emit_alone`   — the document is that of the root alone
-/

/-- The nodes that were met below themselves, with the path on which that happened. -/
def Survey.cycles (s : Survey) : List (NodeId × Path) :=
  s.visits.filterMap fun p => p.2.cycle.map (p.1, ·)

namespace Emission

variable {e : Emission} {b c : Conversion}

/-! ### Refusals -/

/-- The first cycle of a node without an address of its own is rejected. -/
theorem rejectedCycle?_eq (store : Store) (linkage : Option Linkage) (s : Survey) :
    e.rejectedCycle? store linkage s.visits =
      (s.cycles.find? fun p => !e.hasOwnAddress store linkage p.1).map (·.2) := by
  unfold Survey.cycles
  induction s.visits with
  | nil => rfl
  | cons p rest ih =>
    obtain ⟨n, v⟩ := p
    unfold rejectedCycle?
    cases hcycle : v.cycle with
    | none => simpa [hcycle] using ih
    | some path =>
      rw [List.filterMap_cons]
      simp only [hcycle, Option.map_some, List.find?_cons]
      cases haddress : e.hasOwnAddress store linkage n with
      | true => simpa using ih
      | false => simp

/-- From a survey that nothing was emitted from an emission is refused for a cycle alone. -/
theorem refusal?_first (hl : c.linkage = none) (hroot : c.survey.has e.root = true)
    (hemitted : c.survey.emitted = []) (halone : c.survey.standalone = false) :
    e.refusal? c = if e.policy.cycles = .reject then
      ((c.survey.cycles.find? fun p => !e.hasOwnAddress c.store none p.1).map (·.2)).map .cycle
      else none := by
  unfold refusal?
  simp only [hroot, hemitted, halone, hl, rejectedCycle?_eq]
  simp

/-! ### Documents that stand alone -/

/-- A conversion whose one document is that of a root. -/
def claimed (e : Emission) (c : Conversion) : Conversion :=
  { c with survey := { c.survey with emitted := c.survey.emitted ++ [e.root], standalone := true } }

/-- What comes of a root behind hoisting and settling: what stops the listing of definitions, or the
    document with the definitions listed. -/
def reply (e : Emission) (b : Conversion) : Except Failure Json :=
  match (listed b.survey.visits []).2 with
  | some f => .error f
  | none => (b.view.settle (.dict (e.assemble b.survey (listed b.survey.visits []).1))).document

/-- What is finished comes to what it is settled to. -/
theorem finalize_result (v : Value) (c : Conversion) :
    (finalize v c).1 = (c.view.settle v).document := by
  unfold finalize
  rw [run_bind, run_get]
  dsimp only
  cases (c.view.settle v).document with
  | ok json => rfl
  | error f =>
    obtain ⟨d, hrun, -⟩ := run_fail Json f c
    dsimp only
    rw [hrun]

/-- Without addresses across documents every root may be claimed. -/
theorem claim_alone (hl : c.linkage = none) : e.claim c = (.ok (), e.claimed c) := by
  obtain ⟨store, survey, _, shown⟩ := c
  obtain rfl := hl
  unfold claim claimed
  rw [run_bind, run_get]
  simp only [Option.isNone_none, Bool.or_true]
  rfl

/-- The listing of the definitions of a document that stands alone. -/
theorem listDefinitions_alone (hl : b.linkage = none) :
    ∃ d, e.listDefinitions b = (match (listed b.survey.visits []).2 with
      | some f => (.error f, d)
      | none => (.ok (e.assemble b.survey (listed b.survey.visits []).1), b)) := by
  obtain ⟨store, survey, _, shown⟩ := b
  obtain rfl := hl
  unfold listDefinitions
  simp only [run_bind, run_get, run_modify, Option.map_none, Option.getD_none]
  rcases listed survey.visits [] with ⟨table, _ | f⟩
  · exact ⟨default, rfl⟩
  · obtain ⟨d, hrun, -⟩ := run_fail Entries f
      ({ store := store, survey := survey, shown := shown } : Conversion)
    exact ⟨d, hrun⟩

/-- **One document.** An emission that is not refused comes to what follows on hoisting and
    settling. -/
theorem document_alone (hl : c.linkage = none) (hrefusal : e.refusal? c = none)
    (hstage : Returns e.stage (e.claimed c) () b) (hb : b.linkage = none) :
    (e.document c).1 = e.reply b := by
  obtain ⟨d', hlist⟩ := listDefinitions_alone (e := e) hb
  have hcompose : e.compose c = e.listDefinitions b := by
    obtain ⟨_, d, hhoist, hsettle⟩ := returns_bind.mp hstage
    unfold compose
    rw [run_bind, claim_alone hl]
    dsimp only
    rw [run_bind, show e.hoist (e.claimed c) = (.ok (), d) from hhoist]
    dsimp only
    rw [run_bind, show e.settleVisits d = (.ok (), b) from hsettle]
  unfold document
  rw [run_bind, run_get]
  dsimp only
  rw [hrefusal]
  dsimp only
  rw [run_bind, hcompose, hlist]
  -- From here on both do the same: list the definitions, then write out the document.
  unfold reply
  cases (listed b.survey.visits []).2 with
  | some f => rfl
  | none =>
    dsimp only
    rw [run_bind, ← finalize_result]
    rcases finalize (.dict (e.assemble b.survey (listed b.survey.visits []).1)) b with ⟨_ | json, _⟩
    · rfl
    · rfl

end Emission

/-! ### Hoisting and settling the same nodes -/

section Stage

variable {e : Emission} {reached : NodeId → Prop} {reach : NodeId → Prop} {count : Nat}
  {c d c' d' : Conversion}

/-- Nothing is a definition yet.  In circles content is passed on by nodes only that become
    definitions; and in the dialect that puts references under `allOf`, what passes the content of a
    reference on leaves that keyword to it. -/
structure Emission.Calm (e : Emission) (reached : NodeId → Prop) (c : Conversion) : Prop where
  nodes : ∀ n, c.survey.has n = true → n ≠ .gap
  undefined : ∀ n v, c.survey.visit? n = some v → v.definition = none
  circles : ∀ n, reached n → Relation.TransGen c.Next n n →
    n ∈ e.hoisted c ∧ ¬ c.survey.IsReference n
  asks : e.target = .draft7 → ∀ n v t, c.survey.visit? n = some v → v.target = some t →
    t ∈ e.hoisted c ∨ c.survey.IsReference t → v.fragment.get? Emission.allOfKey = none

/-- Hoisting and settling have made the same of the nodes that both conversions are about. -/
structure Emission.Staged (e : Emission) (c d c' d' : Conversion) : Prop where
  returns : Returns e.stage c () c'
  returns' : Returns e.stage d () d'
  rewrites : Rewrites c c'
  rewrites' : Rewrites d d'
  hoisted : e.hoisted d = e.hoisted c
  defines : ∀ n v, c'.survey.visit? n = some v → v.definition.isSome → n ∈ e.hoisted c
  shows : ∀ n w, d'.survey.visit? n = some w → ∃ v, c'.survey.visit? n = some v ∧ v.Shows w

namespace Emission.Calm

/-- Behind hoisting nothing keeps settling from its end. -/
theorem heedful (hc : e.Calm reached c) (h : Returns e.hoist c () d)
    (hothers : ∀ n, n ∉ e.hoisted c → d.survey.visit? n = c.survey.visit? n) :
    Heedful e.target (fun t => t ∈ e.hoisted c ∨ c.survey.IsReference t) d.store d where
  store := rfl
  references ht n w hw href := by
    by_cases hn : n ∈ e.hoisted c
    · exact .inl hn
    · rw [hothers n hn] at hw
      exact .inr (Survey.isReference_iff.mpr ⟨w, hw, href⟩)
  asks ht n w hw _ t htarget hrefs := by
    obtain ⟨v, hv, rfl | ⟨ref, id, -, rfl⟩⟩ := ((hoist_hoists c).of_returns h).1.cases hw
    · rw [Visit.body, hc.undefined n w hv]
      exact hc.asks ht n w t hv htarget hrefs
    · exact hc.asks ht n v t hv htarget hrefs

/-- Behind hoisting content is passed on in circles by definitions. -/
theorem defines (hc : e.Calm reached c) (h : Returns e.hoist c () d) {n : NodeId} (hn : reached n)
    (hloop : Relation.TransGen d.Next n n) : d.survey.defines n = true := by
  obtain ⟨hhoists, hrefers⟩ := (hoist_hoists c).of_returns h
  obtain ⟨hhoisted, hbare⟩ := hc.circles n hn
    (Relation.TransGen.mono (fun _ _ hnext => hhoists.next hnext) n n hloop)
  obtain ⟨hmem, hreason⟩ := List.mem_filter.mp hhoisted
  obtain ⟨v, hv⟩ := Survey.visit?_of_has ((Survey.has_iff _ _).mpr hmem)
  rcases hhoists.visits hv with hsame | ⟨-, ref, id, -, hdefined⟩
  · unfold hoists at hreason
    rw [hv] at hreason
    exact absurd (Survey.isReference_iff.mpr ⟨v, hv, hrefers n v v hv hsame hreason⟩) hbare
  · simp [Survey.defines, hdefined, Visit.defined]

end Emission.Calm

/-- Settling that leaves the store alone changes nothing but visits. -/
theorem Emission.settleVisits_rewrites (hoverride : e.override = none)
    (h : Returns e.settleVisits c () d) (hstore : d.store = c.store) : Rewrites c d := by
  have hconserves : Conserves e.target (fun _ => True) c d :=
    (settleVisits_conserves hoverride).of_returns h
  exact
    { store := by rw [hstore]
      linkage := (settleVisits_persists.of_returns h).linkage
      number := hconserves.rests.number
      order := hconserves.order }

/-- **Hoisting and settling.** What two conversions have in common becomes the same, if the same
    nodes are hoisted. -/
theorem Conversion.Covers.stage (h : Covers c d) (hoverride : e.override = none)
    (hc : e.Calm (fun n => d.survey.has n = true) c) (hsame : e.hoisted d = e.hoisted c)
    (hnext : ∀ n m, d.Next n m → d.survey.has m = true) : ∃ c' d', e.Staged c d c' d' := by
  obtain ⟨c₁, d₁, hhoist, hhoist', hcovers, hothers⟩ := h.hoist hc.nodes hsame
  have hhoists := ((Emission.hoist_hoists c).of_returns hhoist).1
  have hhoists' := ((Emission.hoist_hoists d).of_returns hhoist').1
  have hheedful := hc.heedful hhoist hothers
  obtain ⟨_, c', hsettle, hdone⟩ := (Emission.settleVisits_secures hoverride _ hheedful).returns
  obtain ⟨_, d', hsettle', hdone'⟩ :=
    (Emission.settleVisits_secures hoverride _ (hcovers.heedful hheedful)).returns
  refine ⟨c', d',
    { returns := returns_bind.mpr ⟨_, c₁, hhoist, hsettle⟩
      returns' := returns_bind.mpr ⟨_, d₁, hhoist', hsettle'⟩
      rewrites := hhoists.rewrites.trans
        (Emission.settleVisits_rewrites hoverride hsettle hdone.store)
      rewrites' := hhoists'.rewrites.trans
        (Emission.settleVisits_rewrites hoverride hsettle' hdone'.store)
      hoisted := hsame
      defines := fun n v hv hsome => ?_
      shows := fun n w hw => ?_ }⟩
  · obtain ⟨v₁, hv₁, hpersists⟩ := (Emission.settleVisits_persists.of_returns hsettle).back hv
    -- A node outside of the smaller survey was never hoisted.
    by_contra hn
    rw [hothers n hn] at hv₁
    rw [hpersists.hoisted, hc.undefined n v₁ hv₁] at hsome
    cases hsome
  -- A circle of content passed on meets a definition on both sides, or on neither.
  · refine hcovers.settle hoverride hsettle hsettle' (fun n m hstep => ?_) (fun n hn hloop => ?_) hw
    · rw [hhoists'.rewrites.has]
      exact hnext n m (hhoists'.next hstep)
    · rw [← hcovers.defines hn]
      rw [hhoists'.rewrites.has] at hn
      exact hc.defines hhoist hn hloop

namespace Emission.Staged

/-- The same definitions are listed. -/
theorem listed_eq (h : e.Staged c d c' d') (hnodup : c.survey.order.Nodup)
    (hnodup' : d.survey.order.Nodup) :
    listed c'.survey.visits [] = listed d'.survey.visits [] := by
  refine (listed_congr (Survey.definitions_congr (p := e.hoists c) (q := e.hoists d)
    (h.rewrites.order ▸ hnodup) (h.rewrites'.order ▸ hnodup') (fun n v hv hsome => ?_)
    (fun n w hw hsome => ?_) ?_ h.shows) []).symm
  · exact (List.mem_filter.mp (h.defines n v hv hsome)).2
  · obtain ⟨v, hv, hvw⟩ := h.shows n w hw
    have hmem : n ∈ e.hoisted c := h.defines n v hv (hvw.definition ▸ hsome)
    rw [← h.hoisted] at hmem
    exact (List.mem_filter.mp hmem).2
  · rw [h.rewrites.order, h.rewrites'.order]
    exact h.hoisted

/-- What the second conversion has pointed at, it still points at. -/
theorem reaches (h : e.Staged c d c' d') (hoverride : e.override = none)
    (hd : d.Reaches reach count) : d'.Reaches reach count := by
  obtain ⟨_, d₁, hhoist, hsettle⟩ := returns_bind.mp h.returns'
  have hreaches := hoist_reaches (e := e) hd
  rw [show e.hoist d = (.ok (), d₁) from hhoist] at hreaches
  exact (reaches_preserved e.target reach count).settleVisits hoverride hsettle hreaches

/-- The same is replied, if views of both conversions show the same. -/
theorem reply_iff (h : e.Staged c d c' d') (hnodup : c.survey.order.Nodup)
    (hnodup' : d.survey.order.Nodup) (hroot : d.survey.has e.root = true)
    (htwins : d'.view.Twins reach count c'.view) (hreaches : d'.Reaches reach count) (doc : Json) :
    e.reply c' = .ok doc ↔ e.reply d' = .ok doc := by
  have hlisted := h.listed_eq hnodup hnodup'
  have hassemble := assemble_congr ((h.rewrites'.has e.root).trans hroot) hlisted h.shows
  unfold reply
  rw [hassemble, hlisted]
  cases (listed d'.survey.visits []).2 with
  | some f => exact ⟨nofun, nofun⟩
  | none =>
    exact (htwins.document_iff (view_ample d') (view_ample c') (reaches_assemble hreaches _)).symm

end Emission.Staged

end Stage

/-! ### A node alone and in company -/

/-- The survey of a node alone, and one that holds the node among others. -/
structure Converter.Apart (conv : Converter) (root : NodeId) (p q : Conversion) : Prop where
  closed : p.store.Closed
  intact : p.survey.Intact conv.guide p.store
  intact' : q.survey.Intact conv.guide p.store
  covers : Covers p q
  nodup : p.survey.order.Nodup
  nodup' : q.survey.order.Nodup
  unclaimed : p.survey.emitted = [] ∧ p.survey.standalone = false
  unclaimed' : q.survey.emitted = [] ∧ q.survey.standalone = false
  root : q.survey.has root = true
  store : q.store = { p.store with archive := q.store.archive, events := q.store.events }
  archive : ∀ k < p.survey.number, q.store.archive[k]? = p.store.archive[k]?
  number : p.survey.number < q.survey.number

/-- The store that a conversion leaves is closed. -/
theorem Conversion.leave_closed {c : Conversion} (hc : c.store.Closed) : c.leave.Closed where
  links {n _} hn m hm := by
    have h := hc.links (n := n) (by cases n <;> exact hn) m hm
    cases m <;> exact h
  names {_ n} hn := by
    have h := hc.names hn
    cases n <;> exact h
  getters := hc.getters

namespace Converter

variable {conv : Converter} {policy : EmissionSettings} {store : Store} {root : NodeId}
  {p q : Conversion}

/-- A node that was visited among others is visited alone. -/
theorem process_apart (hs : store.Closed) {roots : List NodeId}
    (h : Returns (conv.processAll roots) (start store) () p) (hroot : p.survey.has root = true) :
    ∃ q, Returns (conv.process root) (start p.leave) () q ∧ conv.Apart root p q := by
  have hdescends := (processAll_within conv roots).of_returns h
  obtain ⟨hgrows, hclosed⟩ := hdescends.store (start_closed hs)
  have hintact := processAll_intact hs h
  have hnodup : p.survey.order.Nodup := hdescends.nodup List.nodup_nil
  have hrecalls : p.store.Recalls (start p.leave).store :=
    ⟨List.prefix_refl _, fun h => h, fun _ _ _ => rfl, Nat.le_refl _⟩
  -- The second descent asks the store that the first one has left, and finds the nodes that were
  -- found before.
  obtain ⟨q, hq, hechoes, hvisited⟩ := process_retraces hclosed hintact.explored hnodup hrecalls
    (not_has_start p.leave) hroot
  have hdescends' := (process_within conv root).of_returns hq
  obtain ⟨hexplores, hhas⟩ := process_explores (start_closed (leave_closed hclosed)) hq
  -- All lazy nodes had answered by then, so the second descent changes events alone.
  have hstore : q.store = { p.store with
      archive := (start p.leave).store.archive, events := q.store.events } := by
    obtain ⟨events, hevents⟩ := hechoes.exists_eq
    rw [hevents]
    rfl
  have harchive : q.store.archive = (start p.leave).store.archive := by rw [hstore]
  have hexplored : Explored conv.guide p.store q.survey := by
    have hq := Explored.of_explores hexplores (not_has_start p.leave)
    rw [hstore] at hq
    exact hq.of_archive
  have hintact' : q.survey.Intact conv.guide p.store :=
    ⟨hexplored, fun hv => hdescends'.entered rfl hv⟩
  have hnumber : p.survey.number = store.archive.length := hdescends.number
  -- The fragments of the first survey are left behind under its number, in front of the second one.
  have harchives := archive_leave hnumber hgrows.archive
  refine ⟨q, hq,
    { closed := hclosed
      intact := hintact
      intact' := hintact'
      covers := ⟨hdescends.linkage, hdescends'.linkage,
        hdescends'.counter.trans hdescends.counter.symm, fun {n w} hw => ?_⟩
      nodup := hnodup
      nodup' := hdescends'.nodup List.nodup_nil
      unclaimed := ⟨hdescends.emitted, hdescends.standalone⟩
      unclaimed' := ⟨hdescends'.emitted, hdescends'.standalone⟩
      root := hhas
      store := harchive ▸ hstore
      archive := fun k hk => ?_
      number := ?_ }⟩
  · obtain ⟨v, hv⟩ := Survey.visit?_of_has (hvisited n (Survey.has_of_visit? hw))
    refine ⟨v, hv, ?_⟩
    have hcontent := hintact.explored.same_content hclosed hexplored hv hw
    have hstage := (hintact.stage hv).trans (hintact'.stage hw).symm
    simp only [Visit.content, Visit.stage, Prod.mk.injEq] at hcontent hstage
    unfold Visit.unmarked
    rw [hcontent.1, hcontent.2.1, hcontent.2.2, hstage.1, hstage.2.1, hstage.2.2]
  · rw [harchive, harchives, show p.store.archive = store.archive ++ [[]] from hgrows.archive]
    rw [List.getElem?_append_left (hnumber ▸ hk), List.getElem?_append_left (hnumber ▸ hk)]
  · rw [show q.survey.number = p.leave.archive.length from hdescends'.number, hnumber]
    show store.archive.length < (p.store.archive.set _ _).length
    rw [List.length_set, show p.store.archive = store.archive ++ [[]] from hgrows.archive,
      List.length_append]
    exact Nat.lt_succ_self _

/-- The node is there in both surveys. -/
theorem Apart.has (h : conv.Apart root p q) {n : NodeId} (hn : q.survey.has n = true) :
    p.survey.has n = true := by
  obtain ⟨w, hw⟩ := Survey.visit?_of_has hn
  obtain ⟨v, hv, -⟩ := h.covers.visits hw
  exact Survey.has_of_visit? hv

/-- Alone, content is passed on to nodes that are there. -/
theorem Apart.next (h : conv.Apart root p q) {n m : NodeId} (hnext : q.Next n m) :
    q.survey.has m = true := by
  obtain ⟨w, hw, hm⟩ := hnext
  exact h.intact'.explored.edge (Survey.has_of_visit? hw) (h.intact'.passes hw hm).edge

/-- Other roots change nothing about what becomes of a root: the same nodes become definitions, in
    the same order, and if cycles are rejected, they are the same.  In circles content is passed on
    by definitions only; and in the dialect that puts references under `allOf`, what passes on the
    content of a reference leaves that keyword to it. -/
structure Undisturbed (conv : Converter) (policy : EmissionSettings) (root : NodeId)
    (p q : Conversion) : Prop where
  hoisted : (conv.emission policy root).hoisted q = (conv.emission policy root).hoisted p
  cycles : policy.cycles = .reject → q.survey.cycles = p.survey.cycles
  circles : ∀ n, q.survey.has n = true →
    Relation.TransGen (p.store.Passes conv.guide.settings.side) n n →
    n ∈ (conv.emission policy root).hoisted p ∧ ¬ p.survey.IsReference n
  asks : conv.guide.settings.target = .draft7 → ∀ n v t, p.survey.visit? n = some v →
    v.target = some t → t ∈ (conv.emission policy root).hoisted p ∨ p.survey.IsReference t →
    v.fragment.get? Emission.allOfKey = none

namespace Apart

/-- The root is refused alone as it is in company. -/
theorem refusal?_eq (h : conv.Apart root p q) (hu : conv.Undisturbed policy root p q) :
    (conv.emission policy root).refusal? q = (conv.emission policy root).refusal? p := by
  rw [Emission.refusal?_first h.covers.alone' h.root h.unclaimed'.1 h.unclaimed'.2,
    Emission.refusal?_first h.covers.alone (h.has h.root) h.unclaimed.1 h.unclaimed.2, h.store]
  split
  · rename_i hreject
    rw [hu.cycles hreject]
    rfl
  · rfl

/-- The nodes that the root is converted from are calm. -/
theorem calm (h : conv.Apart root p q) (hu : conv.Undisturbed policy root p q) :
    (conv.emission policy root).Calm (fun n => q.survey.has n = true)
      ((conv.emission policy root).claimed p) where
  nodes n hn hgap := by
    obtain ⟨v, hv⟩ := Survey.visit?_of_has (s := p.survey) hn
    obtain ⟨links, w, hw, -⟩ := h.intact.contents hv
    have hnode := Conversion.isSome_of_contents? hw
    rw [hgap] at hnode
    cases hnode
  undefined n v hv := h.intact.definition hv
  circles n hn hloop := by
    refine hu.circles n hn (Relation.TransGen.mono (fun k m hnext => ?_) n n hloop)
    obtain ⟨v, hv, hm⟩ := hnext
    exact h.intact.passes hv hm
  asks := hu.asks

/-- What is found alone points at nothing else. -/
theorem reaches (h : conv.Apart root p q) (hgiven : p.Given (fun _ => False) conv.guide) :
    q.Reaches (fun n => q.survey.has n = true) p.survey.number := by
  refine h.intact'.reaches (fun n node hn => hgiven.plain n node (h.has hn))
    (fun n es hn hes => ?_) fun n m hn he => h.intact'.explored.edge hn he
  exact (hgiven.supplied n es (h.has hn) hes).mono fun v hv => hv.mono fun _ hfalse => hfalse.elim

/-- What is held alone and in company is the same, as far as it is alone. -/
theorem twins {e : Emission} {c d : Conversion} (h : conv.Apart root p q)
    (hstaged : e.Staged (e.claimed p) (e.claimed q) c d)
    (hgiven : p.Given (fun _ => False) conv.guide)
    (hreaches : d.Reaches (fun n => q.survey.has n = true) p.survey.number) :
    d.view.Twins (fun n => q.survey.has n = true) p.survey.number c.view := by
  have hnumber : c.survey.number = p.survey.number := hstaged.rewrites.number
  have hnumber' : d.survey.number = q.survey.number := hstaged.rewrites'.number
  have hstore : c.store = { p.store with events := c.store.events } := hstaged.rewrites.store
  have hstore' : d.store = { p.store with
      archive := q.store.archive, events := d.store.events } := by
    rw [hstaged.rewrites'.store]
    show ({ q.store with events := d.store.events } : Store) = _
    rw [h.store]
  have hlists : c.store.lists = p.store.lists := by rw [hstore]
  have hlists' : d.store.lists = p.store.lists := by rw [hstore']
  have harchive : ∀ k < p.survey.number, d.store.archive[k]? = p.store.archive[k]? := by
    intro k hk
    rw [hstore']
    exact h.archive k hk
  -- Fragments of this survey agree by the stages, those of earlier ones were not touched.
  refine Conversion.twins ((Nat.le_of_lt h.number).trans hnumber'.ge) hnumber.ge (fun n hn => ?_)
    (fun k hk => ?_) (hlists.trans hlists'.symm) hreaches (fun k hk fragments hfragments => ?_) ?_
  · obtain ⟨w, hw⟩ := Survey.visit?_of_has ((hstaged.rewrites'.has n).trans hn)
    obtain ⟨v, hv, hvw⟩ := hstaged.shows n w hw
    rw [Survey.fragment, Survey.fragment, hv, hw]
    exact hvw.fragment
  · rw [harchive k hk, hstore]
  · rw [harchive k hk] at hfragments
    exact hgiven.archive fragments (List.mem_of_getElem? hfragments)
  · rw [hlists']
    exact fun xs hxs v hv => (hgiven.lists xs hxs v hv).mono fun _ hfalse => hfalse.elim

/-- **Documents of the root.** Undisturbed, a root that is not refused comes to the same alone as in
    company. -/
theorem document_iff (h : conv.Apart root p q) (hu : conv.Undisturbed policy root p q)
    (hoverride : conv.override = none) (hgiven : p.Given (fun _ => False) conv.guide)
    (hrefusal : (conv.emission policy root).refusal? p = none) (doc : Json) :
    ((conv.emission policy root).document p).1 = .ok doc ↔
      ((conv.emission policy root).document q).1 = .ok doc := by
  have hcovers : Covers ((conv.emission policy root).claimed p)
      ((conv.emission policy root).claimed q) :=
    ⟨h.covers.alone, h.covers.alone', h.covers.counter, h.covers.visits⟩
  obtain ⟨c, d, hstaged⟩ := hcovers.stage (e := conv.emission policy root) hoverride (h.calm hu)
    hu.hoisted fun n m hnext => h.next hnext
  have hreaches := hstaged.reaches hoverride (h.reaches hgiven)
  rw [Emission.document_alone h.covers.alone hrefusal hstaged.returns
      (hstaged.rewrites.linkage.trans h.covers.alone),
    Emission.document_alone h.covers.alone' ((h.refusal?_eq hu).trans hrefusal) hstaged.returns'
      (hstaged.rewrites'.linkage.trans h.covers.alone')]
  exact hstaged.reply_iff h.nodup h.nodup' h.root (h.twins hstaged hgiven hreaches) hreaches doc

end Apart

/-- An emission fails for a cycle if it is refused for it. -/
theorem document_cycle_iff {e : Emission} (hoverride : e.override = none) (c : Conversion)
    (path : Path) : (e.document c).1 = .error (.cycle path) ↔
      e.refusal? c = some (.cycle path) := by
  constructor
  · intro hfails
    rcases Emission.document_raises (Prod.ext hfails rfl) with hrefusal | ⟨-, hails⟩
    · exact hrefusal
    · cases hails with
      | override ho => rw [hoverride] at ho; cases ho
  · intro hrefusal
    obtain ⟨d, hrun, -⟩ := Emission.document_refused hrefusal
    rw [hrun]

/-- **Roots among others.** A root that was visited among others can be converted alone.  Unless it is
    disturbed by the others, it has the same document then, or it is rejected for the same cycle.

    What the nodes were given must not point at the survey that is made of them. -/
theorem emit_alone (policy : EmissionSettings) (hs : store.Closed)
    (hoverride : conv.override = none) {roots : List NodeId}
    (h : Returns (conv.processAll roots) (start store) () p) (hroot : p.survey.has root = true)
    (hgiven : p.Given (fun _ => False) conv.guide) :
    ∃ q, Returns (conv.process root) (start p.leave) () q ∧
      (conv.Undisturbed policy root p q →
        (∀ doc, (conv.emit policy root p).1 = .ok doc ↔
          (conv.document policy root (start p.leave)).1 = .ok doc) ∧
        ∀ path, (conv.emit policy root p).1 = .error (.cycle path) ↔
          (conv.document policy root (start p.leave)).1 = .error (.cycle path)) := by
  obtain ⟨q, hq, hapart⟩ := process_apart hs h hroot
  refine ⟨q, hq, fun hu => ?_⟩
  have halone : conv.document policy root (start p.leave) = conv.emit policy root q := by
    unfold document
    rw [run_bind, show conv.process root (start p.leave) = (.ok (), q) from hq]
  -- The conversion of the root alone is the emission from `q`, so that both sides are emissions.
  rw [halone]
  unfold emit
  have hrefusal := hapart.refusal?_eq hu
  constructor
  · intro doc
    cases hrefused : (conv.emission policy root).refusal? p with
    | none => exact hapart.document_iff hu hoverride hgiven hrefused doc
    | some f =>
      obtain ⟨c, hc, -⟩ := Emission.document_refused hrefused
      obtain ⟨d, hd, -⟩ := Emission.document_refused (hrefusal.trans hrefused)
      rw [hc, hd]
  · intro path
    rw [document_cycle_iff hoverride, document_cycle_iff hoverride, hrefusal]

end Converter

/-! ### A pair in a list -/

/-- A text, a view of it that can only be read, the pair of both, and a list of such pairs. -/
def pairInList : Store where
  nodes := [{ kind := .string }, { kind := .readonly, inner := .node 0 },
    { kind := .tuple, items := [.node 0, .node 1] }, { kind := .array, element := .node 2 }]

/-- A pair has the same document alone and behind the list of pairs, and in both the text is shared
    that it holds twice. -/
theorem Converter.emit_alone_pairInList :
    let conv : Converter := {}
    let policy : EmissionSettings := { reused := .refer }
    ∃ p doc, Returns (conv.processAll [.node 3, .node 2]) (start pairInList) () p ∧
      (conv.emit policy (.node 2) p).1 = .ok doc ∧
      (conv.document policy (.node 2) (start p.leave)).1 = .ok doc := by
  intro conv policy
  have hclosed : pairInList.Closed := .of_forall (by decide) nofun nofun
  let p := (conv.processAll [.node 3, .node 2] (start pairInList)).2
  obtain ⟨_, hp⟩ := exists_returns (a := conv.processAll [.node 3, .node 2])
    (s := start pairInList) (by decide +kernel)
  have hnodes : p.store.nodes = pairInList.nodes := by decide +kernel
  have hgiven : p.Given (fun _ => False) conv.guide := by
    have hcatalogs : p.store.catalogs = [] := by decide +kernel
    refine .of_forall (by decide +kernel) (fun entry hentry => ?_) (by decide +kernel)
      (by decide +kernel)
    unfold Store.catalog at hentry
    rw [hcatalogs] at hentry
    cases hentry
  have hroot : p.survey.has (.node 2) = true := by decide +kernel
  obtain ⟨q, hq, hsame⟩ := Converter.emit_alone policy hclosed rfl hp hroot hgiven
  obtain rfl : (conv.process (.node 2) (start p.leave)).2 = q := congrArg (·.2) hq
  -- content is passed on by one node only, and to another one
  have hpasses : ∀ n m, p.store.Passes .output n m → n = .node 1 ∧ m = .node 0 := by
    intro n m hpass
    obtain ⟨node, lead, hn, hlead, hm⟩ := hpass
    cases n with
    | gap => cases hn
    | node i =>
      rw [Store.node?, hnodes] at hn
      rcases i with _ | _ | _ | _ | i
      · cases hn; cases hlead
      · cases hn; cases hlead; cases hm; exact ⟨rfl, rfl⟩
      · cases hn; cases hlead
      · cases hn; cases hlead
      · cases hn
  obtain ⟨doc, hdoc⟩ := exists_returns (a := conv.emit policy (.node 2)) (s := p)
    (by decide +kernel)
  refine ⟨p, doc, hp, congrArg (·.1) hdoc, ((hsame ?_).1 doc).mp (congrArg (·.1) hdoc)⟩
  refine
    { hoisted := by decide +kernel
      cycles := fun hrejects => by cases hrejects
      circles := fun n _ hloop => ?_
      asks := fun hinput => by cases hinput }
  obtain ⟨m, hm, -⟩ := Relation.TransGen.head'_iff.mp hloop
  obtain ⟨k, -, hk⟩ := Relation.TransGen.tail'_iff.mp hloop
  cases (hpasses n m hm).1.symm.trans (hpasses k n hk).2

/-! ### Disturbed roots -/

/-- A text, and a truth value with an id. -/
def titledFlag : Store where
  nodes := [{ kind := .string }, { kind := .boolean }]
  catalogs := [("global",
    { entries := [(.node 1, [(.str "id", .str "X")])], ids := [(.str "X", .node 1)] })]

/-- A default that is passed on to itself, and a promise of it. -/
def selfDefault : Store where
  nodes := [{ kind := .lazy, getter := some 0 }, { kind := .readonly, inner := .node 0 },
    { kind := .default, inner := .node 1, defaultValue := .int 1 },
    { kind := .promise, inner := .node 0 }]
  getters := [{ owner := .node 0, source := .named "default" }]
  names := [("default", .node 2)]

/-- A list of itself, a list of these, and a list of those. -/
def listsOfLists : Store where
  nodes := [{ kind := .lazy, getter := some 0 }, { kind := .array, element := .node 0 },
    { kind := .array, element := .node 1 }, { kind := .array, element := .node 2 }]
  getters := [{ owner := .node 0, source := .named "list" }]
  names := [("list", .node 1)]

/-- A text with an id, and two views of it that can only be read, one of which is annotated with
    something else than a list. -/
def viewedText : Store where
  nodes := [{ kind := .string }, { kind := .readonly, inner := .node 0 },
    { kind := .readonly, inner := .node 0 }]
  catalogs := [("global",
    { entries := [(.node 0, [(.str "id", .str "S")]), (.node 2, [(.str "allOf", .str "x")])]
      ids := [(.str "S", .node 0)] })]

/-- A root may be disturbed by another one: the definition of a node that it does not reach is listed
    with its own; it lacks a default that settling found in another order; it is rejected for a cycle
    that is met on another path; and it fails where another root asks for too much. -/
theorem Converter.emit_disturbed :
    let together := fun (conv : Converter) policy store roots root =>
      (do conv.processAll roots; conv.emit policy root : Action Conversion Json) (start store)
    let alone := fun (conv : Converter) policy store roots root =>
      conv.document policy root (start (conv.processAll roots (start store)).2.leave)
    let schema := ("$schema", Json.str "https://json-schema.org/draft/2020-12/schema")
    let flag := Json.obj [("type", .str "boolean"), ("id", .str "X")]
    (together {} {} titledFlag [.node 0, .node 1] (.node 0)).1.toOption =
        some (.obj [("type", .str "string"), ("$defs", .obj [("X", flag)]), schema]) ∧
      (alone {} {} titledFlag [.node 0, .node 1] (.node 0)).1.toOption =
        some (.obj [("type", .str "string"), schema]) ∧
    (together {} {} selfDefault [.node 1, .node 3] (.node 1)).1.toOption =
        some (.obj [("readOnly", .bool true), schema]) ∧
      (alone {} {} selfDefault [.node 1, .node 3] (.node 1)).1.toOption =
        some (.obj [("readOnly", .bool true), ("default", .int 1), schema]) ∧
    (together {} { cycles := .reject } listsOfLists [.node 3, .node 2] (.node 2)).1 =
        .error (.cycle ["items", "items", "items"]) ∧
      (alone {} { cycles := .reject } listsOfLists [.node 3, .node 2] (.node 2)).1 =
        .error (.cycle ["items", "items"]) ∧
    let older : Converter := { guide := { settings := { target := .draft7 } } }
    (together older {} viewedText [.node 1, .node 2] (.node 1)).1 = .error .missingChild ∧
      (alone older {} viewedText [.node 1, .node 2] (.node 1)).1.isOk = true := by
  intro together alone schema flag
  exact ⟨by decide +kernel, by decide +kernel, by decide +kernel, by decide +kernel,
    by decide +kernel, by decide +kernel, by decide +kernel, by decide +kernel⟩

end SchemaGraph
