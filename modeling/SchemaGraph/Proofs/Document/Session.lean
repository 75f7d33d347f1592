import SchemaGraph.Proofs.Document.Failing
import SchemaGraph.Proofs.Document.Numbering
import SchemaGraph.Proofs.Survey.Cycles

namespace SchemaGraph

open SchemaGraph.Action Conversion Emission

/-!
# Sessions

In a session roots are visited and documents emitted in any order, into and from one survey.
Emissions, whatever comes of them, change neither the graph nor the marks of cycles, so that the
marks are exact all the time; and whether an emission is refused for a cycle can be told from
them.

* `Conversion.Outlines`   — the graph, the nodes visited and the marks are the same
* `Conversion.Charted`    — everything visited was followed, and the marks are exact
* `Converter.Session`     — the conversions that sessions lead to
* `Converter.Session.rejects_iff` — which emissions are refused for a cycle
-/

namespace Conversion

/-- Besides events and lists of annotations the store is the same; the same nodes are visited in
    the same order, with the same marks of cycles. -/
structure Outlines (c c' : Conversion) : Prop where
  store : c'.store = { c.store with lists := c'.store.lists, events := c'.store.events } := by rfl
  order : c'.survey.order = c.survey.order := by rfl
  cycle : ∀ n, (c'.survey.visit? n).map (·.cycle) = (c.survey.visit? n).map (·.cycle) := by
    exact fun _ => rfl

namespace Outlines

variable {c d f : Conversion} {side : Side}

/-- A conversion has its own outlines. -/
theorem refl (c : Conversion) : Outlines c c where

/-- Outlines that stay twice stay. -/
theorem trans (h₁ : Outlines c d) (h₂ : Outlines d f) : Outlines c f where
  store := by rw [h₂.store, h₁.store]
  order := h₂.order.trans h₁.order
  cycle n := (h₂.cycle n).trans (h₁.cycle n)

instance : Std.Refl Outlines := ⟨refl⟩

instance : Trans Outlines Outlines Outlines := ⟨trans⟩

/-- The same nodes were visited. -/
theorem has (h : Outlines c d) (n : NodeId) : d.survey.has n = c.survey.has n := by
  rw [Bool.eq_iff_iff, Survey.has_iff, Survey.has_iff, h.order]

/-- The same nodes are marked for a cycle. -/
theorem marked_iff (h : Outlines c d) (n : NodeId) : d.Marked n ↔ c.Marked n := by
  have hiff : ∀ s : Survey, (∃ v, s.visit? n = some v ∧ v.cycle.isSome = true) ↔
      ∃ mark, (s.visit? n).map (·.cycle) = some mark ∧ mark.isSome = true := by
    intro s
    cases s.visit? n <;> simp
  unfold Marked
  rw [hiff, hiff, h.cycle]

/-- The nodes are the same. -/
theorem node? (h : Outlines c d) (n : NodeId) : d.store.node? n = c.store.node? n := by
  rw [h.store]
  cases n <;> rfl

/-- A node has the same leads. -/
theorem leads (h : Outlines c d) (n : NodeId) : d.store.leads side n = c.store.leads side n := by
  rw [h.store]
  rfl

/-- A lead goes the same way. -/
theorem follow? (h : Outlines c d) (n : NodeId) (lead : Lead) :
    d.store.follow? n lead = c.store.follow? n lead := by
  rw [h.store]
  rfl

/-- The graph is the same. -/
theorem edge_iff (h : Outlines c d) (n m : NodeId) :
    d.store.Edge side n m ↔ c.store.Edge side n m := by
  unfold Store.Edge
  rw [h.leads]
  simp only [h.follow?]

/-- Every node has its place in the order of visits. -/
theorem place (h : Outlines c d) (n : NodeId) : d.place n = c.place n := by
  rw [Conversion.place, h.order]
  rfl

/-- The same nodes lie on closed walks through nodes that were visited. -/
theorem looped_iff (h : Outlines c d) (n : NodeId) : Looped side d n ↔ Looped side c n := by
  have hedge : d.store.Edge side = c.store.Edge side := by
    funext a b
    exact propext (h.edge_iff a b)
  unfold Looped
  rw [hedge]
  simp only [h.has, h.place]

/-- A closed store stays closed. -/
theorem closed (h : Outlines c d) (hs : c.store.Closed) : d.store.Closed := by
  have hnamed : ∀ name, d.store.named? name = c.store.named? name := by
    intro name
    rw [h.store]
    rfl
  refine ⟨fun {n node} hn m hm => ?_, fun {name n} hn => ?_, fun g hg => ?_⟩
  · rw [h.node?] at hn
    have hhas := hs.links hn m hm
    unfold Store.Has at hhas ⊢
    rwa [h.node?]
  · rw [hnamed] at hn
    rw [h.node?]
    exact hs.names hn
  · rw [h.store] at hg
    exact hs.getters g hg

end Outlines

/-- Nothing but events and visits has changed, and no mark. -/
theorem Rewrites.outlines {c d : Conversion} (h : Rewrites c d)
    (hvisits : ∀ n, (d.survey.visit? n).map (·.cycle) = (c.survey.visit? n).map (·.cycle)) :
    Outlines c d where
  store := by rw [h.store]
  order := h.order
  cycle := hvisits

end Conversion

namespace Emission

variable {e : Emission}

/-- Hoisting changes fragments and definitions, hence no outlines. -/
theorem Hoists.outlines {c d : Conversion} (h : Hoists e c d) : Outlines c d := by
  refine h.rewrites.outlines fun n => ?_
  cases hv : c.survey.visit? n with
  | none =>
    have hnone : d.survey.visit? n = none := by
      have hhas := h.rewrites.has n
      unfold Survey.has at hhas
      rw [hv] at hhas
      exact Option.isNone_iff_eq_none.mp (Option.isSome_eq_false_iff.mp hhas)
    rw [hnone]
  | some v =>
    rcases h.visits hv with hd | ⟨-, ref, id, -, hd⟩
    · rw [hd]
    · rw [hd]
      rfl

/-- Every action of an emission keeps the outlines. -/
theorem bears_outlines : Bears Outlines where
  visit n f hf c :=
    { order := Survey.order_modify c.survey n f
      cycle := Survey.map_visit?_modify (fun v => (hf v).cycle) c.survey n }
  append number t c := { }
  shown n body c := { }
  fail α f c := by
    obtain ⟨d, hrun, hrewrites, hsurvey⟩ := run_fail α f c
    rw [hrun]
    exact hrewrites.outlines fun n => by rw [hsurvey]

/-- Whatever comes of an emission, it outlines the same graph. -/
theorem document_outlines : Within Outlines e.document := by
  have hfail : ∀ {α : Type} (f : Failure), Within Outlines (fail f : Action Conversion α) :=
    fun f => bears_outlines.fail _ f
  have hlog : ∀ event, Within Outlines (log event) := fun event c => { }
  have hcompose : Within Outlines e.compose := by
    refine .bind (.bind within_get fun _ c => { }) fun _ => .bind (fun c => ?_) fun _ => ?_
    · exact (hoist_hoists c).state_of_and.outlines
    · refine .bind bears_outlines.settleVisits fun _ => .bind within_get fun c => ?_
      refine .bind (fun c => { }) fun _ => ?_
      split
      · exact hfail _
      · exact within_pure _
  refine .bind within_get fun c => ?_
  split
  · exact hfail _
  · refine .bind hcompose fun entries => .bind (.bind within_get fun c => ?_) fun json => ?_
    · split
      · exact within_pure _
      · exact hfail _
    · exact .bind (.bind within_get fun c => hlog _) fun _ => within_pure _

end Emission

namespace Conversion

/-- Everything that was visited was followed to its leads, and the marks of cycles are exact. -/
structure Charted (side : Side) (c : Conversion) : Prop where
  closed : c.store.Closed
  nodup : c.survey.order.Nodup
  nodes : ∀ {n}, c.survey.has n = true → (c.store.node? n).isSome
  leads : ∀ {n}, c.survey.has n = true → ∀ lead ∈ c.store.leads side n,
    ∃ m, c.store.follow? n lead = some m ∧ c.survey.has m = true
  marks : ∀ n, c.Marked n ↔ c.survey.has n = true ∧ Looped side c n

namespace Charted

variable {c d : Conversion} {side : Side}

/-- All nodes on a walk from a visited node were visited. -/
theorem has_of_isChain (h : c.Charted side) {n : NodeId} {xs : List NodeId}
    (hn : c.survey.has n = true) (hwalk : List.IsChain (c.store.Edge side) (n :: xs)) :
    ∀ x ∈ xs, c.survey.has x = true := by
  induction xs generalizing n with
  | nil => nofun
  | cons x rest ih =>
    obtain ⟨⟨lead, hlead, hx⟩, hrest⟩ := List.isChain_cons_cons.mp hwalk
    obtain ⟨m, hm, hhas⟩ := h.leads hn lead hlead
    obtain rfl : m = x := Option.some.inj (hm.symm.trans hx)
    exact List.forall_mem_cons.mpr ⟨hhas, ih hhas hrest⟩

/-- Of every closed walk from a visited node, the node that was entered first is marked. -/
theorem exists_marked (h : c.Charted side) {n : NodeId} {xs : List NodeId}
    (hn : c.survey.has n = true)
    (hwalk : List.IsChain (c.store.Edge side) (n :: (xs ++ [n]))) :
    ∃ m ∈ n :: xs, c.Marked m := by
  obtain ⟨m, hm, hmin⟩ := (measure c.place).wf.has_min { x | x ∈ n :: xs }
    ⟨n, List.mem_cons_self ..⟩
  have hvisited : ∀ x ∈ n :: xs, c.survey.has x = true := by
    refine List.forall_mem_cons.mpr ⟨hn, fun x hx => ?_⟩
    exact h.has_of_isChain hn hwalk x (List.mem_append_left _ hx)
  obtain ⟨ys, hys, hsub⟩ := Converter.isChain_rotated hm hwalk
  refine ⟨m, hm, (h.marks m).mpr ⟨hvisited m hm, ys, hys, fun y hy => ?_⟩⟩
  exact ⟨hvisited y (hsub y hy), Nat.le_of_not_lt (hmin y (hsub y hy))⟩

/-- Before anything is visited there is nothing to follow and nothing is marked. -/
theorem start {store : Store} (hs : store.Closed) : (Conversion.start store).Charted side where
  closed := Converter.start_closed hs
  nodup := List.nodup_nil
  nodes hn := by cases hn
  leads hn := by cases hn
  marks n := ⟨fun h => absurd h.has (by simp [Converter.not_has_start]), fun h => nomatch h.1⟩

/-- What outlines the same graph is charted as well. -/
theorem of_outlines (h : c.Charted side) (ho : Outlines c d) : d.Charted side where
  closed := ho.closed h.closed
  nodup := ho.order ▸ h.nodup
  nodes {n} hn := by
    rw [ho.node?]
    exact h.nodes ((ho.has n).symm.trans hn)
  leads {n} hn lead hlead := by
    rw [ho.leads] at hlead
    obtain ⟨m, hm, hhas⟩ := h.leads ((ho.has n).symm.trans hn) lead hlead
    exact ⟨m, (ho.follow? n lead).trans hm, (ho.has m).trans hhas⟩
  marks n := by
    rw [ho.marked_iff, ho.has, ho.looped_iff]
    exact h.marks n

/-- A closed walk from a node that was charted before a descent was there before. -/
theorem looped_back {own : List NodeId} (h : c.Charted side) (hd : Descends own c d) {n : NodeId}
    (hn : c.survey.has n = true) (hloop : Looped side d n) : Looped side c n := by
  have hgrows := (hd.store h.closed).1
  -- edges from charted nodes are edges of the smaller store, and lead to charted nodes
  have hedge : ∀ {a b}, c.survey.has a = true → d.store.Edge side a b →
      c.store.Edge side a b ∧ c.survey.has b = true := by
    rintro a b ha ⟨lead, hlead, hb⟩
    rw [Store.leads_eq hgrows h.closed side (h.nodes ha)] at hlead
    obtain ⟨m, hm, hhas⟩ := h.leads ha lead hlead
    obtain rfl : m = b := Option.some.inj ((Store.follow?_mono hgrows hm).symm.trans hb)
    exact ⟨⟨lead, hlead, hm⟩, hhas⟩
  have hwalk : ∀ {ys a}, c.survey.has a = true → List.IsChain (d.store.Edge side) (a :: ys) →
      List.IsChain (c.store.Edge side) (a :: ys) ∧ ∀ y ∈ ys, c.survey.has y = true := by
    intro ys
    induction ys with
    | nil => exact fun _ _ => ⟨List.isChain_singleton _, nofun⟩
    | cons b rest ih =>
      intro a ha hchain
      obtain ⟨he, hrest⟩ := List.isChain_cons_cons.mp hchain
      obtain ⟨he', hb⟩ := hedge ha he
      obtain ⟨hrest', hall⟩ := ih hb hrest
      exact ⟨List.isChain_cons_cons.mpr ⟨he', hrest'⟩, List.forall_mem_cons.mpr ⟨hb, hall⟩⟩
  obtain ⟨xs, hchain, hxs⟩ := hloop
  obtain ⟨hchain', hvisited⟩ := hwalk hn hchain
  refine ⟨xs, hchain', fun x hx => ?_⟩
  have hhas := hvisited x (List.mem_append_left _ hx)
  refine ⟨hhas, ?_⟩
  rw [← hd.place hn, ← hd.place hhas]
  exact (hxs x hx).2

/-- What was charted and explored further is charted. -/
theorem explores {guide : Guide} (h : c.Charted guide.settings.side)
    (he : Explores guide [] [] c d) : d.Charted guide.settings.side := by
  obtain ⟨hgrows, hclosed⟩ := he.descends.store h.closed
  refine ⟨hclosed, he.descends.nodup h.nodup, fun {n} hn => ?_, fun {n} hn lead hlead => ?_,
    fun n => ?_⟩
  · cases hc : c.survey.has n with
    | true => exact hgrows.isSome (h.nodes hc)
    | false =>
      obtain ⟨v, hv⟩ := Survey.visit?_of_has hn
      obtain ⟨links, w, hw, -⟩ := he.contents hc hv
      exact isSome_of_contents? hw
  · cases hc : c.survey.has n with
    | true =>
      rw [Store.leads_eq hgrows h.closed _ (h.nodes hc)] at hlead
      obtain ⟨m, hm, hhas⟩ := h.leads hc lead hlead
      exact ⟨m, Store.follow?_mono hgrows hm, he.descends.has hhas⟩
    | false =>
      obtain ⟨m, hm, hhas, -⟩ := he.leads hc hn lead hlead
      exact ⟨m, hm, hhas⟩
  -- A mark is old or was made on a new loop; and a loop through a node that was followed before was
  -- there before.
  · constructor
    · intro hmark
      refine ⟨hmark.has, ?_⟩
      rcases he.loops hmark with hold | hloop
      · exact ((h.marks n).mp hold).2.mono he.descends h.closed hold.has
      · exact hloop
    · rintro ⟨hn, hloop⟩
      cases hc : c.survey.has n with
      | true =>
        have hold := (h.marks n).mpr ⟨hc, h.looped_back he.descends hc hloop⟩
        exact hold.mono he.descends
      | false => exact he.marks hc hn hloop

end Charted

end Conversion

namespace Converter

/-- The conversions that a session leads to, which visits roots and emits documents in any order.
    An emission may have any policy, and addresses of its own or none; it may fail. -/
inductive Session (conv : Converter) (store : Store) : Conversion → Prop
  | start : Session conv store (start store)
  | process {c d : Conversion} (root : NodeId) (h : Session conv store c)
      (hd : Returns (conv.process root) c () d) : Session conv store d
  | emit {c : Conversion} (linkage : Option Linkage) (policy : EmissionSettings) (root : NodeId)
      (h : Session conv store c) :
      Session conv store (conv.emit policy root { c with linkage }).2

namespace Session

variable {conv : Converter} {store : Store} {c : Conversion}

/-- **Sessions are charted.** All the time everything visited was followed, and the marks of
    cycles are exact. -/
theorem charted (hs : store.Closed) (h : Session conv store c) :
    c.Charted conv.guide.settings.side := by
  induction h with
  | start => exact .start hs
  | process root _ hd ih => exact ih.explores (process_explores ih.closed hd).1
  | @emit c linkage policy root _ ih =>
    have hlinked : Outlines c { c with linkage } := { }
    exact (ih.of_outlines hlinked).of_outlines (document_outlines { c with linkage })

end Session

end Converter

namespace Emission

variable {e : Emission}

/-- A cycle is rejected if and only if one of the marked nodes has no address of its own. -/
theorem isSome_rejectedCycle? (store : Store) (linkage : Option Linkage)
    (visits : List (NodeId × Visit)) :
    (e.rejectedCycle? store linkage visits).isSome ↔
      ∃ p ∈ visits, p.2.cycle.isSome ∧ e.hasOwnAddress store linkage p.1 = false := by
  induction visits with
  | nil => simp [rejectedCycle?]
  | cons p rest ih =>
    obtain ⟨n, v⟩ := p
    unfold rejectedCycle?
    cases hcycle : v.cycle with
    | none => simp [ih, hcycle]
    | some path =>
      by_cases hown : e.hasOwnAddress store linkage n = true
      · simp [ih, hcycle, hown]
      · simp [hcycle, hown]

/-- An emission that would be accepted otherwise is refused for a cycle if and only if one of the
    marked nodes has no address of its own. -/
theorem refusal?_cycle {c : Conversion} (hnodup : c.survey.order.Nodup)
    (hpolicy : e.policy.cycles = .reject) :
    (∃ path, e.refusal? c = some (.cycle path)) ↔
      ({ e with policy := { e.policy with cycles := .refer } }).refusal? c = none ∧
        ∃ n, c.Marked n ∧ e.hasOwnAddress c.store c.linkage n = false := by
  -- The search over the visits finds a node exactly if there is one.
  have hmarked : (∃ n, c.Marked n ∧ e.hasOwnAddress c.store c.linkage n = false) ↔
      (e.rejectedCycle? c.store c.linkage c.survey.visits).isSome := by
    rw [isSome_rejectedCycle?]
    constructor
    · rintro ⟨n, ⟨v, hv, hcycle⟩, hown⟩
      exact ⟨(n, v), Survey.mem_visits hv, hcycle, hown⟩
    · rintro ⟨⟨n, v⟩, hmem, hcycle, hown⟩
      exact ⟨n, ⟨v, visit?_of_mem hnodup hmem, hcycle⟩, hown⟩
  rw [hmarked, Option.isSome_iff_exists]
  unfold refusal?
  split
  · simp
  · split
    · simp
    · split
      · simp
      · simp

end Emission

namespace Converter

variable {conv : Converter} {store : Store} {c : Conversion}

/-- **Rejected cycles.** At any moment of a session in which cycles are not allowed, an emission
    that would be accepted otherwise is rejected if and only if some closed walk leads over visited
    nodes on which the node that was visited first has no address of its own; so it is rejected
    wherever no node of a closed walk has one. -/
theorem Session.emit_rejects_iff (hs : store.Closed) (h : Session conv store c)
    (linkage : Option Linkage) {policy : EmissionSettings} (hpolicy : policy.cycles = .reject)
    (root : NodeId)
    (hoverride : ∀ o, conv.override = some o → ∀ s n body path,
      (o s n body).2 ≠ some (.cycle path)) :
    let accepted := (conv.emission { policy with cycles := .refer } root).refusal?
      { c with linkage } = none
    let rejected := ∃ path, (conv.emit policy root { c with linkage }).1 = .error (.cycle path)
    let addressed := (conv.emission policy root).hasOwnAddress c.store linkage
    (rejected ↔ accepted ∧ ∃ n, c.survey.has n = true ∧
      Looped conv.guide.settings.side c n ∧ addressed n = false) ∧
    ∀ n xs, c.survey.has n = true →
      List.IsChain (c.store.Edge conv.guide.settings.side) (n :: (xs ++ [n])) →
      (∀ m ∈ n :: xs, addressed m = false) → (rejected ↔ accepted) := by
  intro accepted rejected addressed
  have hcharted := h.charted hs
  have hrefused : rejected ↔
      ∃ path, (conv.emission policy root).refusal? { c with linkage } = some (.cycle path) := by
    constructor
    · rintro ⟨path, hpath⟩
      refine ⟨path, ?_⟩
      rcases document_raises (Prod.ext hpath rfl) with hrefusal | ⟨-, hails⟩
      · exact hrefusal
      · -- nothing else fails with a cycle
        cases hails with
        | override ho hstop => exact absurd hstop (hoverride _ ho _ _ _ _)
    · rintro ⟨path, hpath⟩
      obtain ⟨d, hrun, -⟩ := document_refused hpath
      exact ⟨path, congrArg (·.1) hrun⟩
  -- A refusal looks for marks, and these are exact at any moment of the session.
  have hmarks : rejected ↔ accepted ∧ ∃ n, c.Marked n ∧ addressed n = false := by
    rw [hrefused]
    exact refusal?_cycle (c := { c with linkage }) hcharted.nodup hpolicy
  have hiff : rejected ↔ accepted ∧ ∃ n, c.survey.has n = true ∧
      Looped conv.guide.settings.side c n ∧ addressed n = false := by
    rw [hmarks]
    simp only [hcharted.marks, and_assoc]
  refine ⟨hiff, fun n xs hn hwalk hbare => ?_⟩
  obtain ⟨m, hm, hmark⟩ := hcharted.exists_marked hn hwalk
  rw [hmarks]
  exact ⟨fun h => h.1, fun h => ⟨h, m, hmark, hbare m hm⟩⟩

/-- Two objects that hold each other, and two objects that hold both of them, in different orders.
    The second one of the two has an id. -/
def heldPair : Store where
  nodes := [{ kind := .object, shape := some [("q", .node 1)] },
    { kind := .object, shape := some [("r", .node 0)] },
    { kind := .object, shape := some [("p", .node 0), ("s", .node 1)] },
    { kind := .object, shape := some [("s", .node 1), ("p", .node 0)] }]
  catalogs := [("global",
    { entries := [(.node 1, [(.str "id", .str "B")])], ids := [(.str "B", .node 1)] })]

/-- No child of the held pair is missing. -/
theorem heldPair_closed : heldPair.Closed := .of_forall (by decide) nofun nofun

/-- The conversion of a node of the held pair. -/
def heldPairConverted (root : NodeId) : Conversion :=
  (({} : Converter).process root (Conversion.start heldPair)).2

/-- The emission of the pair from its first holder is rejected: the way back to the object without
    an id leads over an object that was visited later. -/
theorem Session.emit_rejects_iff_heldPair :
    ∃ c, Session {} heldPair c ∧
      (∃ path, (({} : Converter).emit { cycles := .reject } (.node 2) { c with linkage := none }).1
        = .error (.cycle path)) ∧
      ∃ n, c.survey.has n = true ∧ Looped .output c n := by
  have hrun : Returns (({} : Converter).process (.node 2)) (Conversion.start heldPair) ()
      (heldPairConverted (.node 2)) := rfl
  have hsession : Session {} heldPair (heldPairConverted (.node 2)) :=
    .process (.node 2) .start hrun
  have hpolicy : ({ cycles := .reject } : EmissionSettings).cycles = .reject := rfl
  have hiff := (hsession.emit_rejects_iff heldPair_closed none hpolicy (.node 2) nofun).1
  have hrejected : ∃ path, (({} : Converter).emit { cycles := .reject } (.node 2)
      { heldPairConverted (.node 2) with linkage := none }).1 = .error (.cycle path) :=
    ⟨[.name "properties", .name "p", .name "properties", .name "q", .name "properties", .name "r"],
      by decide +kernel⟩
  obtain ⟨-, n, hn, hloop, -⟩ := hiff.mp hrejected
  exact ⟨_, hsession, hrejected, n, hn, hloop⟩

/-- Whether a cycle is rejected depends on more than the addresses on it: every closed walk over the
    nodes of the held pair leads over the object with an id, yet its emission is rejected from the
    one holder, and not from the other. -/
theorem Session.emit_rejects_addressed :
    let c := heldPairConverted (.node 2)
    let policy : EmissionSettings := { cycles := .reject }
    (∃ path, (({} : Converter).emit policy (.node 2) c).1 = .error (.cycle path)) ∧
    (∀ n xs, List.IsChain (c.store.Edge .output) (n :: (xs ++ [n])) →
      ∃ m ∈ n :: xs, (({} : Converter).emission policy (.node 2)).hasOwnAddress c.store none m) ∧
    (({} : Converter).emit policy (.node 3) (heldPairConverted (.node 3))).1.isOk := by
  refine ⟨⟨[.name "properties", .name "p", .name "properties", .name "q", .name "properties",
    .name "r"], by decide +kernel⟩, fun n xs hwalk => ?_, by decide +kernel⟩
  have hnodes : (heldPairConverted (.node 2)).store.nodes = heldPair.nodes := by decide +kernel
  have haddress : (({} : Converter).emission { cycles := .reject } (.node 2)).hasOwnAddress
      (heldPairConverted (.node 2)).store none (.node 1) = true := by decide +kernel
  generalize heldPairConverted (.node 2) = c at hnodes hwalk haddress
  have hnode : ∀ n, c.store.node? n = heldPair.node? n := by
    intro n
    unfold Store.node?
    rw [hnodes]
  have hleads : ∀ n, c.store.leads .output n = heldPair.leads .output n := by
    intro n
    unfold Store.leads Store.catchallKind
    simp only [hnode]
  -- from all other nodes edges lead to the object with an id, or to the one before it
  have htable : ∀ i < 4, i ≠ 1 → ∀ lead ∈ heldPair.leads .output (.node i),
      lead = .child (.node 1) ∨ lead = .child (.node 0) ∧ i ≠ 0 := by decide
  have hedge : ∀ {a b}, c.store.Edge .output a b → a ≠ .node 1 →
      b = .node 1 ∨ b = .node 0 ∧ a ≠ .node 0 := by
    rintro a b ⟨lead, hlead, hb⟩ ha
    rw [hleads] at hlead
    cases a with
    | gap => cases hlead
    | node i =>
      have hi : i < 4 := by
        by_contra hge
        have hnone : heldPair.node? (.node i) = none :=
          List.getElem?_eq_none (by simpa [heldPair] using hge)
        unfold Store.leads at hlead
        rw [hnone] at hlead
        cases hlead
      rcases htable i hi (by simpa using ha) lead hlead with rfl | ⟨rfl, hne⟩
      · exact .inl (Option.some.inj hb).symm
      · exact .inr ⟨(Option.some.inj hb).symm, by simpa using hne⟩
  by_contra hnone
  have havoids : ∀ m ∈ n :: xs, m ≠ .node 1 := by
    rintro m hm rfl
    exact hnone ⟨_, hm, haddress⟩
  have hn := havoids n (List.mem_cons_self ..)
  cases xs with
  | nil =>
    -- no node leads to itself
    have hloop : c.store.Edge .output n n := by simpa using hwalk
    rcases hedge hloop hn with rfl | ⟨rfl, hne⟩
    · exact hn rfl
    · exact hne rfl
  | cons x rest =>
    obtain ⟨hfirst, hrest⟩ := List.isChain_cons_cons.mp hwalk
    have hx : x ≠ .node 1 := havoids x (by simp)
    obtain ⟨rfl, -⟩ := (hedge hfirst hn).resolve_left hx
    -- behind the first object the walk cannot but meet the second one
    cases rest with
    | nil =>
      have hback : c.store.Edge .output (.node 0) n := by simpa using hrest
      rcases hedge hback hx with rfl | ⟨-, hne⟩
      · exact hn rfl
      · exact hne rfl
    | cons y more =>
      obtain ⟨hsecond, -⟩ := List.isChain_cons_cons.mp hrest
      rcases hedge hsecond hx with rfl | ⟨-, hne⟩
      · exact havoids _ (by simp) rfl
      · exact hne rfl

end Converter

end SchemaGraph
