import SchemaGraph.Proofs.Survey.Failing

namespace SchemaGraph

open SchemaGraph.Action

/-!
# Treks

A trek is a descent told arrival by arrival: which node is arrived at, below which nodes and on
which path, and whether it was visited before.  A node that was not visited is entered, and the
ways out of it come next.  A descent that fails has broken its trek off.

A node gets the mark of a cycle whenever it is met below itself, and an earlier mark is lost.  So a
mark is the path of the last such arrival.

* `Store.ways`               — the ways out of a node: its children with the paths to them
* `Trek`                     — going along ways depth first
* `lastLoop?`                — the path on which a node was last met below itself
* `Conversion.arrive_travels` — every arrival is a trek, whatever comes of it
-/

/-! ### Ways -/

/-- The way that a step takes to a child. -/
def Step.way? (s : Store) (n : NodeId) : Step → Option (NodeId × Path)
  | .inheritResolved path => (s.follow? n .answer).map fun m => (m, path)
  | step => step.child?

/-- The ways out of a node that is lowered on a path. -/
def Store.ways (s : Store) (settings : LoweringSettings) (n : NodeId) (path : Path) :
    List (NodeId × Path) :=
  match s.node? n with
  | some node => (node.recipe settings (s.catchallKind node) path).filterMap (Step.way? s n)
  | none => []

/-- The ways out of a node are there as soon as the node is. -/
theorem Store.ways_eq {s t : Store} (h : Grows s t) (hs : s.Closed) {settings : LoweringSettings}
    {n : NodeId} {node : Node} (hn : s.node? n = some node) (path : Path) :
    t.ways settings n path =
      (node.recipe settings (s.catchallKind node) path).filterMap (Step.way? t n) := by
  unfold ways
  rw [h.node? hn]
  dsimp only
  rw [Store.catchallKind_eq h hs hn]

/-! ### Arrivals -/

/-- An arrival at a node, below the nodes above and on a path. -/
structure Arrival where
  above : List NodeId
  node : NodeId
  path : Path
  /-- Whether the node was visited before. -/
  again : Bool
deriving DecidableEq, Repr

/-- The node is met below itself. -/
def Arrival.loops (a : Arrival) : Bool := a.again && decide (a.node ∈ a.above)

/-- The path on which a node was last met below itself. -/
def lastLoop? (arrivals : List Arrival) (n : NodeId) : Option Path :=
  (arrivals.filter fun a => a.node = n ∧ a.loops).getLast?.map (·.path)

/-- The last loop of arrivals is that of the later ones, if they have any. -/
theorem lastLoop?_append (as bs : List Arrival) (n : NodeId) :
    lastLoop? (as ++ bs) n = (lastLoop? bs n).or (lastLoop? as n) := by
  unfold lastLoop?
  rw [List.filter_append, List.getLast?_append]
  cases (bs.filter _).getLast? <;> rfl

/-- One arrival is the last loop of its node if it loops. -/
theorem lastLoop?_singleton (a : Arrival) (n : NodeId) :
    lastLoop? [a] n = if a.node = n ∧ a.loops then some a.path else none := by
  unfold lastLoop?
  by_cases h : a.node = n ∧ a.loops
  · simp [h]
  · simp [h]

/-- Going depth first along ways, below the nodes above and behind those that were seen.  A node
    that was seen is passed over; another one is entered, and the ways out of it come next.  The trek
    may break off before any arrival, and then ends there altogether. -/
inductive Trek (ways : NodeId → Path → List (NodeId × Path)) :
    List NodeId → List NodeId → List (NodeId × Path) → List Arrival → List NodeId → Bool → Prop
  | done (above seen : List NodeId) : Trek ways above seen [] [] seen true
  | stop (above seen : List NodeId) (ahead : List (NodeId × Path)) :
      Trek ways above seen ahead [] seen false
  | again {above seen out : List NodeId} {n : NodeId} {path : Path} {rest : List (NodeId × Path)}
      {arrivals : List Arrival} {whole : Bool} (hn : n ∈ seen)
      (h : Trek ways above seen rest arrivals out whole) :
      Trek ways above seen ((n, path) :: rest) (⟨above, n, path, true⟩ :: arrivals) out whole
  | enter {above seen mid out : List NodeId} {n : NodeId} {path : Path}
      {rest : List (NodeId × Path)} {below arrivals : List Arrival} {whole : Bool} (hn : n ∉ seen)
      (hbelow : Trek ways (n :: above) (seen ++ [n]) (ways n path) below mid true)
      (h : Trek ways above mid rest arrivals out whole) :
      Trek ways above seen ((n, path) :: rest)
        (⟨above, n, path, false⟩ :: (below ++ arrivals)) out whole
  | broken {above seen out : List NodeId} {n : NodeId} {path : Path} {rest : List (NodeId × Path)}
      {below : List Arrival} (hn : n ∉ seen)
      (hbelow : Trek ways (n :: above) (seen ++ [n]) (ways n path) below out false) :
      Trek ways above seen ((n, path) :: rest) (⟨above, n, path, false⟩ :: below) out false

namespace Trek

variable {ways : NodeId → Path → List (NodeId × Path)} {above seen mid out : List NodeId}
  {ahead more : List (NodeId × Path)} {as bs : List Arrival} {whole : Bool}

/-- A trek that was broken off has not come to what was ahead behind. -/
theorem append_broken (h : Trek ways above seen ahead as out false) :
    Trek ways above seen (ahead ++ more) as out false := by
  generalize hwhole : false = whole at h
  induction h with
  | done above seen => cases hwhole
  | stop above seen ahead => exact .stop above seen _
  | again hn _ ih => exact .again hn (ih hwhole)
  | enter hn hbelow _ _ ih => exact .enter hn hbelow (ih hwhole)
  | broken hn hbelow _ => exact .broken hn hbelow

/-- Treks over one list of ways and over a second one make a trek over both. -/
theorem append (h₁ : Trek ways above seen ahead as mid true)
    (h₂ : Trek ways above mid more bs out whole) :
    Trek ways above seen (ahead ++ more) (as ++ bs) out whole := by
  generalize htrue : true = first at h₁
  induction h₁ with
  | done above seen => exact h₂
  | stop above seen ahead => cases htrue
  | again hn _ ih => exact .again hn (ih h₂ htrue)
  | enter hn hbelow _ _ ih =>
    rw [List.cons_append, List.cons_append, List.append_assoc]
    exact .enter hn hbelow (ih h₂ htrue)
  | broken hn hbelow _ => cases htrue

end Trek

/-! ### Descents are treks -/

namespace Conversion

/-- The mark that a node carries. -/
def mark? (c : Conversion) (n : NodeId) : Option Path := (c.survey.visit? n).bind (·.cycle)

/-- The marks behind arrivals: nodes that were met below themselves have got new ones. -/
def Marks (arrivals : List Arrival) (c d : Conversion) : Prop :=
  ∀ n, d.mark? n = (lastLoop? arrivals n).or (c.mark? n)

/-- The action makes the arrivals of a trek over the given ways. -/
def Travels {α : Type} (ways : NodeId → Path → List (NodeId × Path)) (above : List NodeId)
    (ahead : List (NodeId × Path)) (a : Action Conversion α) (c : Conversion) : Prop :=
  ∃ arrivals, Trek ways above c.survey.order ahead arrivals (a c).2.survey.order (a c).1.isOk ∧
    Marks arrivals c (a c).2

section Travels

variable {α β : Type} {ways : NodeId → Path → List (NodeId × Path)} {above : List NodeId}
  {ahead more : List (NodeId × Path)} {a : Action Conversion α} {c d : Conversion} {n : NodeId}

/-- Marks behind arrivals, and behind more arrivals, are marks behind all of them. -/
theorem Marks.append {as bs : List Arrival} {e : Conversion} (h₁ : Marks as c d)
    (h₂ : Marks bs d e) : Marks (as ++ bs) c e := by
  intro n
  rw [h₂ n, h₁ n, lastLoop?_append, Option.or_assoc]

/-- Actions that travel one after the other travel over the ways of both. -/
theorem Travels.bind {f : α → Action Conversion β} (ha : Travels ways above ahead a c)
    (hf : ∀ x d, Returns a c x d → Travels ways above more (f x) d) :
    Travels ways above (ahead ++ more) (a >>= f) c := by
  obtain ⟨as, htrek, hmarks⟩ := ha
  unfold Travels
  rw [run_bind]
  rcases hrun : a c with ⟨e | x, d⟩
  · rw [hrun] at htrek hmarks
    exact ⟨as, htrek.append_broken, hmarks⟩
  · rw [hrun] at htrek hmarks
    obtain ⟨bs, htrek', hmarks'⟩ := hf x d hrun
    exact ⟨as ++ bs, htrek.append htrek', hmarks.append hmarks'⟩

/-- What fails without entering or marking anything breaks off. -/
theorem Travels.stop (hfails : (a c).1.isOk = false)
    (horder : (a c).2.survey.order = c.survey.order) (hmark : ∀ n, (a c).2.mark? n = c.mark? n) :
    Travels ways above ahead a c :=
  ⟨[], by rw [hfails, horder]; exact .stop above _ ahead, hmark⟩

/-- What enters nothing and marks nothing is no way at all. -/
theorem Travels.quiet (horder : (a c).2.survey.order = c.survey.order)
    (hmark : ∀ n, (a c).2.mark? n = c.mark? n) : Travels ways above [] a c := by
  cases hok : (a c).1.isOk with
  | false => exact .stop hok horder hmark
  | true => exact ⟨[], by rw [hok, horder]; exact .done above _, hmark⟩

/-- What concerns the store alone arrives nowhere. -/
theorem travels_onStore (a : Action Store α) : Travels ways above [] (onStore a) c :=
  .quiet rfl fun _ => rfl

/-- A failure arrives nowhere, whatever lies ahead. -/
theorem travels_fail (f : Failure) :
    Travels ways above ahead (fail f : Action Conversion α) c := by
  refine .stop ?_ rfl fun _ => rfl
  by_contra hok
  obtain ⟨x, hx⟩ := exists_returns (by simpa using hok)
  exact not_returns_fail hx

/-- A change of one visit leaves the marks alone, if it leaves the mark of the visit alone. -/
theorem mark?_onVisit {f : Visit → Visit} (hf : ∀ v, (f v).cycle = v.cycle) (m : NodeId) :
    mark? { c with survey := c.survey.modify n f } m = c.mark? m := by
  unfold mark?
  show ((c.survey.modify n f).visit? m).bind _ = _
  by_cases hm : m = n
  · subst hm
    rw [Survey.visit?_modify_self, Option.bind_map]
    exact congrArg _ (funext hf)
  · rw [Survey.visit?_modify_of_ne hm]

/-- A change of a visit that keeps its mark arrives nowhere. -/
theorem travels_onVisit {f : Visit → Visit} (hf : ∀ v, (f v).cycle = v.cycle) :
    Travels ways above [] (onVisit n f) c :=
  .quiet (Survey.order_modify c.survey n f) (mark?_onVisit hf)

/-- What an action does behind which nothing is arrived at. -/
theorem Travels.bind_quiet {f : α → Action Conversion β} (ha : Travels ways above ahead a c)
    (hf : ∀ x d, Returns a c x d → Travels ways above [] (f x) d) :
    Travels ways above ahead (a >>= f) c := by
  have h := ha.bind hf
  rwa [List.append_nil] at h

/-- What an action does before which nothing is arrived at. -/
theorem Travels.quiet_bind {f : α → Action Conversion β} (ha : Travels ways above [] a c)
    (hf : ∀ x d, Returns a c x d → Travels ways above ahead (f x) d) :
    Travels ways above ahead (a >>= f) c :=
  ha.bind hf

end Travels

/-- What is known of visits: they descend, and make the arrivals of treks over the graph as it is in
    the end. -/
structure Traveling (settings : LoweringSettings) (final : Store) (above : List NodeId)
    (visit : NodeId → Path → Action Conversion Unit) : Prop where
  within : ∀ m path, Within (Descends []) (visit m path)
  travels : ∀ {m path c}, c.store.Closed → Store.Grows (visit m path c).2.store final →
    Travels (final.ways settings) above [(m, path)] (visit m path) c

variable {settings : LoweringSettings} {final : Store} {above : List NodeId} {n : NodeId}
  {side : Side} {visit : NodeId → Path → Action Conversion Unit} {c : Conversion}

/-- A sequence leaves what its second part leaves where the first one has returned. -/
theorem grows_of_returns {α β : Type} {a : Action Conversion α} {f : α → Action Conversion β}
    {x : α} {d : Conversion} (ha : Returns a c x d)
    (hfinal : Store.Grows ((a >>= f) c).2.store final) : Store.Grows (f x d).2.store final := by
  rwa [run_bind, show a c = (.ok x, d) from ha] at hfinal

/-- What a sequence leaves has grown out of what its first part leaves. -/
theorem grows_of_bind {α β : Type} {own : List NodeId} {a : Action Conversion α}
    {f : α → Action Conversion β} (hclosed : (a c).2.store.Closed)
    (hf : ∀ x, Within (Descends own) (f x))
    (hfinal : Store.Grows ((a >>= f) c).2.store final) : Store.Grows (a c).2.store final := by
  rw [run_bind] at hfinal
  rcases hrun : a c with ⟨e | x, d⟩
  · rw [hrun] at hfinal
    exact hfinal
  · rw [hrun] at hfinal hclosed
    exact ((hf x d).store hclosed).1.trans hfinal

/-- A step of a recipe goes the way that it takes. -/
theorem perform_travels (hvisit : Traveling settings final above visit) (step : Step)
    (hs : c.store.Closed) (hfinal : Store.Grows (perform side visit n step c).2.store final) :
    Travels (final.ways settings) above (step.way? final n).toList (perform side visit n step) c := by
  cases step with
  | write key value => exact travels_onVisit fun _ => rfl
  | merge entries => exact travels_onVisit fun _ => rfl
  | property name child => exact travels_onVisit fun _ => rfl
  | prefault value => exact travels_onVisit fun _ => rfl
  | visit child path => exact hvisit.travels hs hfinal
  | require shape =>
    exact (travels_onStore _).bind_quiet fun _ _ _ => travels_onVisit fun _ => rfl
  | inherit child path =>
    have hclosed := ((hvisit.within child path c).store hs).2
    -- The graph of the end is a growth of the one behind the visit.
    have hgrows := grows_of_bind hclosed (fun _ => passOn_within n child) hfinal
    exact (hvisit.travels hs hgrows).bind_quiet fun _ _ _ => travels_onVisit fun _ => rfl
  | inheritResolved path =>
    refine (travels_onStore _).quiet_bind fun answer d hd => ?_
    have hfinal := grows_of_returns hd hfinal
    obtain ⟨s, hresolve, rfl⟩ := returns_onStore.mp hd
    cases answer with
    | value v => exact travels_fail _
    | node child =>
      have hs : s.Closed := ((Store.resolve_keeps n).of_returns hresolve hs).2
      obtain ⟨hkept, hclosed⟩ := (hvisit.within child path { c with store := s }).store hs
      have hgrows := grows_of_bind hclosed (fun _ => passOn_within n child) hfinal
      -- What the lazy node answers now it answers in the end, so the way is the same.
      have hanswer : s.follow? n .answer = some child := by
        simp only [Store.follow?, Store.resolve_returns hresolve ‹_›]
      have hway : Step.way? final n (.inheritResolved path) = some (child, path) := by
        simp [Step.way?, Store.follow?_mono (hkept.trans hgrows) hanswer]
      rw [hway]
      exact (hvisit.travels hs hgrows).bind_quiet fun _ _ _ => travels_onVisit fun _ => rfl
  | inheritSource child path =>
    refine (travels_onVisit (f := fun v => { v with target := some child }) fun _ => rfl).quiet_bind
      fun _ d hd => ?_
    have hfinal := grows_of_returns hd hfinal
    have hs : d.store.Closed := (returns_onVisit.mp hd) ▸ hs
    have hclosed := ((hvisit.within child path d).store hs).2
    have hmark : Within (Descends []) (onVisit child fun v => { v with isSource := true }) :=
      isSource_within child
    have hgrows := grows_of_bind hclosed (fun _ => hmark) hfinal
    exact (hvisit.travels hs hgrows).bind_quiet fun _ _ _ => travels_onVisit fun _ => rfl
  | fail f => exact travels_fail f

/-- The steps of a recipe go the ways that they take. -/
theorem performAll_travels (hvisit : Traveling settings final above visit) (steps : List Step)
    (hs : c.store.Closed) (hfinal : Store.Grows (performAll side visit n steps c).2.store final) :
    Travels (final.ways settings) above (steps.filterMap (Step.way? final n))
      (performAll side visit n steps) c := by
  induction steps generalizing c with
  | nil => exact .quiet rfl fun _ => rfl
  | cons step rest ih =>
    have hstep : Within (Descends [n]) (perform side visit n step) :=
      perform_within hvisit.within n step
    have hrest : Within (Descends [n]) (performAll side visit n rest) :=
      performAll_within hvisit.within n rest
    have hclosed := ((hstep c).store hs).2
    have hways : (step :: rest).filterMap (Step.way? final n) =
        (step.way? final n).toList ++ rest.filterMap (Step.way? final n) := by
      rw [List.filterMap_cons]
      cases step.way? final n <;> rfl
    rw [hways]
    refine (perform_travels hvisit step hs (grows_of_bind hclosed (fun _ => hrest) hfinal)).bind
      fun _ d hd => ih ?_ ?_
    · rwa [show perform side visit n step c = (.ok (), d) from hd] at hclosed
    · exact grows_of_returns (f := fun _ => performAll side visit n rest) hd hfinal

variable {guide : Guide}

/-- What a lowered node is annotated with enters nothing and marks nothing. -/
theorem travels_annotate {ways : NodeId → Path → List (NodeId × Path)} (catalog : String) :
    Travels ways above [] (annotate catalog n) c := by
  refine Travels.quiet_bind (.quiet rfl fun _ => rfl) fun d _ hd => ?_
  split
  · exact travels_onVisit fun _ => rfl
  · exact .quiet rfl fun _ => rfl

/-- A node that is lowered goes its ways. -/
theorem lower_travels (hvisit : Traveling guide.settings final above visit) (path : Path)
    (hs : c.store.Closed) (hfinal : Store.Grows (lower guide visit n path c).2.store final) :
    Travels (final.ways guide.settings) above (final.ways guide.settings n path)
      (lower guide visit n path) c := by
  have hlower : Within (Descends [n]) (lower guide visit n path) :=
    lower_within hvisit.within n path
  have hgrows := ((hlower c).store hs).1.trans hfinal
  refine (travels_onStore _).quiet_bind fun node d hd => ?_
  have hfinal := grows_of_returns hd hfinal
  obtain ⟨s, hfetch, rfl⟩ := returns_onStore.mp hd
  obtain ⟨hnode, rfl⟩ := Store.returns_fetch.mp hfetch
  refine Travels.quiet_bind (.quiet rfl fun _ => rfl) fun d e he => ?_
  have hfinal := grows_of_returns he hfinal
  obtain ⟨rfl, rfl⟩ := returns_get.mp he
  rw [Store.ways_eq hgrows hs hnode]
  have hall : Within (Descends [n]) (performAll guide.settings.side visit n
      (node.recipe guide.settings (c.store.catchallKind node) path)) :=
    performAll_within hvisit.within n _
  have htreads := treads_within n
  -- Behind the recipe there is nothing that leads on.
  have hbehind : Within (Descends [n]) (do
      annotate guide.catalog n
      if guide.settings.side = .input then onVisit n (settleDefault node.kind)) :=
    .bind (htreads.annotate guide.catalog) fun _ => htreads.settleDefault guide.settings.side node.kind
  have hsteps := grows_of_bind ((hall c).store hs).2 (fun _ => hbehind) hfinal
  refine (performAll_travels hvisit _ hs hsteps).bind_quiet fun _ e _ => ?_
  refine (travels_annotate guide.catalog).bind_quiet fun _ e _ => ?_
  split
  · exact travels_onVisit fun _ => rfl
  · exact .quiet rfl fun _ => rfl

/-- A node that is met again is passed over, and marked if it is met below itself. -/
theorem revisit_travels {ways : NodeId → Path → List (NodeId × Path)} (hn : c.survey.has n = true)
    (path : Path) : Travels ways above [(n, path)] (revisit above n path) c := by
  obtain ⟨v, hv⟩ := Survey.visit?_of_has hn
  -- Coming back to a node never fails.
  have hok : (revisit above n path c).1.isOk = true := by
    unfold revisit
    by_cases hmem : n ∈ above
    · rw [if_pos hmem]
      rfl
    · rw [if_neg hmem]
      rfl
  obtain ⟨⟨⟩, hd⟩ := exists_returns hok
  generalize (revisit above n path c).2 = d at hd
  obtain ⟨horder, hother, hself⟩ := revisit_returns hv hd
  refine ⟨[⟨above, n, path, true⟩], ?_, fun m => ?_⟩
  · rw [show revisit above n path c = (.ok (), d) from hd]
    show Trek ways above c.survey.order [(n, path)] _ d.survey.order true
    rw [horder]
    exact .again ((Survey.has_iff _ _).mp hn) (.done above _)
  · rw [show revisit above n path c = (.ok (), d) from hd, lastLoop?_singleton]
    unfold mark?
    by_cases hm : m = n
    · subst hm
      rw [hself, hv]
      by_cases hmem : m ∈ above <;> simp [Arrival.loops, hmem]
    · rw [hother m hm]
      simp [Ne.symm hm]

/-- A node that is entered carries no mark, nor does the arrival at it give one. -/
theorem marks_entered (hn : c.survey.has n = false) (path : Path) :
    Marks [⟨above, n, path, false⟩] c (c.entered n) := by
  intro m
  rw [lastLoop?_singleton]
  unfold mark? entered
  dsimp only
  by_cases hm : m = n
  · subst hm
    have hnone : c.survey.visit? m = none := by simpa [Survey.has] using hn
    rw [Survey.visit?_enter_self hn, hnone]
    simp [Arrival.loops]
  · rw [Survey.visit?_enter_of_ne hm]
    simp [Ne.symm hm]

/-- A node that is entered is one arrival, with the ways out of it behind. -/
theorem Travels.of_entered {ways : NodeId → Path → List (NodeId × Path)} {path : Path}
    {a : Action Conversion Unit} (hn : c.survey.has n = false)
    (h : Travels ways (n :: above) (ways n path) a (c.entered n)) :
    ∃ arrivals, Trek ways above c.survey.order [(n, path)] arrivals
        (a (c.entered n)).2.survey.order (a (c.entered n)).1.isOk ∧
      Marks arrivals c (a (c.entered n)).2 := by
  obtain ⟨below, htrek, hmarks⟩ := h
  have hnew : n ∉ c.survey.order := fun hmem => by
    rw [← Survey.has_iff, hn] at hmem
    cases hmem
  have hentered : (c.entered n).survey.order = c.survey.order ++ [n] := Survey.order_enter _ _
  rw [hentered] at htrek
  refine ⟨⟨above, n, path, false⟩ :: below, ?_, (marks_entered hn path).append hmarks⟩
  cases hok : (a (c.entered n)).1.isOk with
  | true =>
    rw [hok] at htrek
    -- nothing is ahead of the node itself
    have h : Trek ways above c.survey.order [(n, path)] (⟨above, n, path, false⟩ :: (below ++ []))
        (a (c.entered n)).2.survey.order true := .enter hnew htrek (.done above _)
    rwa [List.append_nil] at h
  | false =>
    rw [hok] at htrek
    exact .broken hnew htrek

/-- **Arrivals are treks.** Whatever comes of an arrival, it makes the arrivals of a trek, which is
    broken off if it fails; and the marks are those of the last arrivals from below. -/
theorem arrive_travels (guide : Guide) (final : Store) (depth : Nat) (above : List NodeId) :
    Traveling guide.settings final above (arrive guide depth above) := by
  induction depth generalizing above with
  | zero =>
    refine ⟨arrive_within 0 above, fun {m path c} hs hfinal => ?_⟩
    unfold Travels
    rw [arrive_eq]
    split
    · rename_i hm
      exact revisit_travels hm path
    · rename_i hm
      exact Travels.of_entered (a := fail .endless) (by simpa using hm) (travels_fail _)
  | succ depth ih =>
    refine ⟨arrive_within (depth + 1) above, fun {m path c} hs hfinal => ?_⟩
    rw [arrive_eq] at hfinal
    unfold Travels
    rw [arrive_eq]
    split at hfinal
    · rename_i hm
      rw [if_pos hm]
      exact revisit_travels hm path
    · rename_i hm
      rw [if_neg hm]
      exact Travels.of_entered (by simpa using hm) (lower_travels (ih (m :: above)) path hs hfinal)

/-- A descent below given nodes is an arrival. -/
theorem visit_run (n : NodeId) (ancestors : List NodeId) (path : Path) (c : Conversion) :
    Conversion.visit guide n ancestors path c =
      arrive guide (c.store.extent + 2) ancestors n path c := by
  unfold Conversion.visit
  rw [run_bind]
  rfl

/-- A descent is a trek. -/
theorem visit_travels (guide : Guide) (final : Store) (above : List NodeId) :
    Traveling guide.settings final above fun n path => Conversion.visit guide n above path where
  within n path := visit_within n above path
  travels {n path c} hs hfinal := by
    unfold Travels
    rw [visit_run] at hfinal ⊢
    exact (arrive_travels guide final _ above).travels hs hfinal

end Conversion

namespace Converter

open Conversion

variable {conv : Converter}

/-- A visit to a root is a trek. -/
theorem process_travels {final : Store} {root : NodeId} {c : Conversion} (hs : c.store.Closed)
    (hfinal : Store.Grows (conv.process root c).2.store final) :
    Travels (final.ways conv.guide.settings) [] [(root, [])] (conv.process root) c := by
  have hvisit := visit_travels conv.guide final []
  have hbehind : Within (Descends []) (do
      let s ← get
      let kind := ((s.store.node? root).map (·.kind.name)).getD ""
      log (conv.processedEvent kind s.survey.size)) := .bind within_get fun _ => log_within _
  have hclosed := ((hvisit.within root [] c).store hs).2
  have hgrows := grows_of_bind hclosed (fun _ => hbehind) hfinal
  refine (hvisit.travels hs hgrows).bind_quiet fun _ d _ => ?_
  exact Travels.quiet_bind (.quiet rfl fun _ => rfl) fun _ _ _ => travels_onStore _

end Converter

end SchemaGraph
