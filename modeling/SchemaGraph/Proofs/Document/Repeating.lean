import SchemaGraph.Export
import SchemaGraph.Proofs.Document.Lockstep
import SchemaGraph.Proofs.Document.Reaching
import SchemaGraph.Proofs.Document.Standing
import SchemaGraph.Proofs.Document.Untouched

namespace SchemaGraph

open SchemaGraph.Action Conversion

/-!
# Conversions run again

A conversion that has left the lists of annotations alone comes to the same when it is run again
from the store that it leaves.  Its survey has another number then, and the fragments of the former
survey are left behind; nothing that was given points at either.

* `Conversion.Alike`   — conversions that differ in the number of their survey and in their lists
* `Conversion.Mirrors` — alike conversions, with the same lists as long as all that wait are modest
* `Action.Tracks`      — an action that returns does the same in a conversion that mirrors the first
* `Emission.tracks_document` — emissions do
* `Converter.document_again`, `Converter.documents_again` — conversions return the same again
-/

/-- What a conversion holds points at no surveys that are still to come. -/
abbrev Conversion.Past (count : Nat) (c : Conversion) : Prop := c.Reaches (fun _ => True) count

/-! ### Conversions that mirror each other -/

/-- The fragments that surveys have left behind are the same before some number. -/
structure Stacks (count : Nat) (older newer : List (List (NodeId × Entries))) : Prop where
  same : ∀ k < count, newer[k]? = older[k]?
  past : ∀ k < count, ∀ fragments, older[k]? = some fragments → ∀ p ∈ fragments,
    p.2.Each (Value.Past count)

namespace Conversion

variable {archive : List (List (NodeId × Entries))} {number : Nat}

/-- The conversions differ in events and lists, and the later one has a survey of a given number,
    with given fragments left behind. -/
def Alike (archive : List (List (NodeId × Entries))) (number : Nat) (c d : Conversion) : Prop :=
  ∃ events lists, d = { c with
    store := { c.store with events, archive, lists }
    survey := { c.survey with number } }

/-- The steps of an emission keep conversions alike. -/
theorem lockstep_alike : Emission.Lockstep (Alike archive number) where
  parallel {c d} h := by
    obtain ⟨events, lists, rfl⟩ := h
    obtain ⟨table, htable⟩ := exists_table c.linkage
    refine ⟨events, archive, lists, number, c.survey.emitted, c.survey.standalone, table, ?_⟩
    rw [← htable]
  modify _ _ h := by
    obtain ⟨events, lists, rfl⟩ := h
    exact ⟨events, lists, rfl⟩
  count h := by
    obtain ⟨events, lists, rfl⟩ := h
    exact ⟨events, lists, rfl⟩
  record e h := by
    obtain ⟨events, lists, rfl⟩ := h
    exact ⟨events ++ [e], lists, rfl⟩

/-- The conversions are alike, and what they hold points at no survey that is still to come.  Their
    lists are the same, unless more has become a reference than was to be expected. -/
structure Mirrors (target : Target) (refs : NodeId → Prop) (count : Nat)
    (archive : List (List (NodeId × Entries))) (number : Nat) (c d : Conversion) : Prop where
  alike : Alike archive number c d
  before : count ≤ c.survey.number
  archives : Stacks count c.store.archive archive
  past : c.Past count
  modest : Emission.Modest target refs c
  lists : (∀ n, c.survey.IsReference n → refs n) →
    d.store.lists = c.store.lists ∧ ∀ xs ∈ c.store.lists, ∀ v ∈ xs, v.Past count

end Conversion

namespace Action

open Emission

variable {target : Target} {refs : NodeId → Prop} {count number : Nat}
  {archive : List (List (NodeId × Entries))} {α β : Type}

/-- The action conserves annotations; and if it returns and leaves no more references than are to be
    expected, it returns the same in a conversion that mirrors the first one. -/
structure Tracks (target : Target) (refs : NodeId → Prop) (count : Nat)
    (archive : List (List (NodeId × Entries))) (number : Nat) (a : Action Conversion α) : Prop where
  conserves : Within (Conserves target refs) a
  again : ∀ {c x c' d}, Mirrors target refs count archive number c d →
    (∀ n, c'.survey.IsReference n → refs n) → Returns a c x c' →
    ∃ d', Returns a d x d' ∧ Mirrors target refs count archive number c' d'

namespace Tracks

/-- An action that only returns tracks. -/
theorem pure (x : α) : Tracks target refs count archive number (Pure.pure x) where
  conserves := within_pure x
  again {_ _ _ d} hcd _ h := by
    obtain ⟨rfl, rfl⟩ := returns_pure.mp h
    exact ⟨d, rfl, hcd⟩

/-- A failure tracks. -/
theorem fail (f : Failure) :
    Tracks target refs count archive number (Conversion.fail f : Action Conversion α) where
  conserves := fail_conserves f
  again _ _ h := absurd h not_returns_fail

/-- In sequence, what the first action returns may be known to the second. -/
theorem bindOf {a : Action Conversion α} {f : α → Action Conversion β} {P : α → Prop}
    (ha : Tracks target refs count archive number a)
    (hP : ∀ {c x c'}, c.Past count → Returns a c x c' → P x)
    (hconserves : ∀ x, Within (Conserves target refs) (f x))
    (hf : ∀ x, P x → Tracks target refs count archive number (f x)) :
    Tracks target refs count archive number (a >>= f) where
  conserves := ha.conserves.bind hconserves
  again hcd hrefs h := by
    obtain ⟨x, c₁, h₁, h₂⟩ := returns_bind.mp h
    -- what is a reference in between is one in the end
    have hrefs₁ : ∀ n, c₁.survey.IsReference n → refs n := fun n hn =>
      hrefs n (((hconserves x).of_returns h₂).references n hn)
    obtain ⟨d₁, hd₁, hmirrors₁⟩ := ha.again hcd hrefs₁ h₁
    obtain ⟨d₂, hd₂, hmirrors₂⟩ := (hf x (hP hcd.past h₁)).again hmirrors₁ hrefs h₂
    exact ⟨d₂, returns_bind.mpr ⟨x, d₁, hd₁, hd₂⟩, hmirrors₂⟩

/-- Actions that track one after the other track together. -/
theorem bind {a : Action Conversion α} {f : α → Action Conversion β}
    (ha : Tracks target refs count archive number a)
    (hf : ∀ x, Tracks target refs count archive number (f x)) :
    Tracks target refs count archive number (a >>= f) :=
  ha.bindOf (P := fun _ => True) (fun _ _ => trivial) (fun x => (hf x).conserves) fun x _ => hf x

/-- An action that looks at a conversion in a way that does not tell it from those that mirror it. -/
theorem read {f : Conversion → Action Conversion β}
    (hread : ∀ {c d}, Mirrors target refs count archive number c d → f d = f c)
    (hf : ∀ c, c.Past count → Tracks target refs count archive number (f c))
    (hconserves : ∀ c, Within (Conserves target refs) (f c)) :
    Tracks target refs count archive number (get >>= f) where
  conserves := within_get.bind hconserves
  again {c _ _ d} hcd hrefs h := by
    obtain ⟨_, _, hget, h₁⟩ := returns_bind.mp h
    obtain ⟨rfl, rfl⟩ := returns_get.mp hget
    obtain ⟨d', hd', hmirrors⟩ := (hf _ hcd.past).again hcd hrefs h₁
    refine ⟨d', returns_bind.mpr ⟨d, d, rfl, ?_⟩, hmirrors⟩
    rw [hread hcd]
    exact hd'

/-- An action that keeps conversions alike, conserves annotations and points at nothing else. -/
theorem of_respects {a : Action Conversion α} (hrespects : Respects (Alike archive number) a)
    (hconserves : Within (Conserves target refs) a)
    (hpast : ∀ {c : Conversion}, c.Past count → (a c).2.Past count) :
    Tracks target refs count archive number a where
  conserves := hconserves
  again {c x c' d} hcd hrefs h := by
    obtain ⟨hresult, halike⟩ := hrespects c d hcd.alike
    have hpast' := hpast hcd.past
    rw [show a c = (.ok x, c') from h] at hresult halike hpast'
    have hd : Returns a d x (a d).2 := Prod.ext hresult.symm rfl
    have hc := hconserves.of_returns h
    have hd' := hconserves.of_returns hd
    refine ⟨_, hd, halike, ?_, ?_, hpast', hc.modest hcd.modest, fun hmore => ?_⟩
    · rw [hc.rests.number]
      exact hcd.before
    · have harchive := hcd.archives
      rwa [← hc.store.archive] at harchive
    · -- on both sides the lists are what they were
      have hkept := hc.lists hcd.modest hmore
      have hbefore := hcd.lists fun n hn => hmore n (hc.references n hn)
      have hsame : (a d).2.store.lists = d.store.lists := by
        obtain ⟨events, lists, heq⟩ := halike
        obtain ⟨events₀, lists₀, heq₀⟩ := hcd.alike
        refine hd'.lists ?_ fun n hn => hmore n ?_
        · rw [heq₀]
          exact hcd.modest
        · rw [heq] at hn
          exact hn
      rw [hsame, hkept]
      exact hbefore

end Tracks

end Action

namespace Emission

variable {e : Emission} {refs : NodeId → Prop} {count number : Nat}
  {archive : List (List (NodeId × Entries))}

/-! ### Emissions -/

/-- The views of conversions that mirror each other are twins. -/
theorem twins_of_mirrors {target : Target} {c d : Conversion} (hnumber : count ≤ number)
    (h : Mirrors target refs count archive number c d)
    (hrefs : ∀ n, c.survey.IsReference n → refs n) :
    View.Twins (fun _ => True) count c.view d.view := by
  obtain ⟨hlists, hpastList⟩ := h.lists hrefs
  obtain ⟨events, lists, hsame⟩ := h.alike
  refine Conversion.twins h.before ?_ (fun n _ => ?_) (fun k hk => ?_) hlists h.past
    (fun k hk => h.archives.past k hk) hpastList
  · rw [hsame]
    exact hnumber
  · rw [hsame]
    rfl
  · rw [hsame]
    exact h.archives.same k hk

/-- A value that points at nothing else is finished in the same way. -/
theorem tracks_finalize {target : Target} (hnumber : count ≤ number) {v : Value}
    (hv : v.Past count) :
    Tracks target refs count archive number (Conversion.finalize v) where
  conserves := finalize_conserves v
  again {c x c' d} hcd hrefs h := by
    obtain ⟨rfl, -⟩ := finalize_returns h
    have htwins := twins_of_mirrors hnumber hcd hrefs
    refine ⟨d, ?_, hcd⟩
    unfold Returns Conversion.finalize at h ⊢
    rw [run_bind, run_get] at h ⊢
    dsimp only at h ⊢
    cases hdocument : (c'.view.settle v).document with
    | error f =>
      rw [hdocument] at h
      exact absurd h not_returns_fail
    | ok json =>
      rw [hdocument] at h
      obtain ⟨rfl, -⟩ := returns_pure.mp h
      rw [htwins.settle (view_ample d) hv hdocument, hdocument]
      rfl

/-- Listing the definitions leaves all visits alone. -/
theorem listDefinitions_survey (c : Conversion) : (e.listDefinitions c).2.survey = c.survey := by
  refine Meets.state (P := fun d : Conversion => d.survey = c.survey) ?_
  refine .bind (P := fun x d => c = x ∧ c = d) ⟨rfl, rfl⟩ ?_
  rintro _ _ ⟨rfl, rfl⟩
  refine .bind (meets_of_state (P := fun d : Conversion => d.survey = c.survey) rfl) fun _ d hd => ?_
  split
  · obtain ⟨f, hrun, -, hsame⟩ := run_fail Entries _ d
    refine meets_of_state ?_
    rw [hrun]
    exact hsame.trans hd
  · exact hd

/-- Composing a document tracks, unless an override interferes. -/
theorem tracks_compose (hoverride : e.override = none) :
    Tracks e.target refs count archive number e.compose := by
  have hstep : Lockstep (Alike archive number) := lockstep_alike
  have hclaim : Tracks e.target refs count archive number e.claim := by
    refine .of_respects (hstep.claim fun n alone h => ?_) ?_ fun hc => hc
    · obtain ⟨events, lists, rfl⟩ := h
      exact ⟨events, lists, rfl⟩
    · exact .bind within_get fun _ => fun c => conserves_of_eq rfl rfl rfl
  -- Appending to a shared list is invisible to what the relation compares.
  have happend : ∀ k t, Respects (Alike archive number) (appendShared k t) := by
    rintro k t c _ ⟨events, lists, rfl⟩
    exact ⟨rfl, events, _, rfl⟩
  have hsettle : Tracks e.target refs count archive number e.settleVisits :=
    .of_respects (hstep.settleVisits happend fun o ho => by rw [hoverride] at ho; cases ho)
      (settleVisits_conserves hoverride)
      fun hc => (reaches_preserved e.target _ count).settled hoverride hc
  have hlist : Tracks e.target refs count archive number e.listDefinitions := by
    refine .of_respects (hstep.listDefinitions ?_ ?_) listDefinitions_conserves ?_
    · rintro c _ ⟨events, lists, rfl⟩
      rfl
    · rintro c _ f ⟨events, lists, rfl⟩
      exact ⟨events, lists, rfl⟩
    · intro c hc n v hv
      rw [listDefinitions_survey] at hv
      exact hc n v hv
  exact hclaim.bind fun _ =>
    (Tracks.of_respects hstep.hoist hoist_conserves hoist_reaches).bind fun _ =>
      hsettle.bind fun _ => hlist

/-- **Emissions.** An emission that has returned does the same again. -/
theorem tracks_document (hnumber : count ≤ number) (hoverride : e.override = none) :
    Tracks e.target refs count archive number e.document := by
  have hcompleted : Tracks e.target refs count archive number e.completed :=
    .of_respects lockstep_alike.completed
      (.bind within_get fun _ => fun c => conserves_of_rewrites (log_rewrites _ c) rfl)
      fun hc => hc
  have hbehind : ∀ v, Within (Conserves e.target refs) (do
      let json ← Conversion.finalize v
      e.completed
      pure json) := fun v =>
    .bind (finalize_conserves v) fun _ => .bind hcompleted.conserves fun _ => within_pure _
  -- Composing, finishing and completing one after the other; the document points at no survey that
  -- is still to come.
  have hemit : Tracks e.target refs count archive number (do
      let entries ← e.compose
      let json ← Conversion.finalize (.dict entries)
      e.completed
      pure json) := by
    refine (tracks_compose hoverride).bindOf (P := fun entries => (Value.dict entries).Past count)
      (fun hc h => compose_reaches hoverride hc h) (fun _ => hbehind _) fun entries hentries => ?_
    exact (tracks_finalize hnumber hentries).bind fun _ => hcompleted.bind fun _ => .pure _
  refine .read (fun {c d} hcd => ?_) (fun c _ => ?_) fun c => ?_
  -- A refusal does not look at events or lists.
  · have hrefusal : e.refusal? d = e.refusal? c := by
      have haddress := hasOwnAddress_parallel (e := e) (lockstep_alike.parallel hcd.alike)
      obtain ⟨events, lists, rfl⟩ := hcd.alike
      exact refusal?_congr (by cases e.root <;> rfl) rfl Iff.rfl rfl rfl (fun _ => rfl) haddress
    rw [hrefusal]
  · cases e.refusal? c with
    | some f => exact .fail f
    | none => exact hemit
  · cases e.refusal? c with
    | some f => exact fail_conserves f
    | none => exact hemit.conserves

end Emission

/-! ### Conversions again -/

namespace Conversion

/-- What a conversion was given points at no survey that is still to come, and of its own survey at
    some nodes at most. -/
structure Given (reach : NodeId → Prop) (guide : Guide) (c : Conversion) : Prop where
  plain : ∀ n node, c.survey.has n = true → c.store.node? n = some node → node.Plain
  supplied : ∀ n es, c.survey.has n = true → c.store.Supplied guide.catalog n es →
    es.Each (Value.Reaches reach c.survey.number)
  lists : ∀ xs ∈ c.store.lists, ∀ v ∈ xs, v.Reaches reach c.survey.number
  archive : ∀ fragments ∈ c.store.archive, ∀ p ∈ fragments, p.2.Each (Value.Past c.survey.number)

/-- Where no node makes its own fragment and no survey has left any, a conversion was given what the
    catalog and the lists of annotations hold. -/
theorem Given.of_forall {reach : NodeId → Prop} {guide : Guide} {c : Conversion}
    (hnodes : ∀ node ∈ c.store.nodes,
      node.lowering = .null ∧ ∀ v ∈ node.carried, v.isPlain = true)
    (hnotes : ∀ p ∈ (c.store.catalog guide.catalog).entries,
      p.2.Each (Value.Reaches reach c.survey.number))
    (hlists : ∀ xs ∈ c.store.lists, ∀ v ∈ xs, v.isPlain = true)
    (harchive : ∀ fragments ∈ c.store.archive, fragments = []) : c.Given reach guide := by
  have hmem : ∀ {n node}, c.store.node? n = some node → node ∈ c.store.nodes := by
    intro n node hn
    cases n with
    | gap => cases hn
    | node i => exact List.mem_of_getElem? hn
  refine
    { plain := fun n node _ hn => (hnodes node (hmem hn)).2
      supplied := fun n es _ hes => ?_
      lists := fun xs hxs v hv => Value.reaches_of_plain (hlists xs hxs v hv)
      archive := fun fragments hfragments => ?_ }
  · rcases hes with ⟨node, v, hn, hcall, -⟩ | hnotes'
    · rw [(hnodes node (hmem hn)).1] at hcall
      cases hcall
    · exact hnotes _ (Catalog.mem_of_get? hnotes')
  · rw [harchive fragments hfragments]
    nofun

/-- Nothing that a conversion was given points at a survey that is still to come. -/
abbrev Timely (guide : Guide) (c : Conversion) : Prop := c.Given (fun _ => True) guide

/-- Before the first document, what was visited points at no survey that is still to come. -/
theorem Timely.past {guide : Guide} {p c : Conversion} (h : c.Timely guide)
    (hp : p.survey.Intact guide c.store) (horder : c.survey.order = p.survey.order) :
    p.Past c.survey.number := by
  have hhas : ∀ n, p.survey.has n = true → c.survey.has n = true := by
    intro n hn
    rwa [Survey.has_iff, horder, ← Survey.has_iff]
  exact hp.reaches (fun n node hn => h.plain n node (hhas n hn))
    (fun n es hn => h.supplied n es (hhas n hn)) fun _ _ _ _ => trivial

end Conversion

namespace Converter

open Emission

variable {conv : Converter} {policy : EmissionSettings} {store : Store} {refs : NodeId → Prop}
  {count number : Nat} {archive : List (List (NodeId × Entries))} {α : Type}

/-- The fragments that a conversion leaves behind stand on top of those before. -/
theorem archive_leave {c : Conversion} (hnumber : c.survey.number = store.archive.length)
    (harchive : c.store.archive = store.archive ++ [[]]) :
    (start c.leave).store.archive =
      store.archive ++ [c.survey.visits.map fun p => (p.1, p.2.fragment), []] := by
  show (c.store.archive.set c.survey.number _) ++ [[]] = _
  rw [harchive, hnumber, List.set_append_right _ _ (Nat.le_refl _), Nat.sub_self,
    List.append_assoc]
  rfl

/-- Fragments on top of others leave those alone. -/
theorem stacks_append {older : List (List (NodeId × Entries))} (fragments : List (NodeId × Entries))
    (hpast : ∀ fragments ∈ older, ∀ p ∈ fragments, p.2.Each (Value.Past older.length)) :
    Stacks older.length (older ++ [[]]) (older ++ [fragments, []]) where
  same k hk := by rw [List.getElem?_append_left hk, List.getElem?_append_left hk]
  past k hk fragments hfragments := by
    rw [List.getElem?_append_left hk] at hfragments
    exact hpast fragments (List.mem_of_getElem? hfragments)

/-- What comes behind visits of roots is done again from the store that it has left. -/
theorem again_of_tail (hs : store.Closed) {roots : List NodeId} {tail : Action Conversion α}
    (htail : ∀ refs count archive number, count ≤ number →
      Tracks conv.guide.settings.target refs count archive number tail) {x : α} {c : Conversion}
    (h : Returns (conv.processAll roots >>= fun _ => tail) (start store) x c)
    (hunasking : c.Unasking conv.guide) (htimely : c.Timely conv.guide) :
    ∃ d, Returns (conv.processAll roots >>= fun _ => tail) (start c.leave) x d ∧
      c.leave.Spares d.store := by
  obtain ⟨_, p, hprocess, hrun⟩ := returns_bind.mp h
  have hbehind : Conserves conv.guide.settings.target c.survey.IsReference p c :=
    ((htail _ 0 [] 0 (Nat.le_refl 0)).conserves).of_returns hrun
  have hdescends := (processAll_within conv roots).of_returns hprocess
  obtain ⟨hgrows, hclosed⟩ := hdescends.store (start_closed hs)
  have hintact : p.survey.Intact conv.guide c.store :=
    ⟨(processAll_intact hs hprocess).explored.mono hbehind.store hclosed,
      (processAll_intact hs hprocess).stage⟩
  have hmodest := hunasking.modest hintact hbehind.order
  have hlists := hbehind.lists hmodest fun _ href => href
  have hnumber : c.survey.number = store.archive.length :=
    hbehind.rests.number.trans hdescends.number
  have harchive : p.store.archive = store.archive ++ [[]] := hgrows.archive
  have hleft := archive_leave hnumber (hbehind.store.archive.trans harchive)
  -- the second run starts from a store that recalls what the descents have left
  let again := start c.leave
  have hstore : again.store = { p.store with
      events := [], lists := c.store.lists, archive := again.store.archive } := by
    show { c.store with archive := again.store.archive, events := [] } = _
    rw [hbehind.rests.store]
  have hrecalls : p.store.Recalls again.store := by
    rw [hstore]
    exact ⟨List.prefix_refl _, fun h => h, fun _ _ _ => rfl, Nat.le_refl _⟩
  obtain ⟨events, hdescent⟩ := (replays_processAll conv roots).again (start_closed hs) hprocess
    again.survey.number [] hrecalls
  have hstart : (start store).retold again.store again.survey.number [] = again := rfl
  rw [hstart] at hdescent
  have hmirrors : Mirrors conv.guide.settings.target c.survey.IsReference store.archive.length
      again.store.archive again.survey.number p
      (p.retold again.store again.survey.number events) :=
    { alike := ⟨events, c.store.lists, by rw [retold, hstore]⟩
      before := by rw [← hnumber, hbehind.rests.number]
      archives := by
        rw [harchive, hleft]
        refine stacks_append _ fun fragments hfragments => ?_
        rw [← hnumber]
        refine htimely.archive fragments ?_
        rw [hbehind.store.archive, harchive]
        exact List.mem_append_left _ hfragments
      past := hnumber ▸ htimely.past hintact hbehind.order
      modest := hmodest
      lists := fun _ => by
        refine ⟨hlists, ?_⟩
        rw [← hlists, ← hnumber]
        exact htimely.lists }
  have hle : store.archive.length ≤ again.survey.number := by
    show _ ≤ (c.store.archive.set c.survey.number _).length
    rw [List.length_set, hbehind.store.archive, harchive, List.length_append]
    exact Nat.le_add_right _ _
  obtain ⟨d, hd, hsame⟩ := (htail _ _ _ _ hle).again hmirrors (fun _ href => href) hrun
  refine ⟨d, returns_bind.mpr ⟨(), _, hdescent, hd⟩, fun name n _ => ?_, ?_⟩
  · obtain ⟨events', lists', rfl⟩ := hsame.alike
    rfl
  · rw [(hsame.lists fun _ href => href).1]
    exact List.prefix_refl _

/-- So do the documents of many roots: induction on the roots. -/
theorem tracks_emitAll (hnumber : count ≤ number) (hoverride : conv.override = none)
    (roots : List (Value × NodeId)) :
    Tracks conv.guide.settings.target refs count archive number (conv.emitAll policy roots) := by
  induction roots with
  | nil => exact .pure _
  | cons root rest ih =>
    obtain ⟨id, n⟩ := root
    refine .bind ?_ fun _ => .bind ih fun _ => .pure _
    exact tracks_document (e := conv.emission policy n) hnumber hoverride

/-- So does what is emitted for a catalog. -/
theorem tracks_publish (hnumber : count ≤ number) (hoverride : conv.override = none)
    (catalog : String) (addressing : Addressing) (roots : List (Value × NodeId)) :
    Tracks conv.guide.settings.target refs count archive number
      (conv.publish policy catalog addressing roots) := by
  have hlink : Tracks conv.guide.settings.target refs count archive number
      (modify fun s : Conversion => { s with linkage := some { catalog, addressing } }) := by
    refine .of_respects (respects_modify ?_) (fun c => conserves_of_eq rfl rfl rfl) fun hc => hc
    rintro c _ ⟨events, lists, rfl⟩
    exact ⟨events, lists, rfl⟩
  refine hlink.bind fun _ => (tracks_emitAll hnumber hoverride roots).bind fun docs => ?_
  refine .read (fun {c d} hcd => ?_) (fun c hc => ?_) fun c => ?_
  · obtain ⟨events, lists, rfl⟩ := hcd.alike
    rfl
  · dsimp only
    split
    · exact .pure _
    · exact (tracks_finalize hnumber (reaches_tableEntries hc _)).bind fun _ => .pure _
  · dsimp only
    split
    · exact within_pure _
    · exact .bind (finalize_conserves _) fun _ => within_pure _

/-- **Conversions again.** The conversion of a node returns the same document again. -/
theorem document_again (hs : store.Closed) (hoverride : conv.override = none) {root : NodeId}
    {doc : Json} {c : Conversion} (h : Returns (conv.document policy root) (start store) doc c)
    (hunasking : c.Unasking conv.guide) (htimely : c.Timely conv.guide) :
    ∃ d, Returns (conv.document policy root) (start c.leave) doc d ∧ c.leave.Spares d.store := by
  rw [document_eq] at h ⊢
  exact again_of_tail hs (fun _ _ _ _ hle =>
    tracks_document (e := conv.emission policy root) hle hoverride) h hunasking htimely

/-- The conversion of a catalog returns the same documents again, if no id has come to it. -/
theorem documents_again (hs : store.Closed) (hoverride : conv.override = none) {catalog : String}
    {addressing : Addressing} {docs : List (Value × Json)} {c : Conversion}
    (h : Returns (conv.documents policy catalog addressing) (start store) docs c)
    (hids : (c.store.catalog catalog).ids = (store.catalog catalog).ids)
    (hunasking : c.Unasking conv.guide) (htimely : c.Timely conv.guide) :
    ∃ d, Returns (conv.documents policy catalog addressing) (start c.leave) docs d ∧
      c.leave.Spares d.store := by
  have hroots : ((start c.leave).store.catalog catalog).ids =
      ((start store).store.catalog catalog).ids := hids
  unfold Returns at h ⊢
  rw [documents_eq] at h ⊢
  rw [hroots]
  exact again_of_tail hs (fun _ _ _ _ hle =>
    tracks_publish hle hoverride catalog addressing _) h hunasking htimely

end Converter

/-- **Inputs are left alone.** Whatever comes of the conversion of a node or of a catalog without an
    override, all annotations are as they were, with the lists that they hold; and what returns the
    same documents again when it is run again.

    In the dialect that ignores keywords beside a reference, no node that passes the content of a
    reference on may be annotated with a list.  Getters that are asked on the way must not give ids
    to further nodes of the catalog. -/
theorem Export.convert_spares (x : Export) (hoverride : x.override = none)
    {settings : ExportSettings} (hsettings : x.settings = .ok settings) {store : Store}
    (hs : store.Closed) :
    (∀ root,
      let guide := (x.converter settings (x.annotations.getD "global")).guide
      let run := x.convert root (start store)
      run.2.Unasking guide → store.Spares run.2.store ∧
        ∀ doc, run.1 = .ok doc → run.2.Timely guide →
          ∃ d, Returns (x.convert root) (start run.2.leave) doc d ∧
            run.2.leave.Spares d.store) ∧
    ∀ catalog,
      let guide := (x.converter settings (x.annotations.getD catalog)).guide
      let run := x.convertAll catalog (start store)
      run.2.Unasking guide → store.Spares run.2.store ∧
        ∀ docs, run.1 = .ok docs → run.2.Timely guide →
          (run.2.store.catalog catalog).ids = (store.catalog catalog).ids →
          ∃ d, Returns (x.convertAll catalog) (start run.2.leave) docs d ∧
            run.2.leave.Spares d.store := by
  constructor
  · intro root guide run hunasking
    have hrun : run = (x.converter settings (x.annotations.getD "global")).document
        settings.emission root (start store) := by rw [← convert_eq hsettings root]
    rw [hrun] at hunasking ⊢
    rw [convert_eq hsettings root]
    refine ⟨Converter.document_spares hs hoverride root hunasking, fun doc hdoc htimely => ?_⟩
    exact Converter.document_again hs hoverride (Prod.ext hdoc rfl) hunasking htimely
  · intro catalog guide run hunasking
    have hrun : run = (x.converter settings (x.annotations.getD catalog)).documents
        settings.emission catalog (x.addressing.getD (.template settings.uriTemplate))
        (start store) := by rw [← convertAll_eq hsettings catalog]
    rw [hrun] at hunasking ⊢
    rw [convertAll_eq hsettings catalog]
    refine ⟨Converter.documents_spares hs hoverride catalog _ hunasking,
      fun docs hdocs htimely hids => ?_⟩
    exact Converter.documents_again hs hoverride (Prod.ext hdocs rfl) hids hunasking htimely

/-! ### A text that can only be read -/

/-- An export in the dialect that ignores keywords beside a reference. -/
def olderDialect : Export := { options := [(.str "target", .str "draft-7")] }

/-- A text, and a view of it that can only be read, which is annotated with an id and a list. -/
def annotatedText : Store where
  nodes := [{ kind := .string }, { kind := .readonly, inner := .node 0 }]
  catalogs := [("global",
    { entries := [(.node 1, [(.str "id", .str "W"), (.str "allOf", .shared 0)])]
      ids := [(.str "W", .node 1)] })]
  lists := [[.dict [(.str "minLength", .int 1)]]]

/-- A conversion of the annotated text asks for no reference besides: the text itself is none. -/
theorem unasking_annotatedText {guide : Guide} {c : Conversion}
    (hvisited : c.survey.order = [.node 1, .node 0]) (hnodes : c.store.nodes = annotatedText.nodes)
    (hfragment : (c.survey.fragment (.node 0)).has Visit.refKey = false) : c.Unasking guide := by
  rintro - n m hn ⟨node, lead, hnode, hlead, hm⟩ href
  have hmem : n ∈ [NodeId.node 1, .node 0] := hvisited ▸ (Survey.has_iff _ _).mp hn
  have hsame : c.store.node? n = annotatedText.node? n := by
    unfold Store.node?
    rw [hnodes]
  rw [hsame] at hnode
  rcases List.mem_pair.mp hmem with rfl | rfl
  · obtain rfl := Option.some.inj hnode
    obtain rfl := Option.some.inj hlead
    obtain rfl := Option.some.inj hm
    rw [Survey.IsReference, hfragment] at href
    cases href
  · obtain rfl := Option.some.inj hnode
    cases hlead

/-- Nothing that is said of the annotated text points at a survey. -/
theorem timely_annotatedText {guide : Guide} {c : Conversion} (hglobal : guide.catalog = "global")
    (hnodes : c.store.nodes = annotatedText.nodes)
    (hcatalogs : c.store.catalogs = annotatedText.catalogs)
    (hlists : c.store.lists = annotatedText.lists) (harchive : c.store.archive = [[]]) :
    c.Timely guide := by
  refine .of_forall ?_ (fun p hp => ?_) ?_ ?_
  · rw [hnodes]
    decide
  · unfold Store.catalog at hp
    rw [hcatalogs, hglobal] at hp
    rw [List.mem_singleton.mp hp]
    exact List.forall_mem_cons.mpr ⟨Value.reaches_of_plain rfl,
      List.forall_mem_singleton.mpr (Value.reaches_shared 0)⟩
  · rw [hlists]
    decide
  · rw [harchive]
    decide

/-- What the conversions of the annotated text leave. -/
structure LeavesText (c : Conversion) : Prop where
  visited : c.survey.order = [.node 1, .node 0]
  nodes : c.store.nodes = annotatedText.nodes
  catalogs : c.store.catalogs = annotatedText.catalogs
  lists : c.store.lists = annotatedText.lists
  archive : c.store.archive = [[]]
  fragment : (c.survey.fragment (.node 0)).has Visit.refKey = false

/-- The annotated text is converted twice with the same result, alone and with its catalog, and its
    annotation is left alone. -/
theorem Export.convert_spares_annotatedText :
    (∃ doc c d, Returns (olderDialect.convert (.node 1)) (start annotatedText) doc c ∧
      annotatedText.Spares c.store ∧
      Returns (olderDialect.convert (.node 1)) (start c.leave) doc d) ∧
    ∃ docs c d, Returns (olderDialect.convertAll "global") (start annotatedText) docs c ∧
      annotatedText.Spares c.store ∧
      Returns (olderDialect.convertAll "global") (start c.leave) docs d := by
  have hclosed : annotatedText.Closed := .of_forall (by decide) nofun nofun
  have hsettings : olderDialect.settings = .ok { lowering := { target := .draft7 } } := rfl
  obtain ⟨hone, hall⟩ := Export.convert_spares olderDialect rfl hsettings hclosed
  constructor
  · obtain ⟨doc, h⟩ := exists_returns (a := olderDialect.convert (.node 1))
      (s := start annotatedText) (by decide +kernel)
    have hleft : LeavesText (olderDialect.convert (.node 1) (start annotatedText)).2 :=
      ⟨by decide +kernel, by decide +kernel, by decide +kernel, by decide +kernel,
        by decide +kernel, by decide +kernel⟩
    have hone := hone (.node 1)
    dsimp only at hone
    generalize (olderDialect.convert (.node 1) (start annotatedText)).2 = c at h hleft hone
    rw [show (olderDialect.convert (.node 1) (start annotatedText)).1 = .ok doc from
      congrArg (·.1) h] at hone
    obtain ⟨hspares, hagain⟩ :=
      hone (unasking_annotatedText hleft.visited hleft.nodes hleft.fragment)
    obtain ⟨d, hd, -⟩ := hagain doc rfl
      (timely_annotatedText rfl hleft.nodes hleft.catalogs hleft.lists hleft.archive)
    exact ⟨doc, c, d, h, hspares, hd⟩
  · obtain ⟨docs, h⟩ := exists_returns (a := olderDialect.convertAll "global")
      (s := start annotatedText) (by decide +kernel)
    have hleft : LeavesText (olderDialect.convertAll "global" (start annotatedText)).2 :=
      ⟨by decide +kernel, by decide +kernel, by decide +kernel, by decide +kernel,
        by decide +kernel, by decide +kernel⟩
    have hall := hall "global"
    dsimp only at hall
    generalize (olderDialect.convertAll "global" (start annotatedText)).2 = c at h hleft hall
    rw [show (olderDialect.convertAll "global" (start annotatedText)).1 = .ok docs from
      congrArg (·.1) h] at hall
    obtain ⟨hspares, hagain⟩ :=
      hall (unasking_annotatedText hleft.visited hleft.nodes hleft.fragment)
    have hids : (c.store.catalog "global").ids = (annotatedText.catalog "global").ids := by
      unfold Store.catalog
      rw [hleft.catalogs]
    obtain ⟨d, hd, -⟩ := hagain docs rfl
      (timely_annotatedText rfl hleft.nodes hleft.catalogs hleft.lists hleft.archive) hids
    exact ⟨docs, c, d, h, hspares, hd⟩

/-- A list of annotations is added to by each conversion, if the text that is passed on has an id:
    the second document asks twice for what the first one asks for once. -/
def identifiedText : Store where
  nodes := [{ kind := .string }, { kind := .readonly, inner := .node 0 }]
  catalogs := [("global",
    { entries := [(.node 0, [(.str "id", .str "S")]), (.node 1, [(.str "allOf", .shared 0)])]
      ids := [(.str "S", .node 0)] })]
  lists := [[.dict [(.str "minLength", .int 1)]]]

/-- The two conversions of the identified text leave lists of one and of two further references. -/
theorem Export.convert_adds :
    let first := olderDialect.convert (.node 1) (start identifiedText)
    let second := olderDialect.convert (.node 1) (start first.2.leave)
    let atLeastOne := Json.obj [("minLength", .int 1)]
    let ref := Json.obj [("$ref", .str "#/definitions/S")]
    let document := fun asked => Json.obj [("readOnly", .bool true), ("allOf", .arr asked),
      ("definitions", .obj [("S", .obj [("type", .str "string"), ("id", .str "S")])]),
      ("$schema", .str "http://json-schema.org/draft-07/schema#")]
    first.1.toOption = some (document [atLeastOne, ref]) ∧
      second.1.toOption = some (document [atLeastOne, ref, ref]) ∧
      ¬ identifiedText.Spares first.2.store := by
  intro first second atLeastOne ref document
  refine ⟨by decide +kernel, by decide +kernel, fun h => ?_⟩
  have hlist := h.list (k := 0) (by decide)
  exact absurd hlist (by decide +kernel)

end SchemaGraph
