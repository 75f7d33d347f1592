import SchemaGraph.Proofs.Document.Composing
import SchemaGraph.Proofs.Document.Upkeep
import SchemaGraph.Proofs.Survey.Cycles
import SchemaGraph.Proofs.Survey.Pointing
import SchemaGraph.Proofs.Survey.Replaying

namespace SchemaGraph

open SchemaGraph.Action Conversion

/-!
# Annotations that are left alone

Only in the dialect that ignores keywords beside a reference a conversion adds to a list that it was
given: a node that passes the content of a reference on asks for the reference besides, in the very
list that it is annotated with.  If no such node is annotated with a list, all annotations stay as
they are, and so do the lists that they hold, whatever comes of the conversion.

* `Store.Spares s t`       — the annotations in `s` are the same in `t`, with their lists
* `Emission.Modest`        — what is still to be finished adds to no list
* `Emission.Conserves`     — lists are the same, if all that wait are modest
* `Emission.document_conserves` — every emission conserves annotations and lists
* `Converter.document_spares`, `Converter.documents_spares` — and so do conversions
-/

/-- All annotations are the same, and so are the lists that they hold. -/
structure Store.Spares (s t : Store) : Prop where
  notes : ∀ name {n}, (s.node? n).isSome → (t.catalog name).get? n = (s.catalog name).get? n
  lists : s.lists <+: t.lists

/-- Lists that were there are the same. -/
theorem Store.Spares.list {s t : Store} (h : s.Spares t) {k : Nat} (hk : k < s.lists.length) :
    t.list k = s.list k := by
  obtain ⟨more, hmore⟩ := h.lists
  unfold Store.list
  rw [← hmore, List.getElem?_append_left hk]

/-- The fragment of the node refers to another place. -/
def Survey.IsReference (s : Survey) (n : NodeId) : Prop := (s.fragment n).has Visit.refKey = true

/-- A fragment refers to another place if its visit says so. -/
theorem Survey.isReference_iff {s : Survey} {n : NodeId} :
    s.IsReference n ↔ ∃ v, s.visit? n = some v ∧ v.isReference = true := by
  unfold IsReference fragment Visit.isReference
  cases s.visit? n <;> simp [Entries.has]

namespace Emission

variable {e : Emission} {c d : Conversion} {target : Target} {refs : NodeId → Prop}

/-! ### Settling -/

/-- A visit with no list of annotations under `allOf`. -/
structure Bare (v : Visit) : Prop where
  fragment : ∀ k, v.fragment.get? allOfKey ≠ some (.shared k)
  body : ∀ k, v.body.get? allOfKey ≠ some (.shared k)

/-- In the dialect that would add to it, what passes the content of some nodes on and is still to be
    finished has no list of annotations. -/
def Modest (target : Target) (refs : NodeId → Prop) (c : Conversion) : Prop :=
  target = .draft7 → ∀ n v, c.survey.visit? n = some v → v.merged = false →
    ∀ t, v.target = some t → refs t → Bare v

/-- Visits that are finished ask no more. -/
theorem modest_preserved (target : Target) (refs : NodeId → Prop) :
    Preserved target (Modest target refs) where
  events _ hsame hc ht n v hv := hc ht n v (by rw [← hsame]; exact hv)
  append _ _ _ _ hc := hc
  mark n hc ht := forall_visit?_modify (hc ht) fun _ _ hm => absurd hm nofun
  body {c d n v t body} _ _ _ _ hd hself _ ht := by
    refine forall_visit?_modify (hd ht) fun u hu hm => ?_
    obtain rfl := Option.some.inj (hself.symm.trans hu)
    rw [Visit.merged_withBody] at hm
    cases hm

/-- Taking over content leaves all lists alone, unless it is a reference that is asked for in one of
    them. -/
theorem inherit_lists {own : Entries} {t : NodeId} (hown : e.target = .draft7 →
      c.survey.IsReference t → ∀ k, own.get? allOfKey ≠ some (.shared k)) :
    (e.inherit own t c).2.store.lists = c.store.lists := by
  obtain ⟨-, hrun⟩ | ⟨hbare, ⟨xs, -, hrun⟩ | ⟨number, hnumber, -⟩ | ⟨-, hrun⟩⟩ :=
    e.inherit_cases own t c
  · rw [hrun]
  · rw [hrun]
  · exact absurd hnumber (hown hbare.2 hbare.1 number)
  · rw [hrun]
    obtain ⟨d, hfail, hrewrites, -⟩ := run_fail Entries .missingChild c
    rw [hfail, hrewrites.store]

/-- Settling a node leaves all lists alone, if all that is a reference behind it is asked for in no
    list. -/
theorem settle_lists (hoverride : e.override = none) (links : Nat) (n : NodeId)
    (hc : Modest e.target refs c)
    (hrefs : ∀ t, (e.settle links n c).2.survey.IsReference t → refs t) :
    (e.settle links n c).2.store.lists = c.store.lists := by
  induction links generalizing n c with
  | zero => rfl
  | succ links ih =>
    -- whatever comes of it, lists are the same unless something else has become a reference
    let Q (d : Conversion) : Prop :=
      (∀ t, d.survey.IsReference t → refs t) → d.store.lists = c.store.lists
    refine Meets.state (P := Q) ?_ hrefs
    refine settle_meets hoverride (fun _ _ => rfl) (fun _ _ _ => rfl) fun v t hv hfresh htarget => ?_
    have hself := visit?_marked_self hv
    have hmodest := (modest_preserved e.target refs).mark n hc
    refine .bind (meets_of_state (P := fun f : Conversion => Q f ∧
      f.survey.visit? n = some { v with merged := true })
      ⟨ih (c := marked c n) t hmodest,
        (settle_advances links t (marked c n)).finished hself rfl⟩ |>.mono
      (fun _ _ h => h) fun _ h => h.1) ?_
    rintro _ f ⟨hf, hown⟩
    -- what is a reference before the content is taken over is one behind it
    have hinherit : Meets (e.inherit v.body t) f (fun body g => g.survey = f.survey ∧ Q g ∧
        Takes e.target v.body t (f.survey.fragment t) body) Q := by
      have hsurvey := inherit_survey (e := e) v.body t f
      have hlists : Q (e.inherit v.body t f).2 := fun hmore => by
        rw [hsurvey] at hmore
        refine (inherit_lists fun ht href => ?_).trans (hf hmore)
        exact (hc ht n v hv hfresh t htarget (hmore t href)).body
      unfold Meets
      rcases hrun : e.inherit v.body t f with ⟨failure | body, g⟩
      · rw [hrun] at hlists
        exact hlists
      · rw [hrun] at hlists hsurvey
        exact ⟨hsurvey, hlists, inherit_takes hrun⟩
    refine .bind hinherit ?_
    rintro body g ⟨hsurvey, hg, htakes⟩ hmore
    refine hg fun m hm => hmore m ?_
    rw [Survey.isReference_iff] at hm ⊢
    obtain ⟨u, hu, href⟩ := hm
    by_cases hmn : m = n
    · subst hmn
      rw [hsurvey, hown] at hu
      obtain rfl := Option.some.inj hu
      refine ⟨_, ?_, htakes.isReference (v := v) href⟩
      exact Survey.visit?_modify_of_visit? (hsurvey ▸ hown) _
    · exact ⟨u, (Survey.visit?_modify_of_ne hmn g.survey _).trans hu, href⟩

/-! ### Emissions -/

/-- Nothing has changed in the store but events and lists, and the survey is the same. -/
structure Rests (c d : Conversion) : Prop where
  store : d.store = { c.store with events := d.store.events, lists := d.store.lists } := by rfl
  number : d.survey.number = c.survey.number := by rfl

instance : Std.Refl Rests := ⟨fun _ => { }⟩

instance : Trans Rests Rests Rests where
  trans h₁ h₂ := ⟨by rw [h₂.store, h₁.store], h₂.number.trans h₁.number⟩

/-- A change of visits alone leaves the store at rest. -/
theorem rests_of_rewrites (h : Rewrites c d) : Rests c d := ⟨by rw [h.store], h.number⟩

/-- Settling changes nothing in the store but events and lists. -/
theorem bears_rests : Bears Rests where
  visit _ _ _ _ := { }
  append _ _ _ := { }
  shown _ _ _ := { }
  fail _ f c := rests_of_rewrites (fail_rewrites f c)

/-- The conversions differ in no annotation.  References are references in the later one too, and
    lists are the same, if what passes its references on is modest. -/
structure Conserves (target : Target) (refs : NodeId → Prop) (c d : Conversion) : Prop where
  store : Store.Grows c.store d.store
  rests : Rests c d
  order : d.survey.order = c.survey.order
  references : ∀ n, c.survey.IsReference n → d.survey.IsReference n
  modest : Modest target refs c → Modest target refs d
  lists : Modest target refs c → (∀ n, d.survey.IsReference n → refs n) →
    d.store.lists = c.store.lists

/-- Annotations are the same. -/
theorem Conserves.catalog (h : Conserves target refs c d) (name : String) :
    d.store.catalog name = c.store.catalog name := by
  rw [h.rests.store]
  rfl

/-- A change to what was listed or emitted. -/
theorem conserves_of_eq (hstore : d.store = c.store) (hnumber : d.survey.number = c.survey.number)
    (hvisits : d.survey.visits = c.survey.visits) : Conserves target refs c d where
  store := hstore ▸ .refl c.store
  rests := ⟨by rw [hstore], hnumber⟩
  order := by rw [Survey.order, hvisits, Survey.order]
  references n hn := by
    unfold Survey.IsReference Survey.fragment at hn ⊢
    rwa [Survey.visit?_of_visits hvisits]
  modest hc ht n v hv := hc ht n v ((Survey.visit?_of_visits hvisits n).symm.trans hv)
  lists _ _ := by rw [hstore]

instance : Std.Refl (Conserves target refs) := ⟨fun _ => conserves_of_eq rfl rfl rfl⟩

instance : Trans (Conserves target refs) (Conserves target refs) (Conserves target refs) where
  trans h₁ h₂ :=
    { store := h₁.store.trans h₂.store
      rests := Trans.trans h₁.rests h₂.rests
      order := h₂.order.trans h₁.order
      references := fun n hn => h₂.references n (h₁.references n hn)
      modest := fun h => h₂.modest (h₁.modest h)
      lists := fun h hrefs => (h₂.lists (h₁.modest h) hrefs).trans
        (h₁.lists h fun n hn => hrefs n (h₂.references n hn)) }

/-- What leaves visits alone, and the store but for events, conserves annotations. -/
theorem conserves_of_rewrites (h : Rewrites c d) (hvisits : d.survey.visits = c.survey.visits) :
    Conserves target refs c d where
  store := h.grows
  rests := rests_of_rewrites h
  order := h.order
  references n hn := by
    unfold Survey.IsReference Survey.fragment at hn ⊢
    rwa [Survey.visit?_of_visits hvisits]
  modest hc ht n v hv := hc ht n v ((Survey.visit?_of_visits hvisits n).symm.trans hv)
  lists _ _ := by rw [h.store]

/-- A failure changes no annotation. -/
theorem fail_conserves {α : Type} (f : Failure) :
    Within (Conserves target refs) (Conversion.fail f : Action Conversion α) := by
  intro c
  obtain ⟨d, hrun, hrewrites, hsame⟩ := run_fail α f c
  rw [hrun]
  exact conserves_of_rewrites hrewrites (by rw [hsame])

/-- Hoisting changes no annotation, and references stay references. -/
theorem hoist_conserves : Within (Conserves target refs) e.hoist := by
  intro c
  have hhoists := (hoist_hoists (e := e) c).state_of_and
  refine ⟨hhoists.rewrites.grows, rests_of_rewrites hhoists.rewrites,
    hhoists.rewrites.order, fun n hn => ?_, fun hc ht n w hw hm t htarget href => ?_, fun _ _ => ?_⟩
  · rw [Survey.isReference_iff] at hn ⊢
    obtain ⟨v, hv, href⟩ := hn
    rcases hhoists.visits hv with hsame | ⟨hfresh, -⟩
    · exact ⟨v, hsame, href⟩
    · rw [href] at hfresh
      cases hfresh
  · obtain ⟨v, hv, rfl | ⟨ref, id, -, rfl⟩⟩ := hhoists.cases hw
    · exact hc ht n w hv hm t htarget href
    · -- a reference has no `allOf`, and the definition is the former fragment
      have hbare := hc ht n v hv hm t htarget href
      exact ⟨fun k h => absurd h nofun, hbare.fragment⟩
  · rw [hhoists.rewrites.store]

/-- Settling adds to a list only where a reference is passed on to a node that holds one. -/
theorem settleVisits_conserves (hoverride : e.override = none) :
    Within (Conserves e.target refs) e.settleVisits := by
  have hsettle : ∀ links n, Within (Conserves e.target refs) (e.settle links n) := fun links n c =>
    { store := (bears_persists.settle links n c).store
      rests := bears_rests.settle links n c
      order := (bears_persists.settle links n c).order
      references := fun m hm => by
        obtain ⟨v, hv, href⟩ := Survey.isReference_iff.mp hm
        -- A body that refers keeps its reference; this is asked of one node at a time.
        have hkept := (referring_preserved e.target (· = m)).settle hoverride links n
          (c := c) fun k u hu hk => by
            subst hk
            rw [Option.some.inj (hu.symm.trans hv)]
            exact href
        obtain ⟨w, hw, -⟩ := (bears_persists.settle links n c).visits hv
        exact Survey.isReference_iff.mpr ⟨w, hw, hkept m w hw rfl⟩
      modest := (modest_preserved e.target refs).settle hoverride links n
      lists := settle_lists hoverride links n }
  refine .bind within_get fun c => ?_
  dsimp only
  generalize c.survey.order.reverse = ns
  induction ns with
  | nil => exact within_pure _
  | cons n rest ih => exact .bind (hsettle _ n) fun _ => ih

/-- Listing the definitions changes no annotation. -/
theorem listDefinitions_conserves : Within (Conserves target refs) e.listDefinitions := by
  refine .bind within_get fun c => ?_
  dsimp only
  refine .bind (fun d => ?_) fun _ => ?_
  · exact conserves_of_eq rfl rfl rfl
  · split
    · exact fail_conserves _
    · exact within_pure _

/-- Finishing a document changes no annotation. -/
theorem finalize_conserves (v : Value) :
    Within (Conserves target refs) (Conversion.finalize v) := by
  refine .bind within_get fun c => ?_
  split
  · exact within_pure _
  · exact fail_conserves _

/-- **Emissions.** Every emission conserves annotations and their lists, whatever comes of it. -/
theorem document_conserves (hoverride : e.override = none) :
    Within (Conserves e.target refs) e.document := by
  refine .bind within_get fun c => ?_
  split
  · exact fail_conserves _
  · have hclaim : Within (Conserves e.target refs) e.claim :=
      .bind within_get fun _ => fun c => conserves_of_eq rfl rfl rfl
    have hcompose : Within (Conserves e.target refs) e.compose :=
      .bind hclaim fun _ => .bind hoist_conserves fun _ =>
        .bind (settleVisits_conserves hoverride) fun _ => listDefinitions_conserves
    refine .bind hcompose fun entries => .bind (finalize_conserves _) fun json => ?_
    refine .bind (.bind within_get fun _ => fun c => ?_) fun _ => within_pure _
    exact conserves_of_rewrites (log_rewrites _ c) rfl

end Emission

/-! ### Conversions -/

namespace Conversion

/-- In the dialect that would add to it, no node that was visited and passes the content of a
    reference on is annotated with a list. -/
def Unasking (guide : Guide) (c : Conversion) : Prop :=
  guide.settings.target = .draft7 → ∀ n m, c.survey.has n = true →
    c.store.Passes guide.settings.side n m → c.survey.IsReference m →
    ∀ notes, (c.store.catalog guide.catalog).get? n = some notes →
    ∀ k, (Emission.allOfKey, Value.shared k) ∉ notes

/-- Before the first document, what was visited asks for as much as its annotations do. -/
theorem Unasking.modest {guide : Guide} {p c : Conversion} (h : c.Unasking guide)
    (hp : p.survey.Intact guide c.store) (horder : c.survey.order = p.survey.order) :
    Emission.Modest guide.settings.target c.survey.IsReference p := by
  intro ht n v hv _ m hm href
  obtain ⟨links, w, hw, hfragment, htarget⟩ := hp.contents hv
  have hn : c.survey.has n = true := by
    rw [Survey.has_iff, horder, ← Survey.has_iff]
    exact Survey.has_of_visit? hv
  have hbare : ∀ k, v.fragment.get? Emission.allOfKey ≠ some (.shared k) := by
    intro k hk
    rw [← hfragment] at hk
    obtain ⟨notes, hnotes, hmem⟩ :=
      Store.contents?_asks hw (by rw [htarget, hm]; rfl) hk
    exact h ht n m hn (hp.passes hv hm) href notes hnotes k hmem
  refine ⟨hbare, ?_⟩
  unfold Visit.body
  rw [hp.definition hv]
  exact hbare

end Conversion

namespace Converter

open Emission

variable {conv : Converter} {policy : EmissionSettings} {store : Store} {refs : NodeId → Prop}

/-- The documents of many roots conserve annotations: induction on the roots. -/
theorem emitAll_conserves (hoverride : conv.override = none) (roots : List (Value × NodeId)) :
    Within (Conserves conv.guide.settings.target refs) (conv.emitAll policy roots) := by
  induction roots with
  | nil => exact within_pure _
  | cons root rest ih =>
    obtain ⟨id, n⟩ := root
    refine .bind ?_ fun _ => .bind ih fun _ => within_pure _
    exact document_conserves (e := conv.emission policy n) hoverride

/-- The visits of roots descend, whatever comes of them. -/
theorem processAll_within (conv : Converter) (roots : List NodeId) :
    Within (Descends []) (conv.processAll roots) := by
  induction roots with
  | nil => exact within_pure _
  | cons root rest ih => exact .bind (process_within conv root) fun _ => ih

/-- A survey of several roots is intact, until the first document is composed from it. -/
theorem processAll_intact (hs : store.Closed) {roots : List NodeId} {p : Conversion}
    (h : Returns (conv.processAll roots) (start store) () p) :
    p.survey.Intact conv.guide p.store where
  explored := Explored.of_explores (processAll_explores (start_closed hs) h).1 (not_has_start store)
  stage hv := ((processAll_within conv roots).of_returns h).entered rfl hv

/-- What comes behind visits of roots leaves annotations alone, if it conserves them. -/
theorem spares_of_tail {α : Type} (hs : store.Closed) (roots : List NodeId)
    {tail : Action Conversion α}
    (htail : ∀ refs, Within (Conserves conv.guide.settings.target refs) tail)
    (hunasking : ((conv.processAll roots >>= fun _ => tail) (start store)).2.Unasking conv.guide) :
    store.Spares ((conv.processAll roots >>= fun _ => tail) (start store)).2.store := by
  have hextends := conv.processAll_extends roots (start store)
  have hdescends := (processAll_within conv roots (start store)).store (start_closed hs)
  rw [run_bind] at hunasking ⊢
  -- The lists grow while the roots are visited, and stand still from there on.
  rcases hprocess : conv.processAll roots (start store) with ⟨f | _, p⟩
  all_goals
    rw [hprocess] at hextends hdescends
    have hnotes : ∀ name {n}, (store.node? n).isSome →
        (p.store.catalog name).get? n = (store.catalog name).get? n := fun name n hn =>
      hdescends.1.notes name (by cases n <;> exact hn)
  · exact ⟨hnotes, hextends.lists⟩
  · rw [hprocess] at hunasking
    dsimp only at hunasking ⊢
    have hbehind := htail (tail p).2.survey.IsReference p
    have hintact : p.survey.Intact conv.guide (tail p).2.store :=
      ⟨(processAll_intact hs hprocess).explored.mono hbehind.store hdescends.2,
        (processAll_intact hs hprocess).stage⟩
    have hmodest := hunasking.modest hintact hbehind.order
    refine ⟨fun name n hn => ?_, ?_⟩
    · rw [hbehind.catalog]
      exact hnotes name hn
    · rw [hbehind.lists hmodest fun _ h => h]
      exact hextends.lists

/-- The conversion of a node: the descent, then one emission. -/
theorem document_eq (root : NodeId) :
    conv.document policy root = conv.processAll [root] >>= fun _ => conv.emit policy root := by
  unfold document processAll processAll
  simp only [bind_assoc, pure_bind]

/-- What is emitted for a catalog once its nodes were visited. -/
def publish (conv : Converter) (policy : EmissionSettings) (catalog : String)
    (addressing : Addressing) (roots : List (Value × NodeId)) :
    Action Conversion (List (Value × Json)) := do
  modify fun s => { s with linkage := some { catalog, addressing } }
  let docs ← conv.emitAll policy roots
  let common := commonTable (← get)
  if common.isEmpty then pure docs
  else
    let table ← Conversion.finalize (.dict common)
    let shared := Json.obj [(conv.guide.settings.target.definitionsKeyword, table)]
    pure (putDocument (.str sharedDocument) shared docs)

/-- The conversion of a catalog: the descents, then all emissions. -/
theorem documents_eq (catalog : String) (addressing : Addressing) (c : Conversion) :
    conv.documents policy catalog addressing c =
      (conv.processAll ((c.store.catalog catalog).ids.map (·.2)) >>= fun _ =>
        conv.publish policy catalog addressing (c.store.catalog catalog).ids) c := rfl

/-- The conversion of a node leaves annotations alone, whatever comes of it. -/
theorem document_spares (hs : store.Closed) (hoverride : conv.override = none) (root : NodeId)
    (hunasking : (conv.document policy root (start store)).2.Unasking conv.guide) :
    store.Spares (conv.document policy root (start store)).2.store := by
  rw [document_eq] at hunasking ⊢
  exact spares_of_tail hs [root]
    (fun _ => document_conserves (e := conv.emission policy root) hoverride) hunasking

/-- So does what is emitted for a catalog. -/
theorem publish_conserves (hoverride : conv.override = none) (catalog : String)
    (addressing : Addressing) (roots : List (Value × NodeId)) :
    Within (Conserves conv.guide.settings.target refs)
      (conv.publish policy catalog addressing roots) := by
  refine .bind (fun c => ?_) fun _ => .bind (emitAll_conserves hoverride roots) fun docs => ?_
  · exact conserves_of_eq rfl rfl rfl
  · refine .bind within_get fun c => ?_
    dsimp only
    split
    · exact within_pure _
    · exact .bind (finalize_conserves _) fun _ => within_pure _

/-- The conversion of a catalog leaves annotations alone, whatever comes of it. -/
theorem documents_spares (hs : store.Closed) (hoverride : conv.override = none) (catalog : String)
    (addressing : Addressing)
    (hunasking : (conv.documents policy catalog addressing (start store)).2.Unasking conv.guide) :
    store.Spares (conv.documents policy catalog addressing (start store)).2.store := by
  rw [documents_eq] at hunasking ⊢
  exact spares_of_tail hs _ (fun _ => publish_conserves hoverride catalog addressing _) hunasking

end Converter

end SchemaGraph
