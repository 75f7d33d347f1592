import SchemaGraph.Proofs.Pattern.Pieces
import SchemaGraph.Proofs.Survey.Cycles

namespace SchemaGraph

open SchemaGraph.Action Conversion

/-!
# Patterns of concatenations

The pattern of a concatenation is put together from escaped texts and a few fixed sources.  None of
them, alone or beside others, looks like anything that documents spell in another way, so that the
pattern reads in documents as it was made.

* `Pattern.Inert`           — text that stays as it is in front of any source
* `Blueprint.inert_concatenationPattern` — patterns of concatenations
* `Blueprint.concatenation_kept` — the keywords of a concatenation, wherever it is visited
-/

namespace Pattern

/-- Text that stays as it is, and keeps what follows it apart, in front of any source. -/
def Inert (cs : List Char) : Prop :=
  ∀ s t, Spelled (· ≠ '\n') s t → Spelled (· ≠ '\n') (cs ++ s) (cs ++ t)

variable {cs ds : List Char}

/-- The empty text is inert. -/
theorem Inert.nil : Inert [] := fun _ _ h => h

/-- Inert texts one after the other are inert. -/
theorem Inert.append (hcs : Inert cs) (hds : Inert ds) : Inert (cs ++ ds) := by
  intro s t h
  rw [List.append_assoc, List.append_assoc]
  exact hcs _ _ (hds s t h)

/-- Text without brackets, backslashes and parentheses that open. -/
theorem inert_of_plain (h : ∀ c ∈ cs, c ≠ '[' ∧ c ≠ '\\' ∧ c ≠ '(') : Inert cs := by
  intro s t hs
  induction cs with
  | nil => exact hs
  | cons c cs ih =>
    obtain ⟨⟨hbracket, hslash, hopens⟩, hrest⟩ := List.forall_mem_cons.mp h
    exact .other hbracket hslash (not_namesGroup hopens _) (ih hrest)

/-- An escape of no anchor. -/
theorem inert_escape {c : Char} (hstart : c ≠ 'A') (hstop : c ≠ 'Z') : Inert ['\\', c] :=
  fun _ _ h => .escape hstart hstop h

/-- The opener of a group without a name. -/
theorem inert_group : Inert ['(', '?', ':'] := by
  have hrest : Inert ['?', ':'] := inert_of_plain (by simp)
  intro s t h
  exact .other (by decide) (by decide) (not_namesGroup_of_ne (by decide) _) (hrest s t h)

/-- **Escapes.** A special character becomes an escape of no anchor, and another character is none
    that starts a longer piece. -/
theorem inert_escapeChar (c : Char) : Inert (escapeChar c) := by
  unfold escapeChar
  split
  · rename_i hspecial
    refine inert_escape ?_ ?_ <;>
      · rintro rfl
        exact absurd hspecial (by decide)
  · rename_i hspecial
    refine inert_of_plain fun d hd => ?_
    obtain rfl := List.mem_singleton.mp hd
    refine ⟨?_, ?_, ?_⟩ <;>
      · rintro rfl
        exact hspecial (by decide)

/-- The source that matches just a given text. -/
theorem inert_escape_text (text : String) : Inert (escape text).toList := by
  have hchars : ∀ cs : List Char, Inert (escapeChars cs) := by
    intro cs
    induction cs with
    | nil => exact .nil
    | cons c rest ih => exact (inert_escapeChar c).append ih
  rw [escape, String.toList_ofList]
  exact hchars _

/-- Parts with a separator in between. -/
theorem inert_intercalate {separator : String} (hseparator : Inert separator.toList) :
    ∀ {parts : List String}, (∀ part ∈ parts, Inert part.toList) →
      Inert (separator.intercalate parts).toList
  | [], _ => .nil
  | [part], h => by
    rw [String.intercalate_singleton]
    exact h part (List.mem_singleton_self _)
  | part :: next :: rest, h => by
    obtain ⟨hpart, hrest⟩ := List.forall_mem_cons.mp h
    rw [String.intercalate_cons_cons, String.toList_append, String.toList_append]
    exact (hpart.append hseparator).append (inert_intercalate hseparator hrest)

end Pattern

namespace Blueprint

open Pattern

/-- What a part stands for. -/
theorem inert_partSource (part : Node) : Inert (partSource part).toList := by
  have hopens : Inert ['(', '?', ':'] := inert_group
  unfold partSource
  -- Numbers, booleans, lists of literals, and any text at all.
  split
  · have hdigits : Inert ['\\', 'd'] := inert_escape (by decide) (by decide)
    have hpoint : Inert ['\\', '.'] := inert_escape (by decide) (by decide)
    have hsign : Inert ['-', '?'] := inert_of_plain (by simp)
    have hmany : Inert ['+'] := inert_of_plain (by simp)
    have hcloses : Inert ['+', ')', '?'] := inert_of_plain (by simp)
    exact hsign.append <| hdigits.append <| hmany.append <| hopens.append <| hpoint.append <|
      hdigits.append hcloses
  · have hwords : Inert "true|false)".toList := inert_of_plain (by simp)
    exact hopens.append hwords
  · have hcloses : Inert [')'] := inert_of_plain (by simp)
    rw [String.toList_append, String.toList_append]
    have hbetween : Inert "|".toList := inert_of_plain (by simp)
    refine (hopens.append (inert_intercalate hbetween ?_)).append hcloses
    intro part hpart
    obtain ⟨v, -, rfl⟩ := List.mem_map.mp hpart
    exact inert_escape_text _
  · have hany : Inert ".*".toList := inert_of_plain (by simp)
    exact hany

/-- **Patterns of concatenations.** Nothing in them looks like a piece that documents spell in
    another way. -/
theorem inert_concatenationPattern (parts : List (Sum String Node)) :
    Inert (concatenationPattern parts).source.toList := by
  have hstart : Inert ['^'] := inert_of_plain (by simp)
  have hstop : Inert ['$'] := inert_of_plain (by simp)
  rw [concatenationPattern, String.toList_append, String.toList_append]
  have hbetween : Inert "".toList := .nil
  refine (hstart.append (inert_intercalate hbetween ?_)).append hstop
  intro source hsource
  obtain ⟨part, -, rfl⟩ := List.mem_map.mp hsource
  cases part with
  | inl text => exact inert_escape_text text
  | inr part => exact inert_partSource part

/-- The pattern of a concatenation reads in documents as it was made. -/
theorem keyword_concatenationPattern (parts : List (Sum String Node)) (path : Path) :
    (concatenationPattern parts).keyword path = .ok (concatenationPattern parts).source := by
  have hspelled := inert_concatenationPattern parts [] [] .done
  rw [List.append_nil] at hspelled
  unfold Pattern.keyword
  rw [respell_of_spelled hspelled, String.ofList_toList]
  rfl

end Blueprint

/-! ### Visits -/

namespace Node

/-- A node that is a concatenation with the given pattern, and neither a clone nor lowered by a
    function. -/
structure Concatenates (node : Node) (p : Pattern) : Prop where
  kind : node.kind = .templateLiteral
  pattern : node.pattern = some p
  parent : node.parent = .gap
  lowering : node.lowering = .null

variable {node : Node} {p : Pattern}

/-- The recipe of a concatenation writes the pattern as it was made. -/
theorem Concatenates.recipe (h : node.Concatenates p)
    (hkept : ∀ path, p.keyword path = .ok p.source) (settings : LoweringSettings)
    (catchall : Option Kind) (path : Path) :
    node.recipe settings catchall path
      = [.write "type" "string", .write "pattern" (.str p.source)] := by
  have hstep : patternStep p path = .write "pattern" (.str p.source) := by
    unfold patternStep
    rw [hkept path]
  unfold Node.recipe
  rw [if_neg (not_not_intro h.lowering), if_neg (not_not_intro h.parent)]
  unfold kindSteps
  rw [h.kind]
  dsimp only
  unfold templateSteps
  rw [h.pattern]
  dsimp only
  rw [hstep]

end Node

namespace Store

variable {s s' : Store} {n : NodeId}

/-- What a concatenation contributes: its type and its pattern, under its annotation. -/
theorem contents?_concatenation {node : Node} {p : Pattern} {guide : Guide} {links : Nat}
    {v : Visit} (hn : s.node? n = some node) (h : node.Concatenates p)
    (hkept : ∀ path, p.keyword path = .ok p.source) (hv : s.contents? guide links n = some v) :
    v.fragment = Entries.update [("type", "string"), ("pattern", .str p.source)]
      (((s.catalog guide.catalog).get? n).getD []) := by
  obtain ⟨node', w, hn', hw, rfl⟩ := contents?_eq_some.mp hv
  obtain rfl := Option.some.inj (hn.symm.trans hn')
  rw [h.recipe hkept] at hw
  obtain rfl := Option.some.inj hw
  -- there is no default to settle
  have hsettled : ∀ w : Visit, w.prefault = .undefined →
      (w.settled guide.settings.side node.kind).fragment = w.fragment := by
    intro w hw
    unfold Visit.settled settleDefault
    rw [h.kind, hw]
    split <;> rfl
  cases (s.catalog guide.catalog).get? n with
  | none => exact hsettled _ rfl
  | some notes => exact hsettled _ rfl

/-- A concatenation is made with the pattern of its parts. -/
theorem build_concatenation {parts : List (Sum String Blueprint)}
    (h : Returns (build (.concatenation parts)) s n s') :
    ∃ node made, s'.node? n = some node ∧
      node.Concatenates (Blueprint.concatenationPattern made) := by
  unfold build at h
  obtain ⟨made, t, -, hadd⟩ := returns_bind.mp h
  unfold addNode at hadd
  obtain ⟨_, _, hget, hrest⟩ := returns_bind.mp hadd
  obtain ⟨rfl, rfl⟩ := returns_get.mp hget
  obtain ⟨_, u, hpush, hpure⟩ := returns_bind.mp hrest
  obtain rfl := returns_modify.mp hpush
  obtain ⟨rfl, rfl⟩ := returns_pure.mp hpure
  exact ⟨_, made, node?_push_nextId _ _, rfl, rfl, rfl, rfl⟩

/-- **Concatenations in documents.** The pattern of a node that was made as a concatenation of any
    parts reads in documents as it was made, and wherever the node is visited first, by a call that
    returns, its fragment holds this pattern, under its annotation. -/
theorem concatenation_kept {parts : List (Sum String Blueprint)}
    (hbuild : Returns (build (.concatenation parts)) s n s') :
    ∃ p, (s'.node? n).bind (·.pattern) = some p ∧ (∀ path, p.keyword path = .ok p.source) ∧
      ∀ (conv : Converter) {c d : Conversion} {root : NodeId}, c.store.Closed →
        c.store.node? n = s'.node? n → c.survey.has n = false → Returns (conv.process root) c () d →
        d.survey.has n = true →
        d.survey.fragment n = Entries.update [("type", "string"), ("pattern", .str p.source)]
          (((d.store.catalog conv.guide.catalog).get? n).getD []) := by
  obtain ⟨node, made, hn, hmade⟩ := build_concatenation hbuild
  have hkept := Blueprint.keyword_concatenationPattern made
  refine ⟨_, ?_, hkept, fun conv c d root hs hsame hnew hvisit hhas => ?_⟩
  · rw [hn]
    exact hmade.pattern
  · obtain ⟨hexplores, -⟩ := Converter.process_explores hs hvisit
    obtain ⟨v, hv⟩ := Survey.visit?_of_has hhas
    obtain ⟨links, w, hw, hcontent⟩ := hexplores.contents hnew hv
    have hnode : d.store.node? n = some node :=
      (hexplores.descends.store hs).1.node? (hsame.trans hn)
    have hfragment : w.fragment = v.fragment := congrArg (·.1) hcontent
    unfold Survey.fragment
    rw [hv, Option.map_some, Option.getD_some, ← hfragment]
    exact contents?_concatenation hnode hmade hkept hw

/-- An anchor and the opener of a group as plain text, a bracket with a line break behind it, a
    numeral, and any text. -/
def guardedParts : List (Sum String Blueprint) :=
  [.inl "\\A(?P<a>", .inr (.literal [.str "[\n", .null]), .inr (.leaf .number),
    .inr (.leaf .string)]

/-- The concatenation of the parts, and the store that it was made in. -/
def guardedMade : Except Failure NodeId × Store := build (.concatenation guardedParts) {}

/-- The conversion that has visited the concatenation. -/
def guardedVisited : Except Failure Unit × Conversion :=
  (({} : Converter).process (.node 3)) (start guardedMade.2)

/-- The concatenation holds the pattern of its parts. -/
theorem concatenation_kept_guardedParts :
    Returns (build (.concatenation guardedParts)) {} (.node 3) guardedMade.2 ∧
      Returns (({} : Converter).process (.node 3)) (start guardedMade.2) () guardedVisited.2 ∧
      guardedVisited.2.survey.fragment (.node 3) = [(.str "type", .str "string"),
        (.str "pattern", .str "^\\\\A\\(\\?P<a>(?:\\[\\\n|None)-?\\d+(?:\\.\\d+)?.*$")] := by
  have hok : guardedMade.1.toOption = some (.node 3) := by decide +kernel
  have hbuild : Returns (build (.concatenation guardedParts)) {} (.node 3) guardedMade.2 :=
    returns_of_toOption hok
  have hvisit : Returns (({} : Converter).process (.node 3)) (start guardedMade.2) ()
      guardedVisited.2 := returns_of_toOption (by decide +kernel)
  obtain ⟨p, hp, -, hkept⟩ := concatenation_kept hbuild
  refine ⟨hbuild, hvisit, ?_⟩
  have hclosed : (start guardedMade.2).store.Closed := .of_forall (by decide +kernel) nofun nofun
  rw [hkept {} hclosed rfl rfl hvisit (by decide +kernel)]
  have hsource : ((guardedMade.2.node? (.node 3)).bind (·.pattern)).map (·.source)
      = some "^\\\\A\\(\\?P<a>(?:\\[\\\n|None)-?\\d+(?:\\.\\d+)?.*$" := by decide +kernel
  rw [hp] at hsource
  rw [show p.source = _ from Option.some.inj hsource]
  have hnotes : (guardedVisited.2.store.catalog "global").get? (.node 3) = none := by
    decide +kernel
  exact congrArg (Entries.update _) (congrArg (Option.getD · []) hnotes)

end Store

end SchemaGraph
