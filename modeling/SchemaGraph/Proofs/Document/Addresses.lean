import SchemaGraph.Proofs.Document.Listing

namespace SchemaGraph

/-!
# Addresses across documents

Documents that refer to each other have addresses made from their ids, and the definitions that
they have in common have addresses inside the document for these.  A template fills in every
place that it has for the id, so that the address tells the id; and an address inside a document
has one sign `#` more than the address of any document.

* `UriTemplate.render_injective` — different ids have different addresses
* `UriTemplate.render_ne_inside` — no document has an address that leads inside another
* `Json.across?`                 — the body to which a reference leads among several documents
-/

/-! ### Templates -/

/-- The number of places for the id. -/
def places : List Char → Nat
  | '\x7b' :: 'i' :: 'd' :: '\x7d' :: rest => places rest + 1
  | _ :: rest => places rest
  | [] => 0

/-- A template that has a place for the id has one at least. -/
theorem places_pos {t : List Char} (h : hasPlaceholder t = true) : 0 < places t := by
  fun_induction places t with
  | case1 rest ih => omega
  | case2 c rest hc ih =>
    refine ih ?_
    rw [hasPlaceholder] at h
    · exact h
    · exact hc
  | case3 => cases h

/-- What is counted in a filled template stands in the ids or between them. -/
theorem countP_fillPlaceholders (p : Char → Bool) (id t : List Char) :
    (fillPlaceholders id t).countP p
      = places t * id.countP p + (fillPlaceholders [] t).countP p := by
  fun_induction places t with
  | case1 rest ih =>
    rw [fillPlaceholders, fillPlaceholders, List.countP_append, ih, List.nil_append]
    rw [Nat.succ_mul]
    omega
  | case2 c rest hc ih =>
    rw [fillPlaceholders, fillPlaceholders, List.countP_cons, List.countP_cons, ih]
    · omega
    · exact hc
    · exact hc
  | case3 => simp [fillPlaceholders]

/-- Ids of one length that fill a template alike are the same. -/
theorem eq_of_fillPlaceholders {id id' t : List Char} (hlength : id.length = id'.length)
    (hplace : 0 < places t) (h : fillPlaceholders id t = fillPlaceholders id' t) : id = id' := by
  fun_induction places t with
  | case1 rest ih =>
    rw [fillPlaceholders, fillPlaceholders] at h
    exact (List.append_inj h hlength).1
  | case2 c rest hc ih =>
    rw [fillPlaceholders, fillPlaceholders] at h
    · exact ih hplace (List.cons.inj h).2
    · exact hc
    · exact hc
  | case3 => cases hplace

namespace UriTemplate

variable {t : UriTemplate}

/-- **Addresses of documents.** The address of a document tells its id. -/
theorem render_injective : Function.Injective t.render := by
  intro id id' h
  have hfill := String.ofList_injective h
  have hplace := places_pos t.holdsPlace
  have hlength : id.toList.length = id'.toList.length := by
    have hcount := congrArg (List.countP fun _ => true) hfill
    rw [countP_fillPlaceholders, countP_fillPlaceholders _ id'.toList] at hcount
    simp only [List.countP_true] at hcount
    exact Nat.eq_of_mul_eq_mul_left hplace (Nat.add_right_cancel hcount)
  exact String.toList_injective (eq_of_fillPlaceholders hlength hplace hfill)

/-- **Addresses inside documents.** Of ids without `#`, no address of a document is one inside a
    document. -/
theorem render_ne_inside {id other : String} (hid : '#' ∉ id.toList) (hother : '#' ∉ other.toList)
    (inside : String) : t.render id ≠ t.render other ++ "#" ++ inside := by
  intro h
  have hnone : ∀ {s : String}, '#' ∉ s.toList → s.toList.countP (· == '#') = 0 := by
    intro s hs
    rw [List.countP_eq_zero]
    intro c hc hsign
    exact hs (beq_iff_eq.mp hsign ▸ hc)
  have hcount := congrArg (fun s : String => s.toList.countP (· == '#')) h
  simp only [render, String.toList_append, String.toList_ofList, List.countP_append,
    countP_fillPlaceholders _ id.toList, countP_fillPlaceholders _ other.toList, hnone hid,
    hnone hother] at hcount
  have hsign : "#".toList.countP (· == '#') = 1 := by decide
  omega

end UriTemplate

namespace Emission

/-- The address of a definition is that of its document with one inside the document behind. -/
theorem definitionAddress_append (target : Target) (document : String) (id : Value) :
    definitionAddress target document id = document ++ definitionAddress target "" id := by
  simp [definitionAddress, String.append_assoc]

/-- An address inside a document begins with `#`. -/
theorem exists_inside (target : Target) (id : Value) :
    ∃ inside, definitionAddress target "" id = "#" ++ inside := by
  refine ⟨"/" ++ target.definitionsKeyword ++ "/" ++ id.plain, ?_⟩
  have hsigns : "#/" = "#" ++ "/" := by decide
  simp only [definitionAddress, hsigns, String.empty_append, String.append_assoc]

/-- **Addresses are of one kind.** No address of a document is that of a common definition. -/
theorem render_ne_definitionAddress {t : UriTemplate} {id : String} (hid : '#' ∉ id.toList)
    (target : Target) (definition : Value) :
    t.render id ≠ definitionAddress target (t.render sharedDocument) definition := by
  obtain ⟨inside, hinside⟩ := exists_inside target definition
  rw [definitionAddress_append, hinside, ← String.append_assoc]
  exact UriTemplate.render_ne_inside hid (by decide) inside

end Emission

/-! ### Ids that were made -/

/-- Ids made from different numbers are different. -/
theorem eq_of_append_toString {stem : String} {k l : Nat}
    (h : stem ++ toString k = stem ++ toString l) : k = l := by
  have hlist := congrArg String.toList h
  rw [String.toList_append, String.toList_append, List.append_cancel_left_eq, Nat.toString_eq_repr,
    Nat.toString_eq_repr, Nat.toList_repr, Nat.toList_repr] at hlist
  have hdigits := congrArg (fun cs => Nat.ofDigitChars 10 cs 0) hlist
  rwa [Nat.ofDigitChars_ten_toDigits, Nat.ofDigitChars_ten_toDigits] at hdigits

/-- A sign that is no digit stands in an id that was made only if it stands in the stem. -/
theorem mem_of_mem_append_toString {stem : String} {k : Nat} {c : Char}
    (h : c ∈ (stem ++ toString k).toList) (hc : c.isDigit = false) : c ∈ stem.toList := by
  rw [String.toList_append, List.mem_append] at h
  refine h.resolve_right fun h => ?_
  rw [Nat.toString_eq_repr, Nat.toList_repr] at h
  have hdigit := Nat.isDigit_of_mem_toDigits (by decide) (by decide) h
  rw [hdigit] at hc
  cases hc

/-! ### Several documents -/

namespace Json

/-- The document with an id. -/
def named? (id : String) : List (Value × Json) → Option Json
  | [] => none
  | (i, doc) :: rest => if i = .str id then some doc else named? id rest

/-- The members of a document that describe its root, when its table is in another document. -/
def described : Json → List (String × Json)
  | .obj ms => ms.filter fun m => m.1 ≠ "$schema"
  | _ => []

/-- What describes the root keeps every member but the dialect. -/
theorem lookup?_described {name : String} (hname : name ≠ "$schema") (ms : List (String × Json)) :
    lookup? name (described (.obj ms)) = lookup? name ms :=
  lookup?_filter (fun _ => by simp [hname]) ms

/-- What describes the root does not name the dialect. -/
theorem lookup?_described_dialect (ms : List (String × Json)) :
    lookup? "$schema" (described (.obj ms)) = none :=
  lookup?_filter_eq_none (fun _ => by simp) ms

/-- Whether a document has an address. -/
def isAt (t : UriTemplate) (address : String) : Value × Json → Bool
  | (.str id, _) => t.render id = address
  | _ => false

/-- A document is at an address if its id is a text that renders to the address. -/
theorem isAt_iff {t : UriTemplate} {address : String} {d : Value × Json} :
    isAt t address d = true ↔ ∃ id, d.1 = .str id ∧ t.render id = address := by
  obtain ⟨i, doc⟩ := d
  cases i <;> simp [isAt]

/-- The body to which a reference leads among several documents: one of the documents, or an
    object in the document that holds what they have in common. -/
def across? (t : UriTemplate) (docs : List (Value × Json)) (address : String) :
    Option (List (String × Json)) :=
  match docs.find? (isAt t address) with
  | some (_, doc) => some doc.described
  | none =>
    match (t.render Emission.sharedDocument).toList.isPrefixOf? address.toList with
    | none => none
    | some rest =>
      (named? Emission.sharedDocument docs).bind (object? · (String.ofList rest))

/-- A text is a prefix of what begins with it. -/
theorem isPrefixOf?_append (cs rest : List Char) : cs.isPrefixOf? (cs ++ rest) = some rest := by
  induction cs with
  | nil => rfl
  | cons c cs ih => simp [List.isPrefixOf?, ih]

/-- Where ids are different, the document of an id is found. -/
theorem named?_of_mem {id : String} {doc : Json} {docs : List (Value × Json)}
    (hd : docs.Pairwise fun a b => a.1 ≠ b.1) (h : (.str id, doc) ∈ docs) :
    named? id docs = some doc := by
  induction docs with
  | nil => cases h
  | cons d rest ih =>
    obtain ⟨i, doc'⟩ := d
    obtain ⟨hfirst, hd⟩ := List.pairwise_cons.mp hd
    unfold named?
    rcases List.mem_cons.mp h with h | h
    · cases h
      rw [if_pos rfl]
    · rw [if_neg (hfirst _ h)]
      exact ih hd h

/-- No document is found for an id that none has. -/
theorem named?_eq_none {id : String} {docs : List (Value × Json)}
    (h : ∀ d ∈ docs, d.1 ≠ .str id) : named? id docs = none := by
  induction docs with
  | nil => rfl
  | cons d rest ih =>
    obtain ⟨i, doc⟩ := d
    obtain ⟨hfirst, hrest⟩ := List.forall_mem_cons.mp h
    unfold named?
    rw [if_neg hfirst]
    exact ih hrest

/-- The address of a document leads to it. -/
theorem across?_render {t : UriTemplate} {docs : List (Value × Json)} {id : String} {doc : Json}
    (hd : docs.Pairwise fun a b => a.1 ≠ b.1) (h : (.str id, doc) ∈ docs) :
    across? t docs (t.render id) = some doc.described := by
  unfold across?
  cases hfind : docs.find? (isAt t (t.render id)) with
  | none =>
    have hnot := List.find?_eq_none.mp hfind _ h
    exact absurd (isAt_iff.mpr ⟨id, rfl, rfl⟩) hnot
  | some d =>
    obtain ⟨i, doc'⟩ := d
    obtain ⟨other, rfl, hsame⟩ := isAt_iff.mp (List.find?_some hfind)
    obtain rfl := UriTemplate.render_injective hsame
    have hfirst := named?_of_mem hd (List.mem_of_find?_eq_some hfind)
    rw [named?_of_mem hd h] at hfirst
    rw [Option.some.inj hfirst]

/-- The address of a common definition leads into the document that holds these. -/
theorem across?_definitionAddress {t : UriTemplate} {docs : List (Value × Json)} {shared : Json}
    (target : Target) (id : Value) (hids : ∀ d ∈ docs, ∀ id, d.1 = .str id → '#' ∉ id.toList)
    (hshared : named? Emission.sharedDocument docs = some shared) :
    across? t docs
        (Emission.definitionAddress target (t.render Emission.sharedDocument) id)
      = shared.object? (Emission.definitionAddress target "" id) := by
  obtain ⟨inside, hinside⟩ := Emission.exists_inside target id
  rw [Emission.definitionAddress_append target _ id, hinside]
  unfold across?
  cases hfind : docs.find? (isAt t (t.render Emission.sharedDocument ++ ("#" ++ inside))) with
  | some d =>
    obtain ⟨other, hother, hsame⟩ := isAt_iff.mp (List.find?_some hfind)
    rw [← hinside, ← Emission.definitionAddress_append] at hsame
    refine absurd hsame (Emission.render_ne_definitionAddress ?_ target id)
    exact hids d (List.mem_of_find?_eq_some hfind) other hother
  | none =>
    rw [String.toList_append, isPrefixOf?_append, hshared]
    simp

end Json

/-- **Root.** Behind its dialect a document that leaves its table to another one shows the body of
    its root. -/
theorem Emission.matches_described {e : Emission} {survey : Survey} {view : View} {doc : Json}
    (ht : (survey.definition e.root).Texts) (hd : (survey.definition e.root).Distinct)
    (hschema : (survey.definition e.root).get? "$schema" = none)
    (h : view.Shows (.dict (e.assemble survey [])) doc) :
    view.Matches (survey.definition e.root) doc.described := by
  obtain ⟨ds, rfl, hds⟩ := matches_assemble ht hd h
  intro name
  by_cases hname : name = "$schema"
  · subst hname
    rw [Json.lookup?_described_dialect, hschema]
    exact .none
  · rw [Json.lookup?_described hname]
    have hrel := hds name
    rw [get?_assemble, if_neg hname, if_neg fun h => h.2 rfl] at hrel
    exact hrel

end SchemaGraph
