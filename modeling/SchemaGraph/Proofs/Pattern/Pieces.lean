import SchemaGraph.Survey.Recipe

namespace SchemaGraph.Pattern

/-!
# Patterns piece by piece

A source is read from left to right as escapes, character classes, openers of named groups,
references to them, and other characters.  What the two dialects spell differently is respelled
where it is such a piece of its own, and every other piece stays as it is: nothing inside an escape
or a class is taken for something else.

* `Members`, `IsClass` — the inside of a character class, and the whole of it
* `Spelled`            — a source, read piece by piece, and its spelling in documents
* `respellChars_of_spelled` — respelling goes piece by piece
* `keyword_of_spelled` — what a pattern reads like in a document
-/

/-! ### Classes -/

/-- Characters inside a class, where a backslash stands before a character of the given kind only,
    and what would close the class stands behind a backslash. -/
inductive Members (paired : Char → Prop) : List Char → Prop
  | nil : Members paired []
  | single {c : Char} {cs : List Char} (hbracket : c ≠ ']') (hslash : c ≠ '\\')
      (h : Members paired cs) : Members paired (c :: cs)
  | pair {c : Char} {cs : List Char} (hc : paired c) (h : Members paired cs) :
      Members paired ('\\' :: c :: cs)

/-- The members of a class and the bracket that closes it.  A closing bracket in the first place is
    a member. -/
inductive ClassBody (paired : Char → Prop) : List Char → Prop
  | bracket {cs : List Char} (h : Members paired cs) : ClassBody paired (']' :: cs ++ [']'])
  | members {cs : List Char} (hne : cs ≠ []) (h : Members paired cs) :
      ClassBody paired (cs ++ [']'])

/-- A class from its opening to its closing bracket.  A circumflex in front of its members negates
    it. -/
inductive IsClass (paired : Char → Prop) : List Char → Prop
  | positive {cs : List Char} (hsign : cs.head? ≠ some '^') (h : ClassBody paired cs) :
      IsClass paired ('[' :: cs)
  | negated {cs : List Char} (h : ClassBody paired cs) : IsClass paired ('[' :: '^' :: cs)

/-! ### Sources -/

/-- The name of a group: one or more word characters. -/
def IsName (cs : List Char) : Prop := cs ≠ [] ∧ ∀ c ∈ cs, Text.isWordCharacter c = true

/-- The opener of a named group. -/
def opener : List Char := ['(', '?', 'P', '<']

/-- The reference to a named group. -/
def reference (name : List Char) : List Char := ['(', '?', 'P', '='] ++ name ++ [')']

/-- A source starts with the opener of a named group or with a reference to one. -/
def NamesGroup (source : List Char) : Prop :=
  opener <+: source ∨ ∃ name, IsName name ∧ reference name <+: source

/-- A source and its spelling in documents, piece by piece.  In its classes a backslash stands
    before a character of the given kind only. -/
inductive Spelled (paired : Char → Prop) : List Char → List Char → Prop
  | done : Spelled paired [] []
  /-- The anchor for the start of the text. -/
  | start {s t : List Char} (h : Spelled paired s t) : Spelled paired ('\\' :: 'A' :: s) ('^' :: t)
  /-- The anchor for the end of the text. -/
  | stop {s t : List Char} (h : Spelled paired s t) : Spelled paired ('\\' :: 'Z' :: s) ('$' :: t)
  /-- Any other escape. -/
  | escape {c : Char} {s t : List Char} (hstart : c ≠ 'A') (hstop : c ≠ 'Z')
      (h : Spelled paired s t) : Spelled paired ('\\' :: c :: s) ('\\' :: c :: t)
  | charClass {cs s t : List Char} (hclass : IsClass paired cs) (h : Spelled paired s t) :
      Spelled paired (cs ++ s) (cs ++ t)
  | opener {s t : List Char} (h : Spelled paired s t) :
      Spelled paired (opener ++ s) (['(', '?', '<'] ++ t)
  | reference {name s t : List Char} (hname : IsName name) (h : Spelled paired s t) :
      Spelled paired (reference name ++ s) (['\\', 'k', '<'] ++ name ++ ['>'] ++ t)
  /-- Any other character. -/
  | other {c : Char} {s t : List Char} (hbracket : c ≠ '[') (hslash : c ≠ '\\')
      (hgroup : ¬ NamesGroup (c :: s)) (h : Spelled paired s t) : Spelled paired (c :: s) (c :: t)

/-! ### Reading a class -/

variable {cs s t : List Char}

/-- A class is read up to the bracket that closes it. -/
theorem classBody?_of_members (h : Members (· ≠ '\n') cs) (s : List Char) :
    classBody? (cs ++ ']' :: s) = some (cs ++ [']'], s) := by
  induction h with
  | nil => rfl
  | @single c cs hbracket hslash _ ih =>
    have hstep : classBody? (c :: (cs ++ ']' :: s))
        = (classBody? (cs ++ ']' :: s)).map fun read => (c :: read.1, read.2) := by
      rw [classBody?.eq_def]
      split <;> simp_all
    rw [List.cons_append, hstep, ih]
    rfl
  | @pair c cs hc _ ih =>
    have hstep : classBody? ('\\' :: c :: (cs ++ ']' :: s))
        = (classBody? (cs ++ ']' :: s)).map fun read => ('\\' :: c :: read.1, read.2) := by
      rw [classBody?, if_neg hc]
    rw [List.cons_append, List.cons_append, hstep, ih]
    rfl

/-- A class whose first place holds neither a sign of negation nor a closing bracket. -/
theorem classRest?_cons {c : Char} (hsign : c ≠ '^') (hbracket : c ≠ ']') (cs : List Char) :
    classRest? (c :: cs) = classBody? (c :: cs) := by
  unfold classRest?
  simp [hsign, hbracket]

/-- A negated class whose first place holds no closing bracket. -/
theorem classRest?_negated_cons {c : Char} (hbracket : c ≠ ']') (cs : List Char) :
    classRest? ('^' :: c :: cs) = (classBody? (c :: cs)).map fun (b, r) => ('^' :: b, r) := by
  unfold classRest?
  simp [hbracket]

/-- A class whose first place holds a closing bracket, which is a member of it. -/
theorem classRest?_bracket {b r : List Char} (h : classBody? cs = some (b, r)) :
    classRest? (']' :: cs) = some (']' :: b, r) := by
  unfold classRest?
  simp [h]

/-- A negated class whose first place holds a closing bracket, which is a member of it. -/
theorem classRest?_negated_bracket {b r : List Char} (h : classBody? cs = some (b, r)) :
    classRest? ('^' :: ']' :: cs) = some ('^' :: ']' :: b, r) := by
  unfold classRest?
  simp [h]

/-- Members that are there start with something else than a closing bracket. -/
theorem Members.exists_cons {paired : Char → Prop} (h : Members paired cs) (hne : cs ≠ []) :
    ∃ c rest, cs = c :: rest ∧ c ≠ ']' := by
  cases h with
  | nil => exact absurd rfl hne
  | single hbracket _ _ => exact ⟨_, _, rfl, hbracket⟩
  | pair _ _ => exact ⟨_, _, rfl, by decide⟩

/-- What stands behind the opening bracket of a class is read up to the closing one. -/
theorem classRest?_of_isClass (h : IsClass (· ≠ '\n') ('[' :: cs)) (s : List Char) :
    classRest? (cs ++ s) = some (cs, s) := by
  -- A closing bracket right behind the opening one, or its caret, is a member.
  cases h with
  | positive hsign h =>
    cases h with
    | @bracket ms h =>
      have hbody := classRest?_bracket (classBody?_of_members h s)
      rwa [List.append_assoc, List.cons_append, List.singleton_append]
    | @members ms hne h =>
      have hbody := classBody?_of_members h s
      obtain ⟨c, rest, rfl, hbracket⟩ := h.exists_cons hne
      rw [List.append_assoc, List.singleton_append, List.cons_append,
        classRest?_cons (fun hc => hsign (congrArg some hc)) hbracket]
      exact hbody
  | negated h =>
    cases h with
    | @bracket ms h =>
      have hbody := classRest?_negated_bracket (classBody?_of_members h s)
      rwa [List.cons_append, List.append_assoc, List.cons_append, List.singleton_append]
    | @members ms hne h =>
      have hbody := classBody?_of_members h s
      obtain ⟨c, rest, rfl, hbracket⟩ := h.exists_cons hne
      rw [List.cons_append] at hbody
      rw [List.cons_append, List.append_assoc, List.singleton_append, List.cons_append,
        classRest?_negated_cons hbracket, hbody]
      rfl

/-! ### Reading a source -/

/-- A name is read up to the parenthesis behind it. -/
theorem nameRest?_of_isName {name : List Char} (h : IsName name) (s : List Char) :
    nameRest? (name ++ ')' :: s) = some (name, s) := by
  have hclose : Text.isWordCharacter ')' = false := by decide
  have htake : (name ++ ')' :: s).takeWhile Text.isWordCharacter = name := by
    rw [List.takeWhile_append_of_pos h.2, List.takeWhile_cons_of_neg (by rw [hclose]; decide),
      List.append_nil]
  have hdrop : (name ++ ')' :: s).dropWhile Text.isWordCharacter = ')' :: s := by
    rw [List.dropWhile_append_of_pos h.2, List.dropWhile_cons_of_neg (by rw [hclose]; decide)]
  unfold nameRest?
  rw [htake, hdrop]
  cases name with
  | nil => exact absurd rfl h.1
  | cons c rest => rfl

/-- A name that was read is one, and stands in front of a parenthesis. -/
theorem isName_of_nameRest? {name : List Char} (h : nameRest? cs = some (name, s)) :
    IsName name ∧ cs = name ++ ')' :: s := by
  unfold nameRest? at h
  split at h
  · rename_i c rest after htake hdrop
    obtain ⟨rfl, rfl⟩ := Prod.mk.inj (Option.some.inj h)
    refine ⟨⟨nofun, ?_⟩, ?_⟩
    · rw [← htake]
      exact List.all_eq_true.mp List.all_takeWhile
    · rw [← htake, ← hdrop, List.takeWhile_append_dropWhile]
  · cases h

/-- An escape is one piece, unless it stands for a line break. -/
theorem next_of_escape {c : Char} (h : c ≠ '\n') (s : List Char) :
    next '\\' (c :: s) = (.escape c, s) := if_neg h

/-- A class is one piece. -/
theorem next_of_isClass (h : IsClass (· ≠ '\n') ('[' :: cs)) (s : List Char) :
    next '[' (cs ++ s) = (.bracket ('[' :: cs), s) := by
  simp [next, classRest?_of_isClass h s]

/-- A reference to a named group is one piece. -/
theorem next_of_isName {name : List Char} (h : IsName name) (s : List Char) :
    next '(' ('?' :: 'P' :: '=' :: (name ++ ')' :: s)) = (.backreference name, s) := by
  simp [next, nameRest?_of_isName h s]

/-- A character that starts no other piece is a piece of its own. -/
theorem next_of_other {c : Char} (hbracket : c ≠ '[') (hslash : c ≠ '\\')
    (hgroup : ¬ NamesGroup (c :: s)) : next c s = (.plain c, s) := by
  unfold next
  split
  · exact absurd rfl hslash
  · exact absurd rfl hbracket
  · rename_i more
    exact absurd (.inl (List.prefix_append opener more)) hgroup
  · rename_i more
    split
    · rename_i name after hname
      obtain ⟨hisName, rfl⟩ := isName_of_nameRest? hname
      refine absurd (.inr ⟨name, hisName, after, ?_⟩) hgroup
      simp [reference]
    · rfl
  · rfl

/-- A source is respelled so as soon as there may be as many tokens as it has characters. -/
def Reads (s t : List Char) : Prop :=
  ∀ fuel, s.length ≤ fuel → (tokensWithin fuel s).flatMap Token.respelled = t

/-- The first token is read, and then those of the rest. -/
theorem Reads.step {c : Char} {more : List Char} {token : Token}
    (hnext : next c cs = (token, more)) (hmore : more.length ≤ cs.length) (h : Reads more t) :
    Reads (c :: cs) (token.respelled ++ t) := by
  intro fuel hfuel
  cases fuel with
  | zero => cases hfuel
  | succ fuel =>
    have hless := Nat.le_trans hmore (Nat.le_of_succ_le_succ hfuel)
    rw [tokensWithin, hnext, List.flatMap_cons, h fuel hless]

/-- An escape of no anchor stays as it is.  Where it stands for a line break it makes two tokens,
    which stay side by side. -/
theorem Reads.escape {c : Char} (hstart : c ≠ 'A') (hstop : c ≠ 'Z') (h : Reads s t) :
    Reads ('\\' :: c :: s) ('\\' :: c :: t) := by
  by_cases hbreak : c = '\n'
  · subst hbreak
    exact .step rfl (Nat.le_refl _) (.step rfl (Nat.le_refl _) h)
  · have hspelled : (Token.escape c).respelled = ['\\', c] := by
      unfold Token.respelled
      split <;> simp_all
    have hstep := h.step (next_of_escape hbreak s) (Nat.le_succ _)
    rwa [hspelled] at hstep

/-- **Respelling goes piece by piece.** A source is spelled as its pieces are. -/
theorem reads_of_spelled (h : Spelled (· ≠ '\n') s t) : Reads s t := by
  induction h with
  | done =>
    intro fuel _
    cases fuel <;> rfl
  | start _ ih => exact ih.step rfl (Nat.le_succ _)
  | stop _ ih => exact ih.step rfl (Nat.le_succ _)
  | escape hstart hstop _ ih => exact ih.escape hstart hstop
  | @charClass cs s t hclass _ ih =>
    obtain ⟨body, rfl⟩ : ∃ body, cs = '[' :: body := by cases hclass <;> exact ⟨_, rfl⟩
    exact ih.step (next_of_isClass hclass s) (by simp)
  | opener _ ih => exact ih.step rfl (Nat.le_add_right _ 3)
  -- A reference is read up to its closing parenthesis, name included.
  | @reference name s t hname _ ih =>
    have hsource : Pattern.reference name ++ s
        = '(' :: '?' :: 'P' :: '=' :: (name ++ ')' :: s) := by
      simp [Pattern.reference]
    rw [hsource]
    exact ih.step (next_of_isName hname s) (by simp; omega)
  | other hbracket hslash hgroup _ ih =>
    exact ih.step (next_of_other hbracket hslash hgroup) (Nat.le_refl _)

/-- A source that is spelled piece by piece is respelled so. -/
theorem respell_of_spelled {source : String} (h : Spelled (· ≠ '\n') source.toList t) :
    respell source = String.ofList t :=
  congrArg String.ofList (reads_of_spelled h _ (Nat.le_refl _))

/-! ### Patterns -/

/-- Only a parenthesis starts the opener of a group or a reference to one. -/
theorem not_namesGroup {c : Char} (h : c ≠ '(') (s : List Char) : ¬ NamesGroup (c :: s) := by
  rintro (⟨more, hmore⟩ | ⟨name, -, more, hmore⟩)
  · exact h (List.cons.inj hmore).1.symm
  · exact h (List.cons.inj hmore).1.symm

/-- A parenthesis and a question mark before anything but `P` start no name of a group. -/
theorem not_namesGroup_of_ne {c : Char} (h : c ≠ 'P') (s : List Char) :
    ¬ NamesGroup ('(' :: '?' :: c :: s) := by
  rintro (⟨more, hmore⟩ | ⟨name, -, more, hmore⟩)
  · simp [Pattern.opener, h.symm] at hmore
  · simp [Pattern.reference, h.symm] at hmore

/-- **Patterns in documents.** A pattern without flags whose source is made of escapes, classes,
    openers of named groups, references to them and other characters reads like them piece by piece:
    the anchors for the start and the end of the text, the openers and the references are
    respelled, and every other piece stays as it is.  A class with a line break behind a backslash
    is left out. -/
theorem keyword_of_spelled {p : Pattern} (hflags : p.flagged = false) {t : List Char}
    (h : Spelled (· ≠ '\n') p.source.toList t) (path : Path) :
    p.keyword path = .ok (String.ofList t) := by
  unfold keyword
  rw [hflags, respell_of_spelled h]
  rfl

/-- A named group, a reference to it, and a class that looks like them and like anchors. -/
def guardedGroup : Pattern where
  source := "\\A(?P<q>[]\\]\\A(?P<])\\\\A(?P=q)\\Z"

/-- The class stays as it is, and so does the letter behind an escaped backslash. -/
theorem keyword_of_spelled_guardedGroup :
    guardedGroup.flagged = false ∧
      guardedGroup.keyword [] = .ok "^(?<q>[]\\]\\A(?P<])\\\\A\\k<q>$" := by
  refine ⟨rfl, ?_⟩
  have hclass : IsClass (· ≠ '\n') "[]\\]\\A(?P<]".toList :=
    .positive (by decide) (.bracket (.pair (by decide) (.pair (by decide) (.single (by decide)
      (by decide) (.single (by decide) (by decide) (.single (by decide) (by decide)
      (.single (by decide) (by decide) .nil)))))))
  have hname : IsName ['q'] := ⟨by decide, List.forall_mem_singleton.mpr (by decide)⟩
  have hspelled : Spelled (· ≠ '\n') guardedGroup.source.toList
      "^(?<q>[]\\]\\A(?P<])\\\\A\\k<q>$".toList :=
    .start (.opener (.other (by decide) (by decide) (not_namesGroup (by decide) _)
      (.other (by decide) (by decide) (not_namesGroup (by decide) _) (.charClass hclass
      (.other (by decide) (by decide) (not_namesGroup (by decide) _)
      (.escape (by decide) (by decide) (.other (by decide) (by decide)
      (not_namesGroup (by decide) _) (.reference hname (.stop .done)))))))))
  exact keyword_of_spelled rfl hspelled []

/-- A class that holds a line break behind a backslash and, behind that, what looks like the opener
    of a named group. -/
def brokenClass : Pattern where
  source := "[\\\n(?P<]"

/-- The class is a piece of its own, but it is taken apart, and what it holds is respelled. -/
theorem keyword_breaks_class :
    brokenClass.flagged = false ∧
      Spelled (fun _ => True) brokenClass.source.toList brokenClass.source.toList ∧
      brokenClass.keyword [] = .ok "[\\\n(?<]" := by
  refine ⟨rfl, ?_, rfl⟩
  have hclass : IsClass (fun _ => True) "[\\\n(?P<]".toList :=
    .positive (by decide) (.members (by decide) (.pair trivial (.single (by decide) (by decide)
      (.single (by decide) (by decide) (.single (by decide) (by decide) (.single (by decide)
      (by decide) .nil))))))
  exact .charClass hclass .done

end SchemaGraph.Pattern
