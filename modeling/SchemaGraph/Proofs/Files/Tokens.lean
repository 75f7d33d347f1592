import SchemaGraph.Json.Layout
import SchemaGraph.Json.Reader

namespace SchemaGraph.Json

/-!
# Written strings and numbers read back

A string in any layout is read as it was written, and so is an integer.  Where a number ends
is told by what stands behind it.

* `Json.stringRest?_text` — a string between quotes is read as it was written
* `Json.Stops`            — a text that no number goes on with
* `Json.Stops.number?_append` — a number ends where none goes on
* `Json.number?_int`      — an integer is read as it was written
-/

/-! ### Strings -/

/-- A digit in base 16 is read as it was written. -/
theorem hexValue?_hexDigit : ∀ d < 16, hexValue? (Text.hexDigit d) = some d := by decide

/-- Four hexadecimal digits are read as the number that they were written for. -/
theorem unit?_hexDigits {n : Nat} (h : n < 0x10000) (more : List Char) :
    unit? (Text.hexDigits 4 n ++ more) = some (n, more) := by
  have hdigits : Text.hexDigits 4 n = [Text.hexDigit (n / 16 / 16 / 16 % 16),
      Text.hexDigit (n / 16 / 16 % 16), Text.hexDigit (n / 16 % 16), Text.hexDigit (n % 16)] := rfl
  rw [hdigits]
  simp only [List.cons_append, List.nil_append, unit?,
    hexValue?_hexDigit _ (Nat.mod_lt _ (by decide : 0 < 16)), Option.bind_eq_bind,
    Option.bind_some, Option.some.injEq, Prod.mk.injEq, and_true]
  omega

/-- A unit that belongs to no pair is read as a character. -/
theorem unicodeChar?_unit {n : Nat} (h : n < 0x10000) (hn : n < 0xd800 ∨ 0xdfff < n)
    (more : List Char) :
    unicodeChar? (Text.hexDigits 4 n ++ more) = some (Char.ofNat n, more) := by
  have hhigh : ¬ (0xd800 ≤ n ∧ n < 0xdc00) := by omega
  have hlow : ¬ (0xdc00 ≤ n ∧ n < 0xe000) := by omega
  unfold unicodeChar?
  simp only [unit?_hexDigits h, Option.bind_eq_bind, Option.bind_some]
  rw [if_neg (by simpa using hhigh), if_neg (by simpa using hlow)]

/-- Two units of a pair are read as one character. -/
theorem unicodeChar?_pair {v : Nat} (h : v < 0x100000) (more : List Char) :
    unicodeChar? (Text.hexDigits 4 (0xd800 + v / 0x400)
        ++ '\\' :: 'u' :: (Text.hexDigits 4 (0xdc00 + v % 0x400) ++ more))
      = some (Char.ofNat (0x10000 + v), more) := by
  have hhigh : 0xd800 + v / 0x400 < 0xdc00 := by omega
  have hlow : 0xdc00 + v % 0x400 < 0xe000 := by omega
  have hjoined : 0x10000 + (0xd800 + v / 0x400 - 0xd800) * 0x400 + (0xdc00 + v % 0x400 - 0xdc00)
      = 0x10000 + v := by omega
  unfold unicodeChar?
  rw [unit?_hexDigits (by omega)]
  simp only [Option.bind_eq_bind, Option.bind_some]
  rw [if_pos (by simpa using hhigh), unit?_hexDigits (by omega)]
  simp only
  rw [if_pos (by simpa using hlow), hjoined]

/-- An escape in hexadecimal digits is read as the character that it stands for. -/
theorem unicodeChar?_unicodeEscape (c : Char) :
    ∃ digits, unicodeEscape c.toNat = '\\' :: 'u' :: digits ∧
      ∀ more, unicodeChar? (digits ++ more) = some (c, more) := by
  have hvalid : c.toNat < 0xd800 ∨ 0xdfff < c.toNat ∧ c.toNat < 0x110000 := c.valid
  have hc : Char.ofNat c.toNat = c := Char.ofNat_toNat c
  generalize c.toNat = n at hvalid hc
  subst hc
  unfold unicodeEscape
  split
  · rename_i hshort
    exact ⟨Text.hexDigits 4 n, rfl, unicodeChar?_unit hshort (by omega)⟩
  · rename_i hlong
    obtain ⟨v, rfl⟩ : ∃ v, n = 0x10000 + v := ⟨n - 0x10000, by omega⟩
    refine ⟨Text.hexDigits 4 (0xd800 + v / 0x400) ++ unitEscape (0xdc00 + v % 0x400), ?_,
      fun more => ?_⟩
    · rw [Nat.add_sub_cancel_left, ← List.cons_append, ← List.cons_append, ← unitEscape]
    · rw [List.append_assoc, unitEscape, List.cons_append, List.cons_append]
      exact unicodeChar?_pair (by omega) more

/-- What stands for a character in a string is read as the character. -/
theorem stringRest?_escapeChar (asciiOnly : Bool) (c : Char) (fuel : Nat) (acc more : List Char) :
    stringRest? (fuel + 1) acc (escapeChar asciiOnly c ++ more)
      = stringRest? fuel (c :: acc) more := by
  obtain ⟨digits, hescape, hread⟩ := unicodeChar?_unicodeEscape c
  -- Read back in one step, if it is written by its number.
  have hunicode : stringRest? (fuel + 1) acc (unicodeEscape c.toNat ++ more)
      = stringRest? fuel (c :: acc) more := by
    rw [hescape, List.cons_append, List.cons_append, stringRest?, hread]
    rfl
  have hshort : ∀ {n : Nat}, c.toNat = n → Char.ofNat n = c := by
    rintro n rfl
    exact Char.ofNat_toNat c
  unfold escapeChar
  by_cases hquote : c = '"'
  · subst hquote; rfl
  by_cases hslash : c = '\\'
  · subst hslash; rfl
  by_cases hline : c = '\n'
  · subst hline; rfl
  by_cases hreturn : c = '\r'
  · subst hreturn; rfl
  by_cases htab : c = '\t'
  · subst htab; rfl
  rw [if_neg hquote, if_neg hslash, if_neg hline, if_neg hreturn, if_neg htab]
  -- Two control characters have short forms too.
  by_cases hback : c.toNat = 8
  · rw [if_pos hback, ← hshort hback]; rfl
  by_cases hfeed : c.toNat = 12
  · rw [if_neg hback, if_pos hfeed, ← hshort hfeed]; rfl
  rw [if_neg hback, if_neg hfeed]
  split
  · -- a control character is written in one unit
    rename_i hcontrol
    rw [unicodeEscape, if_pos (by omega)] at hunicode
    exact hunicode
  rename_i hcontrol
  split
  · exact hunicode
  · -- any other character stands for itself
    rw [List.singleton_append, stringRest?, if_neg (by omega)]
    · exact hquote
    · exact fun _ h _ => hslash h
    · exact fun _ _ h _ => hslash h

/-- A string is read as it was written. -/
theorem stringRest?_flatMap (asciiOnly : Bool) (cs : List Char) (fuel : Nat) (acc more : List Char)
    (h : cs.length < fuel) :
    stringRest? fuel acc (cs.flatMap (escapeChar asciiOnly) ++ '"' :: more)
      = some (String.ofList (acc.reverse ++ cs), more) := by
  induction cs generalizing fuel acc with
  | nil =>
    obtain ⟨fuel, rfl⟩ : ∃ k, fuel = k + 1 := ⟨fuel - 1, by simp at h; omega⟩
    simp [stringRest?]
  | cons c rest ih =>
    obtain ⟨fuel, rfl⟩ : ∃ k, fuel = k + 1 := ⟨fuel - 1, by omega⟩
    rw [List.flatMap_cons, List.append_assoc, stringRest?_escapeChar, ih]
    · simp
    · simpa using h

/-- A character is written with one character at least. -/
theorem length_le_flatMap_escapeChar (asciiOnly : Bool) (cs : List Char) :
    cs.length ≤ (cs.flatMap (escapeChar asciiOnly)).length := by
  induction cs with
  | nil => simp
  | cons c cs ih =>
    have hpos : 0 < (escapeChar asciiOnly c).length := by
      unfold escapeChar unicodeEscape unitEscape
      simp only
      repeat' split
      all_goals simp
    rw [List.flatMap_cons, List.length_append, List.length_cons]
    omega

/-- A string between quotes is read as it was written. -/
theorem stringRest?_text (asciiOnly : Bool) (s : String) (more : List Char) :
    ∃ body, (stringText asciiOnly s).toList = '"' :: body ∧
      stringRest? ((body ++ more).length + 1) [] (body ++ more) = some (s, more) := by
  refine ⟨s.toList.flatMap (escapeChar asciiOnly) ++ ['"'], by simp [stringText], ?_⟩
  have hlength := length_le_flatMap_escapeChar asciiOnly s.toList
  rw [List.append_assoc, List.singleton_append, stringRest?_flatMap]
  · simp
  · rw [List.length_append, List.length_cons]
    omega

/-! ### Numbers -/

/-- A text that no number goes on with. -/
def Stops (rest : List Char) : Prop :=
  ∀ c ∈ rest.head?, c.isDigit = false ∧ c ∉ ['.', 'e', 'E', '+', '-']

/-- No number goes on with a character that is neither a digit nor one of the marks in numbers. -/
theorem stops_cons {c : Char} (hdigit : c.isDigit = false)
    (hmark : c ∉ ['.', 'e', 'E', '+', '-']) (more : List Char) : Stops (c :: more) := by
  intro d hd
  obtain rfl : c = d := by simpa using hd
  exact ⟨hdigit, hmark⟩

section Numbers

variable {rest : List Char}

/-- Where no number goes on, there are no digits. -/
theorem Stops.spanDigits_eq (h : Stops rest) : spanDigits rest = ([], rest) := by
  cases rest with
  | nil => rfl
  | cons c more =>
    have hc := (h c (by simp)).1
    simp [spanDigits, hc]

/-- Digits end where no number goes on. -/
theorem Stops.spanDigits_append (h : Stops rest) (cs : List Char) :
    spanDigits (cs ++ rest) = ((spanDigits cs).1, (spanDigits cs).2 ++ rest) := by
  induction cs with
  | nil => exact h.spanDigits_eq
  | cons c cs ih =>
    simp only [spanDigits, Prod.mk.injEq] at ih
    by_cases hc : c.isDigit = true
    · simp [spanDigits, hc, ih.1, ih.2]
    · simp [spanDigits, hc]

/-- A minus is read alike with such a text behind. -/
theorem Stops.minus_append (h : Stops rest) (cs : List Char) :
    minus (cs ++ rest) = ((minus cs).1, (minus cs).2 ++ rest) := by
  unfold minus
  cases cs with
  | nil => split <;> simp_all [Stops]
  | cons c cs => rw [List.cons_append]; split <;> simp_all

/-- A sign is read alike with such a text behind. -/
theorem Stops.sign_append (h : Stops rest) (cs : List Char) :
    sign (cs ++ rest) = ((sign cs).1, (sign cs).2 ++ rest) := by
  unfold sign
  cases cs with
  | nil => split <;> simp_all [Stops]
  | cons c cs => rw [List.cons_append]; split <;> simp_all

/-- A fraction is read alike with such a text behind. -/
theorem Stops.fraction?_append (h : Stops rest) (cs : List Char) :
    fraction? (cs ++ rest) = (fraction? cs).map fun r => (r.1, r.2 ++ rest) := by
  unfold fraction?
  cases cs with
  | nil => split <;> simp_all [Stops]
  | cons c cs =>
    rw [List.cons_append]
    split
    · rename_i heq
      cases heq
      simp only [h.spanDigits_append]
      split <;> rfl
    · simp_all

/-- An exponent is read alike with such a text behind. -/
theorem Stops.exponent?_append (h : Stops rest) (cs : List Char) :
    exponent? (cs ++ rest) = (exponent? cs).map fun r => (r.1, r.2 ++ rest) := by
  cases cs with
  | nil =>
    cases rest with
    | nil => rfl
    | cons c more =>
      have hc := (h c (by simp)).2
      simp only [List.mem_cons, List.not_mem_nil, or_false, not_or] at hc
      simp [exponent?, hc.2.1, hc.2.2.1]
  | cons e cs =>
    simp only [List.cons_append, exponent?, h.sign_append, h.spanDigits_append]
    split
    · split <;> rfl
    · rfl

/-- A number ends where none goes on. -/
theorem Stops.number?_append (h : Stops rest) (cs : List Char) :
    number? (cs ++ rest) = (number? cs).map fun r => (r.1, r.2 ++ rest) := by
  unfold number?
  simp only [h.minus_append, h.spanDigits_append, h.fraction?_append]
  -- what follows the digits of the whole part decides whether there is a fraction
  generalize spanDigits (minus cs).2 = whole
  obtain ⟨whole, behind⟩ := whole
  cases hfraction : fraction? behind with
  | none =>
    simp only [Option.map_none, Option.getD_none, h.exponent?_append]
    cases exponent? behind with
    | none => split <;> rfl
    | some e => split <;> rfl
  | some f =>
    simp only [Option.map_some, Option.getD_some, h.exponent?_append]
    cases exponent? f.2 with
    | none => split <;> rfl
    | some e => split <;> rfl

/-- What is read as a number begins with a digit or a minus. -/
theorem begins_number? {cs : List Char} (h : (number? cs).isSome = true) :
    ∃ c more, cs = c :: more ∧ (c.isDigit = true ∨ c = '-') := by
  cases cs with
  | nil => cases h
  | cons c more =>
    refine ⟨c, more, rfl, ?_⟩
    by_cases hdigit : c.isDigit = true
    · exact .inl hdigit
    by_cases hsign : c = '-'
    · exact .inr hsign
    have hminus : minus (c :: more) = (false, c :: more) := by
      unfold minus
      split <;> simp_all
    simp [number?, hminus, spanDigits, hdigit] at h

/-- Decimal digits are read as the number that they were written for. -/
theorem digitsValue_toDigits (n : Nat) : digitsValue (Nat.toDigits 10 n) = n := by
  have h := Nat.ofDigitChars_ten_toDigits (n := n)
  simp only [Nat.ofDigitChars, Nat.mul_comm 10] at h
  exact h

/-- Digits alone are read to the end. -/
theorem spanDigits_of_isDigit {cs : List Char} (h : ∀ c ∈ cs, c.isDigit = true) :
    spanDigits cs = (cs, []) := by
  induction cs with
  | nil => rfl
  | cons c cs ih =>
    have hrest := ih fun d hd => h d (.tail c hd)
    simp only [spanDigits, Prod.mk.injEq] at hrest
    simp [spanDigits, h c (.head cs), hrest.1, hrest.2]

/-- A sign and digits are read as the integer that they spell. -/
theorem number?_digits (negative : Bool) (n : Nat) :
    number? ((if negative then ['-'] else []) ++ Nat.toDigits 10 n)
      = some (.int (if negative then -(n : Int) else n), []) := by
  have hall : ∀ c ∈ Nat.toDigits 10 n, c.isDigit = true := fun c hc =>
    Nat.isDigit_of_mem_toDigits (by decide) (by decide) hc
  have hminus : minus ((if negative then ['-'] else []) ++ Nat.toDigits 10 n)
      = (negative, Nat.toDigits 10 n) := by
    cases negative with
    | true => rfl
    | false =>
      unfold minus
      split
      · rename_i heq
        have hmem : '-' ∈ Nat.toDigits 10 n := by
          rw [if_neg nofun, List.nil_append] at heq
          rw [heq]
          exact List.mem_cons_self
        exact absurd (hall '-' hmem) (by decide)
      · rfl
  simp [number?, hminus, spanDigits_of_isDigit hall, fraction?, exponent?, digitsValue_toDigits]

/-- An integer is read as it was written. -/
theorem number?_int (i : Int) : number? (toString i).toList = some (.int i, []) := by
  rw [Int.toString_eq_repr]
  cases i with
  | ofNat n => simpa [Int.repr, Nat.toList_repr] using number?_digits false n
  | negSucc n =>
    have htext : (Int.negSucc n).repr.toList = ['-'] ++ Nat.toDigits 10 (n + 1) := by
      show ("-" ++ (n + 1).repr).toList = _
      rw [String.toList_append, Nat.toList_repr]
      rfl
    rw [htext]
    exact number?_digits true (n + 1)

end Numbers

/-! ### Blanks -/

/-- Blanks in front of a token are passed over. -/
theorem skipBlanks_append {pad : List Char} (hpad : pad.all isBlank = true) {c : Char}
    (hc : isBlank c = false) (cs : List Char) : skipBlanks (pad ++ c :: cs) = c :: cs := by
  induction pad with
  | nil => simp [skipBlanks, hc]
  | cons b pad ih =>
    rw [List.all_cons, Bool.and_eq_true] at hpad
    rw [skipBlanks, List.cons_append, List.dropWhile_cons_of_pos hpad.1]
    exact ih hpad.2

/-- Blanks before a text with which no number goes on are such a text. -/
theorem stops_blanks {pad : List Char} (hpad : pad.all isBlank = true) {rest : List Char}
    (h : Stops rest) : Stops (pad ++ rest) := by
  cases pad with
  | nil => exact h
  | cons b pad =>
    rw [List.all_cons, Bool.and_eq_true] at hpad
    have hb := hpad.1
    simp only [isBlank, Bool.or_eq_true, decide_eq_true_eq] at hb
    rcases hb with ((rfl | rfl) | rfl) | rfl <;> exact stops_cons (by decide) (by decide) _

end SchemaGraph.Json
