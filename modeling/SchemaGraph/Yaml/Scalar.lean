import SchemaGraph.Json.Reader
import SchemaGraph.Value
import SchemaGraph.Yaml.Moment

namespace SchemaGraph.Yaml

/-!
# Scalars of YAML

A text without quotes may stand for `null`, a truth value, a number or a date; by its form
alone is decided which.  Any other text stands for itself.

* `Cursor.plain`     — a text without quotes
* `Cursor.quoted`    — a text between quotes
* `resolve`          — the value that a text without quotes stands for
-/

/-! ### Texts without quotes -/

/-- The characters up to a blank, a line end or a symbol. -/
def plainRun (inFlow : Bool) : List Char → List Char
  | [] => []
  | c :: rest =>
    if isBlank c || isBreak c then []
    else if c = ':' && (endsWord rest ||
        (inFlow && rest.head?.any fun d => [',', '[', ']', '\x7b', '\x7d'].contains d)) then []
    else if inFlow && [',', '?', '[', ']', '\x7b', '\x7d'].contains c then []
    else c :: plainRun inFlow rest

/-- Skips blanks and line ends up to a word or the mark of a document.  Returns the line
    ends, and whether there is a mark. -/
def Cursor.skipLines : Nat → Cursor → List Char → Cursor × List Char × Bool
  | 0, c, breaks => (c, breaks, false)
  | fuel + 1, c, breaks =>
    match c.peek? with
    | some ' ' => skipLines fuel c.next breaks
    | some x =>
      if isBreak x then
        let breaks := breaks ++ [breakChar x]
        if c.next.atMarker then (c.next, breaks, true) else skipLines fuel c.next breaks
      else (c, breaks, false)
    | none => (c, breaks, false)

/-- What stands between two words of a text without quotes: blanks, or line ends.  Returns
    the place behind it, what counts of it, and whether a line has ended. -/
def Cursor.gap (c : Cursor) : Cursor × List Char × Bool :=
  let behind := c.skipWhile (· = ' ')
  match behind.peek? with
  | some x =>
    if isBreak x then
      if behind.next.atMarker then (behind.next, [], true)
      else
        let (place, breaks, marked) := skipLines behind.rest.length behind.next []
        (place, if marked then [] else foldedBreaks x breaks, true)
    else (behind, c.rest.takeWhile (· = ' '), false)
  | none => (behind, c.rest.takeWhile (· = ' '), false)

/-- A text without quotes, with what has been read of it.  Outside brackets it goes on only
    on lines that are indented enough.  Returns whether a line has ended behind it. -/
def Cursor.plainFrom (inFlow : Bool) (indent : Int) :
    Nat → Cursor → List Char → List Char → Bool → List Char × Cursor × Bool
  | 0, c, text, _, ended => (text, c, ended)
  | fuel + 1, c, text, between, ended =>
    let run := if c.peek? = some '#' then [] else plainRun inFlow c.rest
    if run.isEmpty then (text, c, ended)
    else
      let text := text ++ between ++ run
      let (place, between, ended) := (c.skip run.length).gap
      if between.isEmpty || place.peek? = some '#' || (!inFlow && (place.column : Int) < indent)
      then (text, place, ended)
      else plainFrom inFlow indent fuel place text between ended

/-- A text without quotes. -/
def Cursor.plain (c : Cursor) (inFlow : Bool) (indent : Int) : List Char × Cursor × Bool :=
  c.plainFrom inFlow indent (c.rest.length + 1) [] [] false

/-! ### Texts between quotes -/

/-- The character that a letter behind a backslash stands for. -/
def shortEscape? : Char → Option Char
  | '0' => some (Char.ofNat 0)
  | 'a' => some (Char.ofNat 7)
  | 'b' => some (Char.ofNat 8)
  | 't' => some '\t'
  | '\t' => some '\t'
  | 'n' => some '\n'
  | 'v' => some (Char.ofNat 11)
  | 'f' => some (Char.ofNat 12)
  | 'r' => some '\r'
  | 'e' => some (Char.ofNat 27)
  | ' ' => some ' '
  | '"' => some '"'
  | '\\' => some '\\'
  | '/' => some '/'
  | 'N' => some (Char.ofNat 0x85)
  | '_' => some (Char.ofNat 0xa0)
  | 'L' => some (Char.ofNat 0x2028)
  | 'P' => some (Char.ofNat 0x2029)
  | _ => none

/-- The number of hexadecimal digits behind a letter. -/
def codeLength? : Char → Option Nat
  | 'x' => some 2
  | 'u' => some 4
  | 'U' => some 8
  | _ => none

/-- The value of hexadecimal digits. -/
def hexDigits? (cs : List Char) : Option Nat :=
  cs.foldl (fun acc c => do
    let n ← acc
    let d ← Json.hexValue? c
    some (n * 16 + d)) (some 0)

/-- Skips line ends and the blanks around them; the mark of a document must not stand
    here. -/
def Cursor.quotedLines : Nat → Cursor → List Char → Except Break (Cursor × List Char)
  | 0, c, breaks => .ok (c, breaks)
  | fuel + 1, c, breaks =>
    if c.atMarker then c.breaks
    else
      let c := c.skipWhile isBlank
      match c.peek? with
      | some x =>
        if isBreak x then quotedLines fuel c.next (breaks ++ [breakChar x])
        else .ok (c, breaks)
      | none => .ok (c, breaks)

/-- The codes of characters. -/
def codesOf (cs : List Char) : List Nat := cs.map Char.toNat

/-- A code that is spelled out; it must not lie beyond the last character. -/
def Cursor.spelled (c : Cursor) (code : Nat) : Except Break (List Nat) :=
  if code < 0x110000 then .ok [code]
  else .error ⟨c, some (if code < 0x80000000 then .character else .code)⟩

/-- What a backslash stands for. -/
def Cursor.escape (c : Cursor) : Except Break (Cursor × List Nat) :=
  let c := c.next
  match c.peek? with
  | none => c.breaks
  | some x =>
    match shortEscape? x, codeLength? x with
    | some y, _ => .ok (c.next, [y.toNat])
    | none, some n =>
      let digits := c.next.rest.take n
      match hexDigits? digits with
      | some code =>
        if digits.length = n then do
          let codes ← c.next.spelled code
          .ok (c.next.skip n, codes)
        else c.next.breaks
      | none => c.next.breaks
    | none, none =>
      if isBreak x then do
        let (place, breaks) ← Cursor.quotedLines c.rest.length c.next []
        .ok (place, codesOf breaks)
      else c.breaks

/-- A text behind its opening quote, with what has been read of it. -/
def Cursor.quotedFrom (double : Bool) :
    Nat → Cursor → List Nat → Except Break (List Nat × Cursor)
  | 0, c, _ => c.breaks
  | fuel + 1, c, text =>
    match c.rest with
    | [] => c.breaks
    | x :: rest =>
      if x = '\'' && !double then
        if rest.head? = some '\'' then quotedFrom double fuel (c.skip 2) (text ++ codesOf ['\''])
        else .ok (text, c.next)
      else if x = '"' && double then .ok (text, c.next)
      else if x = '\\' && double then do
        let (place, more) ← c.escape
        quotedFrom double fuel place (text ++ more)
      else if isBlank x || isBreak x then
        let behind := c.skipWhile isBlank
        match behind.peek? with
        | none => behind.breaks
        | some y =>
          if isBreak y then do
            let (place, breaks) ← Cursor.quotedLines behind.rest.length behind.next []
            quotedFrom double fuel place (text ++ codesOf (foldedBreaks y breaks))
          else quotedFrom double fuel behind (text ++ codesOf (c.rest.takeWhile isBlank))
      else quotedFrom double fuel c.next (text ++ [x.toNat])

/-- A text between quotes. -/
def Cursor.quoted (c : Cursor) (double : Bool) : Except Break (List Nat × Cursor) :=
  c.next.quotedFrom double (c.rest.length + 1) []

/-! ### Numbers -/

/-- The value of digits in a base; other characters do not count. -/
def digitsValue (base : Nat) (cs : List Char) : Nat :=
  cs.foldl (fun n c => n * base + (Json.hexValue? c).getD 0) 0

/-- A sign, and the rest. -/
def splitSign : List Char → Bool × List Char
  | '-' :: rest => (true, rest)
  | '+' :: rest => (false, rest)
  | cs => (false, cs)

/-- Whether all characters are decimal digits or low lines, and the first is a digit. -/
def isDigits (cs : List Char) : Bool :=
  cs.head?.any Char.isDigit && cs.all fun c => c.isDigit || c = '_'

/-- Parts of a text between colons. -/
def splitColons : List Char → List (List Char)
  | [] => [[]]
  | c :: rest =>
    match splitColons rest with
    | [] => [[c]]
    | part :: parts => if c = ':' then [] :: part :: parts else (c :: part) :: parts

/-- One or two digits that count less than sixty. -/
def isSixtieth (cs : List Char) : Bool :=
  match cs with
  | [a] => a.isDigit
  | [a, b] => '0' ≤ a && a ≤ '5' && b.isDigit
  | _ => false

/-- Digits without low lines. -/
def dropLowLines (cs : List Char) : List Char := cs.filter (· ≠ '_')

/-- A number in digits and low lines; there must be a digit, and not too many decimal ones. -/
def spelledNumber (base : Nat) (cs : List Char) : Except OutOfRange Nat :=
  let digits := dropLowLines cs
  if digits.isEmpty then .error (.noDigits base)
  else if base = 10 && digitLimit < digits.length then .error (.tooManyDigits digits.length)
  else .ok (digitsValue base digits)

/-- Parts of a number to the base of sixty. -/
def sixtyfold (n : Nat) : List (List Char) → Except OutOfRange Nat
  | [] => .ok n
  | part :: rest => do sixtyfold (n * 60 + (← spelledNumber 10 part)) rest

/-- A number without its sign: binary, octal, decimal, hexadecimal or to the base of
    sixty. -/
def magnitude? (cs : List Char) : Option (Except OutOfRange Nat) :=
  match cs with
  | ['0'] => some (.ok 0)
  | '0' :: 'b' :: d :: ds =>
    let bits := d :: ds
    if bits.all (fun c => c = '0' || c = '1' || c = '_') then some (spelledNumber 2 bits)
    else none
  | '0' :: 'x' :: d :: ds =>
    let digits := d :: ds
    if digits.all (fun c => (Json.hexValue? c).isSome || c = '_') then
      some (spelledNumber 16 digits)
    else none
  | '0' :: ds =>
    if ds.all (fun c => ('0' ≤ c && c ≤ '7') || c = '_') then some (spelledNumber 8 ('0' :: ds))
    else none
  | _ =>
    match splitColons cs with
    | first :: parts =>
      if isDigits first && parts.all isSixtieth then some (sixtyfold 0 (first :: parts))
      else none
    | [] => none

/-- An integer. -/
def integer? (cs : List Char) : Option (Except OutOfRange Int) :=
  let (negative, cs) := splitSign cs
  (magnitude? cs).map fun n => n.map fun n => if negative then -(n : Int) else n

/-- The exponent of a number; it always has a sign. -/
def exponent? : List Char → Option Int
  | [] => some 0
  | e :: sign :: d :: ds =>
    if (e = 'e' || e = 'E') && (sign = '+' || sign = '-') && (d :: ds).all Char.isDigit then
      let n : Int := digitsValue 10 (d :: ds)
      some (if sign = '-' then -n else n)
    else none
  | _ => none

/-- Digits with a point and an exponent. -/
def fraction? (negative : Bool) (cs : List Char) : Option Binary64 :=
  let whole := cs.takeWhile fun c => c.isDigit || c = '_'
  match cs.drop whole.length with
  | '.' :: rest =>
    let part := rest.takeWhile fun c => c.isDigit || c = '_'
    let startsWell := if whole.isEmpty then isDigits part else isDigits whole
    if startsWell then do
      let e ← exponent? (rest.drop part.length)
      let digits := dropLowLines (whole ++ part)
      some (.ofDecimal negative (digitsValue 10 digits) (e - (dropLowLines part).length))
    else none
  | _ => none

/-- A number to the base of sixty with a point in its last part. -/
def sixtieths? (negative : Bool) (cs : List Char) : Option Binary64 :=
  match (splitColons cs).reverse with
  | last :: middle :: before =>
    let whole := last.takeWhile Char.isDigit
    match last.drop whole.length with
    | '.' :: part =>
      let parts := (middle :: before).reverse
      let fits := isSixtieth whole && part.all (fun c => c.isDigit || c = '_')
        && parts.head?.any isDigits && parts.tail.all isSixtieth
      if fits then
        let part := dropLowLines part
        let n := (parts.map dropLowLines ++ [whole]).foldl
          (fun n p => n * 60 + digitsValue 10 p) 0
        let shifted := n * Nat.pow 10 part.length
        some (.ofDecimal negative (shifted + digitsValue 10 part) (-part.length))
      else none
    | _ => none
  | _ => none

/-- A number with a point, infinity, or the undefined number. -/
def float? (cs : List Char) : Option Binary64 :=
  let (negative, body) := splitSign cs
  let word := String.ofList body
  if [".inf", ".Inf", ".INF"].contains word then some (.infinite negative)
  else if [".nan", ".NaN", ".NAN"].contains (String.ofList cs) then some (.nan 0)
  else if body.head? = some '.' && body.length < cs.length then none
  else (fraction? negative body).orElse fun _ => sixtieths? negative body

/-! ### Values -/

/-- Words for the truth values. -/
def truthWords : List (String × Bool) :=
  [("yes", true), ("Yes", true), ("YES", true), ("true", true), ("True", true), ("TRUE", true),
    ("on", true), ("On", true), ("ON", true), ("no", false), ("No", false), ("NO", false),
    ("false", false), ("False", false), ("FALSE", false), ("off", false), ("Off", false),
    ("OFF", false)]

/-- Words for the absence of a value. -/
def nullWords : List String := ["", "~", "null", "Null", "NULL"]

/-- The sign for the default value. -/
def defaultSign : String := "="

/-- The sign for merging. -/
def mergeSign : String := "<<"

/-- The value that a text without quotes stands for on a line.  The signs for the default
    value and for merging stand for none. -/
def resolve (s : String) (line : Nat) : Except Fault Value :=
  let cs := s.toList
  match truthWords.find? fun e => e.1 = s with
  | some (_, b) => .ok (.bool b)
  | none =>
    match float? cs, integer? cs, Moment.ofText? cs with
    | some x, _, _ => .ok (.float x)
    | none, some i, _ => (i.map .int).mapError .outOfRange
    | none, none, some m => (m.check.map fun m => .foreign (.moment m.text)).mapError .outOfRange
    | none, none, none =>
      if s = defaultSign || s = mergeSign then .error (.broken line)
      else .ok (if nullWords.contains s then .null else .str s)

end SchemaGraph.Yaml
