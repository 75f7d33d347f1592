import SchemaGraph.Json

namespace SchemaGraph

/-!
# Reading JSON

`Json.parse?` reads one value with blanks around it.  A number with a point or an
exponent is a floating-point number, any other is an integer of any size.  A string may
hold any character that is escaped or is neither a quote nor a control character; two
escaped units that form a pair stand for one character.  Of repeated members the last
value counts, at the place of the first.
-/

namespace Json

/-- Blanks between tokens. -/
def isBlank (c : Char) : Bool := c = ' ' || c = '\n' || c = '\t' || c = '\r'

/-- The rest of the text behind blanks. -/
def skipBlanks (cs : List Char) : List Char := cs.dropWhile isBlank

/-- The value of a hexadecimal digit. -/
def hexValue? (c : Char) : Option Nat :=
  if '0' ≤ c && c ≤ '9' then some (c.toNat - 48)
  else if 'a' ≤ c && c ≤ 'f' then some (c.toNat - 87)
  else if 'A' ≤ c && c ≤ 'F' then some (c.toNat - 55)
  else none

/-- Four hexadecimal digits. -/
def unit? : List Char → Option (Nat × List Char)
  | a :: b :: c :: d :: rest => do
    let a ← hexValue? a
    let b ← hexValue? b
    let c ← hexValue? c
    let d ← hexValue? d
    some (((a * 16 + b) * 16 + c) * 16 + d, rest)
  | _ => none

/-- The character behind `\u`: a unit, or two units of a pair.  A unit of a pair that
    stands alone is read as the replacement character. -/
def unicodeChar? (cs : List Char) : Option (Char × List Char) := do
  let (high, rest) ← unit? cs
  if 0xd800 ≤ high && high < 0xdc00 then
    match rest with
    | '\\' :: 'u' :: more =>
      match unit? more with
      | some (low, rest') =>
        -- Two halves of a pair make one character; a half alone makes none.
        if 0xdc00 ≤ low && low < 0xe000 then
          some (Char.ofNat (0x10000 + (high - 0xd800) * 0x400 + (low - 0xdc00)), rest')
        else some ('\ufffd', rest)
      | none => some ('\ufffd', rest)
    | _ => some ('\ufffd', rest)
  else if 0xdc00 ≤ high && high < 0xe000 then some ('\ufffd', rest)
  else some (Char.ofNat high, rest)

/-- The character that a letter behind a backslash stands for. -/
def shortEscape? : Char → Option Char
  | '"' => some '"'
  | '\\' => some '\\'
  | '/' => some '/'
  | 'b' => some (Char.ofNat 8)
  | 'f' => some (Char.ofNat 12)
  | 'n' => some '\n'
  | 'r' => some '\r'
  | 't' => some '\t'
  | _ => none

/-- The characters of a string behind its opening quote, and what follows the closing
    one. -/
def stringRest? : Nat → List Char → List Char → Option (String × List Char)
  | 0, _, _ => none
  | fuel + 1, acc, cs =>
    match cs with
    | [] => none
    | '"' :: rest => some (String.ofList acc.reverse, rest)
    | '\\' :: 'u' :: rest => do
      let (c, rest) ← unicodeChar? rest
      stringRest? fuel (c :: acc) rest
    | '\\' :: e :: rest => do
      let c ← shortEscape? e
      stringRest? fuel (c :: acc) rest
    -- Control characters have to be escaped.
    | c :: rest => if c.toNat < 0x20 then none else stringRest? fuel (c :: acc) rest

/-- The value of decimal digits. -/
def digitsValue (ds : List Char) : Nat := ds.foldl (fun n c => n * 10 + (c.toNat - 48)) 0

/-- Leading decimal digits and the rest. -/
def spanDigits (cs : List Char) : List Char × List Char :=
  (cs.takeWhile Char.isDigit, cs.dropWhile Char.isDigit)

/-- A minus in front of a number, and what follows. -/
def minus (cs : List Char) : Bool × List Char :=
  match cs with
  | '-' :: rest => (true, rest)
  | rest => (false, rest)

/-- A sign in front of an exponent, and what follows. -/
def sign (cs : List Char) : Bool × List Char :=
  match cs with
  | '-' :: rest => (true, rest)
  | '+' :: rest => (false, rest)
  | rest => (false, rest)

/-- The decimal places behind a point, if there are some. -/
def fraction? (cs : List Char) : Option (List Char × List Char) :=
  match cs with
  | '.' :: more =>
    let (ds, rest) := spanDigits more
    if ds.isEmpty then none else some (ds, rest)
  | _ => none

/-- The exponent behind `e`, if there is one. -/
def exponent? (cs : List Char) : Option (Int × List Char) :=
  match cs with
  | e :: rest =>
    if e = 'e' || e = 'E' then
      let (negative, rest) := sign rest
      let (ds, rest) := spanDigits rest
      if ds.isEmpty then none
      else
        let n : Int := digitsValue ds
        some (if negative then -n else n, rest)
    else none
  | [] => none

/-- A number. -/
def number? (cs : List Char) : Option (Json × List Char) :=
  let (negative, body) := minus cs
  let (whole, rest) := spanDigits body
  if whole.isEmpty then none
  else
    let fraction := fraction? rest
    let (places, rest) := fraction.getD ([], rest)
    match exponent? rest with
    | some (e, rest) =>
      -- The digits are read as one number, with the places taken off the exponent.
      some (.float (.ofDecimal negative (digitsValue (whole ++ places))
        (e - (places.length : Int))), rest)
    | none =>
      if fraction.isSome then
        some (.float (.ofDecimal negative (digitsValue (whole ++ places))
          (-(places.length : Int))), rest)
      else
        let n : Int := digitsValue whole
        some (.int (if negative then -n else n), rest)

mutual

/-- A value in front of the text. -/
def value? : Nat → List Char → Option (Json × List Char)
  | 0, _ => none
  | fuel + 1, cs =>
    match skipBlanks cs with
    | 'n' :: 'u' :: 'l' :: 'l' :: rest => some (.null, rest)
    | 't' :: 'r' :: 'u' :: 'e' :: rest => some (.bool true, rest)
    | 'f' :: 'a' :: 'l' :: 's' :: 'e' :: rest => some (.bool false, rest)
    | '"' :: rest => (stringRest? (rest.length + 1) [] rest).map fun (s, r) => (.str s, r)
    | '[' :: rest =>
      match skipBlanks rest with
      | ']' :: rest => some (.arr [], rest)
      -- Only an array with nothing in it may close at once.
      | _ => (items? fuel [] rest).map fun (vs, r) => (.arr vs, r)
    | '\x7b' :: rest =>
      match skipBlanks rest with
      | '\x7d' :: rest => some (.obj [], rest)
      | _ => (members? fuel [] rest).map fun (ms, r) => (.obj (ofMembers ms), r)
    | rest => number? rest

/-- The elements of an array up to its closing bracket. -/
def items? : Nat → List Json → List Char → Option (List Json × List Char)
  | 0, _, _ => none
  | fuel + 1, acc, cs => do
    let (v, rest) ← value? fuel cs
    match skipBlanks rest with
    | ',' :: rest => items? fuel (v :: acc) rest
    | ']' :: rest => some ((v :: acc).reverse, rest)
    | _ => none

/-- The members of an object up to its closing bracket. -/
def members? : Nat → List (String × Json) → List Char →
    Option (List (String × Json) × List Char)
  | 0, _, _ => none
  | fuel + 1, acc, cs =>
    -- A comma asks for one more name.
    match skipBlanks cs with
    | '"' :: rest => do
      let (k, rest) ← stringRest? (rest.length + 1) [] rest
      match skipBlanks rest with
      | ':' :: rest =>
        let (v, rest) ← value? fuel rest
        match skipBlanks rest with
        | ',' :: rest => members? fuel ((k, v) :: acc) rest
        | '\x7d' :: rest => some (((k, v) :: acc).reverse, rest)
        | _ => none
      | _ => none
    | _ => none

end

/-- The value that a text holds, with nothing but blanks around it. -/
def parse? (s : String) : Option Json :=
  let cs := s.toList
  -- Every character is looked at twice at most: as a value, and as an element.
  match value? (2 * cs.length + 2) cs with
  | some (v, rest) => if (skipBlanks rest).isEmpty then some v else none
  | none => none

end Json

end SchemaGraph
