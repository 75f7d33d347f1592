import SchemaGraph.Yaml.Fault

namespace SchemaGraph.Yaml

/-!
# Tokens of YAML

A YAML text is a sequence of tokens.  Indentation counts: a collection that is spread over
lines has tokens for its start and its end, which stand for no characters.

* `Token`  — a symbol and the line on which it begins
* `Cursor` — a place in a text
-/

/-- The text of a token.  Between quotes codes may be spelled out, also such as are no
    characters. -/
inductive Content where
  | plain (text : String)
  | quoted (codes : List Nat)
deriving DecidableEq, Repr

/-- What a token says. -/
inductive Symbol where
  | documentStart
  | documentEnd
  | streamEnd
  /-- Starts of collections that are laid out by indentation, and their end. -/
  | blockSequence
  | blockMapping
  | blockEnd
  /-- Brackets of collections. -/
  | openSequence
  | closeSequence
  | openMapping
  | closeMapping
  /-- The hyphen in front of an element. -/
  | entry
  | comma
  | key
  | value
  | scalar (content : Content)
  /-- No token: here reading fails. -/
  | failed (fault : Fault)
deriving DecidableEq, Repr

/-- A symbol and its line, counted from zero. -/
structure Token where
  symbol : Symbol
  line : Nat
deriving DecidableEq, Repr

/-! ### Characters -/

/-- Characters that end a line. -/
def isBreak (c : Char) : Bool :=
  c = '\n' || c = '\r' || c.toNat = 0x85 || c.toNat = 0x2028 || c.toNat = 0x2029

/-- Blanks within a line. -/
def isBlank (c : Char) : Bool := c = ' ' || c = '\t'

/-- Whether a word ends in front of the rest. -/
def endsWord (cs : List Char) : Bool := cs.head?.all fun c => isBlank c || isBreak c

/-- Characters that a text may hold. -/
def isPrintable (c : Char) : Bool :=
  let n := c.toNat
  n = 9 || n = 10 || n = 13 || (0x20 ≤ n && n ≤ 0x7e) || n = 0x85 || (0xa0 ≤ n && n ≤ 0xfffd)
    || 0x10000 ≤ n

/-- Line ends of two characters, and lone carriage returns, as line feeds. -/
def unifyBreaks : List Char → List Char
  | '\r' :: '\n' :: rest => '\n' :: unifyBreaks rest
  | '\r' :: rest => '\n' :: unifyBreaks rest
  | c :: rest => c :: unifyBreaks rest
  | [] => []

/-! ### Places -/

/-- A place in a text: what follows it, its line and its column. -/
structure Cursor where
  rest : List Char
  line : Nat := 0
  column : Nat := 0
  index : Nat := 0
deriving DecidableEq, Repr

namespace Cursor

/-- The next character. -/
def peek? (c : Cursor) : Option Char := c.rest.head?

/-- The place behind the next character. -/
def next (c : Cursor) : Cursor :=
  match c.rest with
  | [] => c
  | x :: rest =>
    if isBreak x then { rest, line := c.line + 1, column := 0, index := c.index + 1 }
    else if x.toNat = 0xfeff then { c with rest, index := c.index + 1 }
    else { c with rest, column := c.column + 1, index := c.index + 1 }

/-- The place behind the given number of characters. -/
def skip (c : Cursor) : Nat → Cursor
  | 0 => c
  | n + 1 => c.next.skip n

/-- The place behind all characters that pass a test. -/
def skipWhile (c : Cursor) (p : Char → Bool) : Cursor := c.skip (c.rest.takeWhile p).length

/-- Whether three characters stand here as a word of their own. -/
def atWord (c : Cursor) (word : List Char) : Bool :=
  c.rest.take 3 = word && endsWord (c.rest.drop 3)

/-- Whether a line that marks the start or the end of a document begins here. -/
def atMarker (c : Cursor) : Bool := c.atWord ['-', '-', '-'] || c.atWord ['.', '.', '.']

end Cursor

/-- Where and why the reading of a text breaks off: a rule is broken, unless something
    else is said. -/
structure Break where
  place : Cursor
  what : Option OutOfRange := none

/-- Breaks a rule at a place. -/
def Cursor.breaks {α : Type} (c : Cursor) : Except Break α := .error ⟨c, none⟩

/-- How a line end counts inside a text. -/
def breakChar (c : Char) : Char := if c.toNat = 0x2028 || c.toNat = 0x2029 then c else '\n'

/-- A line end followed by further ones: a single one is a blank. -/
def foldedBreaks (first : Char) (more : List Char) : List Char :=
  if breakChar first ≠ '\n' then breakChar first :: more
  else if more.isEmpty then [' ']
  else more

end SchemaGraph.Yaml
