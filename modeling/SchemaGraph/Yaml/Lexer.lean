import SchemaGraph.Yaml.Scalar

namespace SchemaGraph.Yaml

/-!
# From characters to tokens

A text or bracket may turn out to be a key when a colon follows it on its line; until then
it is a candidate.  A candidate at the indentation of a mapping must be a key.

* `Lexer.step`     — reads one symbol
* `Token.ofText`   — the tokens of a text, up to the place where reading it fails
-/

/-- What may turn out to be a key. -/
structure Candidate where
  /-- The number of tokens before it. -/
  place : Nat
  /-- Whether it must be a key. -/
  required : Bool
  index : Nat
  line : Nat
  column : Nat
deriving DecidableEq, Repr

/-- A reading of a text that has come to some place. -/
structure Lexer where
  cursor : Cursor
  tokens : List Token := []
  /-- The number of open brackets. -/
  depth : Nat := 0
  /-- The column of the innermost collection without brackets, `-1` outside of any. -/
  indent : Int := -1
  /-- The columns of the collections around it. -/
  outer : List Int := []
  /-- Whether a key may begin here. -/
  mayBegin : Bool := true
  /-- The candidates by the number of open brackets. -/
  candidates : List (Nat × Candidate) := []
  finished : Bool := false

namespace Lexer

/-- Whether the place is inside brackets. -/
def inFlow (l : Lexer) : Bool := 0 < l.depth

/-- One more token at this line. -/
def push (l : Lexer) (symbol : Symbol) : Lexer :=
  { l with tokens := l.tokens ++ [⟨symbol, l.cursor.line⟩] }

/-- Goes on behind a number of characters. -/
def advance (l : Lexer) (n : Nat) : Lexer := { l with cursor := l.cursor.skip n }

/-- Tokens put between others. -/
def insertAt (l : Lexer) (place : Nat) (tokens : List Token) : Lexer :=
  { l with tokens := l.tokens.take place ++ tokens ++ l.tokens.drop place }

/-! ### Blanks and comments -/

/-- Skips blanks, comments and line ends. -/
def skipBlanks : Nat → Lexer → Lexer
  | 0, l => l
  | fuel + 1, l =>
    let c := l.cursor.skipWhile (· = ' ')
    let c := if c.peek? = some '#' then c.skipWhile fun x => !isBreak x else c
    if c.peek?.any isBreak then
      -- On a new line a key may begin, outside of brackets.
      skipBlanks fuel { l with cursor := c.next, mayBegin := l.mayBegin || !l.inFlow }
    else { l with cursor := c }

/-! ### Indentation -/

/-- Ends the collections that are indented further than a column. -/
def unwind (l : Lexer) (column : Int) : Lexer :=
  -- Indentation means nothing in brackets.
  if l.inFlow then l
  else
    let columns := l.indent :: l.outer
    let ended := columns.takeWhile fun i => decide (column < i)
    match columns.drop ended.length with
    | indent :: outer =>
      { ended.foldl (fun l _ => l.push .blockEnd) l with indent, outer }
    | [] => l

/-- Begins a collection at a column, if it is indented further than those around it. -/
def indentTo (l : Lexer) (column : Nat) : Option Lexer :=
  if l.indent < column then
    some { l with indent := column, outer := l.indent :: l.outer }
  else none

/-! ### Candidates -/

/-- The candidate of this depth. -/
def candidate? (l : Lexer) : Option Candidate :=
  (l.candidates.find? fun e => e.1 = l.depth).map (·.2)

/-- Gives up the candidates that pass a test; one that must be a key cannot be given up. -/
def giveUp (l : Lexer) (p : Nat → Candidate → Bool) : Except Break Lexer :=
  -- What stands at the indentation of a mapping has to be a key.
  if l.candidates.any fun e => p e.1 e.2 && e.2.required then l.cursor.breaks
  else .ok { l with candidates := l.candidates.filter fun e => !p e.1 e.2 }

/-- Gives up the candidate of this depth. -/
def giveUpHere (l : Lexer) : Except Break Lexer := l.giveUp fun depth _ => depth = l.depth

/-- Whether a candidate is too far away: on another line, or more than 1024 characters
    ago. -/
def isStale (l : Lexer) (c : Candidate) : Bool :=
  c.line ≠ l.cursor.line || 1024 < l.cursor.index - c.index

/-- Gives up the candidates that are too far away. -/
def giveUpStale (l : Lexer) : Except Break Lexer := l.giveUp fun _ c => l.isStale c

/-- What follows is a candidate, if a key may begin here. -/
def propose (l : Lexer) : Except Break Lexer :=
  if l.mayBegin then do
    let l ← l.giveUpHere
    let c : Candidate :=
      { place := l.tokens.length
        required := !l.inFlow && l.indent = l.cursor.column
        index := l.cursor.index
        line := l.cursor.line
        column := l.cursor.column }
    .ok { l with candidates := (l.depth, c) :: l.candidates }
  else .ok l

/-! ### Symbols -/

/-- The end of the text. -/
def finish (l : Lexer) : Except Break Lexer := do
  let l ← (l.unwind (-1)).giveUpHere
  .ok { l.push .streamEnd with finished := true }

/-- The mark of a document. -/
def marker (l : Lexer) (symbol : Symbol) : Except Break Lexer := do
  let l ← (l.unwind (-1)).giveUpHere
  .ok { (l.push symbol).advance 3 with mayBegin := false }

/-- An opening bracket. -/
def openBracket (l : Lexer) (symbol : Symbol) : Except Break Lexer := do
  let l ← l.propose
  .ok { (l.push symbol).advance 1 with depth := l.depth + 1, mayBegin := true }

/-- A closing bracket. -/
def closeBracket (l : Lexer) (symbol : Symbol) : Except Break Lexer := do
  let l ← l.giveUpHere
  .ok { (l.push symbol).advance 1 with depth := l.depth - 1, mayBegin := false }

/-- The comma between elements in brackets. -/
def comma (l : Lexer) : Except Break Lexer := do
  let l ← l.giveUpHere
  .ok { (l.push .comma).advance 1 with mayBegin := true }

/-- The start of a collection at this column, if it is a new one. -/
def beginHere (l : Lexer) (symbol : Symbol) : Lexer :=
  match l.indentTo l.cursor.column with
  | some l => l.push symbol
  | none => l

/-- The hyphen in front of an element. -/
def entry (l : Lexer) : Except Break Lexer :=
  if !l.inFlow && !l.mayBegin then l.cursor.breaks
  else do
    let l ← (if l.inFlow then l else l.beginHere .blockSequence).giveUpHere
    .ok { (l.push .entry).advance 1 with mayBegin := true }

/-- The mark in front of a key. -/
def keyMark (l : Lexer) : Except Break Lexer :=
  if !l.inFlow && !l.mayBegin then l.cursor.breaks
  else do
    let l ← (if l.inFlow then l else l.beginHere .blockMapping).giveUpHere
    .ok { (l.push .key).advance 1 with mayBegin := !l.inFlow }

/-- The colon behind a candidate, which is a key now. -/
def valueOf (l : Lexer) (c : Candidate) : Lexer :=
  let rest := { l with candidates := l.candidates.filter fun e => e.1 ≠ l.depth }
  -- The mark of the key goes where the candidate began.
  let marked := rest.insertAt c.place [⟨.key, c.line⟩]
  let begun :=
    if l.inFlow then marked
    else
      match marked.indentTo c.column with
      | some l => l.insertAt c.place [⟨.blockMapping, c.line⟩]
      | none => marked
  { (begun.push .value).advance 1 with mayBegin := false }

/-- The colon in front of a value. -/
def value (l : Lexer) : Except Break Lexer :=
  match l.candidate? with
  | some c => .ok (l.valueOf c)
  | none =>
    if !l.inFlow && !l.mayBegin then l.cursor.breaks
    else do
      let l ← (if l.inFlow then l else l.beginHere .blockMapping).giveUpHere
      .ok { (l.push .value).advance 1 with mayBegin := !l.inFlow }

/-- A text between quotes. -/
def quoted (l : Lexer) (double : Bool) : Except Break Lexer := do
  let l ← l.propose
  let (text, cursor) ← l.cursor.quoted double
  .ok { l.push (.scalar (.quoted text)) with cursor, mayBegin := false }

/-- A text without quotes. -/
def plain (l : Lexer) : Except Break Lexer := do
  let l ← l.propose
  let (text, cursor, mayBegin) := l.cursor.plain l.inFlow (l.indent + 1)
  .ok { l.push (.scalar (.plain (String.ofList text))) with cursor, mayBegin }

/-- Characters with which no text without quotes begins. -/
def indicators : List Char :=
  ['-', '?', ':', ',', '[', ']', '\x7b', '\x7d', '#', '&', '*', '!', '|', '>', '\'', '"', '%',
    '@', Char.ofNat 0x60]

/-- Whether a text without quotes begins here. -/
def beginsPlain (l : Lexer) (c : Char) (rest : List Char) : Bool :=
  (!isBlank c && !isBreak c && !indicators.contains c)
    || (!endsWord rest && (c = '-' || (!l.inFlow && (c = '?' || c = ':'))))

/-- Reads the symbol at this place. -/
def symbol (l : Lexer) : Except Break Lexer :=
  match l.cursor.rest with
  | [] => l.finish
  | c :: rest =>
    let atStart := l.cursor.column = 0
    -- Marks of documents count at the start of a line alone.
    if atStart && l.cursor.atWord ['-', '-', '-'] then l.marker .documentStart
    else if atStart && l.cursor.atWord ['.', '.', '.'] then l.marker .documentEnd
    else if c = '[' then l.openBracket .openSequence
    else if c = '\x7b' then l.openBracket .openMapping
    else if c = ']' then l.closeBracket .closeSequence
    else if c = '\x7d' then l.closeBracket .closeMapping
    else if c = ',' then l.comma
    -- These signs may also begin a text, if something stands behind them.
    else if c = '-' && endsWord rest then l.entry
    else if c = '?' && (l.inFlow || endsWord rest) then l.keyMark
    else if c = ':' && (l.inFlow || endsWord rest) then l.value
    else if c = '\'' then l.quoted false
    else if c = '"' then l.quoted true
    else if l.beginsPlain c rest then l.plain
    else l.cursor.breaks

/-- Goes on to the next symbol and reads it.  Candidates may become too far away on the way
    to the symbol and behind it. -/
def step (l : Lexer) : Except Break Lexer := do
  let l ← (l.skipBlanks (l.cursor.rest.length + 1)).giveUpStale
  let l ← (l.unwind l.cursor.column).symbol
  if l.finished then .ok l else l.giveUpStale

/-- The tokens of which it is known what they are: those in front of all candidates. -/
def settled (l : Lexer) : List Token :=
  match (l.candidates.map fun e => e.2.place).min? with
  | some place => l.tokens.take place
  | none => l.tokens

/-- The fault of a break.  Where the readable part of the text has been left, nothing else
    counts. -/
def faultOf (limit : Option Nat) (b : Break) : Fault :=
  if limit.any fun n => n ≤ b.place.index then .unreadable
  else
    match b.what with
    | some what => .outOfRange what
    | none => .broken b.place.line

/-- Reads all symbols.  Where the reading breaks off, candidates are no tokens yet. -/
def run (limit : Option Nat) : Nat → Lexer → List Token
  | 0, l => l.tokens ++ [⟨.failed .unreadable, l.cursor.line⟩]
  | fuel + 1, l =>
    if l.finished then l.tokens
    else
      match l.step with
      | .ok next =>
        if limit.any fun n => n ≤ next.cursor.index then
          -- Candidates in front of the place are not known to be keys, and are dropped.
          l.settled ++ [⟨.failed .unreadable, next.cursor.line⟩]
        else run limit fuel next
      | .error b => l.settled ++ [⟨.failed (faultOf limit b), b.place.line⟩]

end Lexer

/-! ### Portions -/

/-- How many characters are read at first. -/
def firstPortion : Nat := 8192

/-- How many characters are read each further time. -/
def furtherPortion : Nat := 4096

/-- How much of a text can be read: the portions in front of the one with a character that
    no text may hold. -/
def readable? (cs : List Char) : Option Nat :=
  (cs.findIdx? fun c => !isPrintable c).map fun i =>
    if i < firstPortion then 0
    else firstPortion + (i - firstPortion) / furtherPortion * furtherPortion

/-- The tokens of a text; one that cannot be read to its end has a failure as its last
    token. -/
def Token.ofText (cs : List Char) : List Token :=
  let start : Cursor := { rest := cs }
  -- A mark of byte order in front is skipped.
  let cursor := if cs.head?.any (fun c => c.toNat = 0xfeff) then start.next else start
  let limit := readable? cs
  if limit = some 0 then [⟨.failed .unreadable, 0⟩]
  else Lexer.run limit (cs.length + 2) { cursor }

end SchemaGraph.Yaml
