import SchemaGraph.Terminal.CellWidth
import SchemaGraph.Text.Space

namespace SchemaGraph.Terminal

/-!
# Lines that fit

A line that is wider than the terminal is broken in front of a word.  The white space behind
a word belongs to it, but need not fit.  A word that is wider than the terminal begins on a
new line and is broken where it has to be.

* `expandTabs` — a line with blanks in place of tabs
* `breaks`     — where a line is broken
* `fitting`    — the lines that a line becomes
-/

/-- The cells from one stop of the tabulator to the next. -/
def tabSize : Nat := 8

/-- The characters of a line from the given column on; a tab goes on to the next stop. -/
def expandTabs : Nat → List Char → List Char
  | _, [] => []
  | column, c :: rest =>
    if c = '\t' then
      let blanks := tabSize - column % tabSize
      List.replicate blanks ' ' ++ expandTabs (column + blanks) rest
    else c :: expandTabs (column + cellWidth c) rest

/-! ### Words -/

/-- A word with the white space behind it, and that in front of the first word; the rest of
    the line. -/
def firstWord (cs : List Char) : List Char × List Char :=
  let before := cs.takeWhile Text.isSpace
  let word := (cs.drop before.length).takeWhile fun c => !Text.isSpace c
  let behind := (cs.drop (before.length + word.length)).takeWhile Text.isSpace
  let size := if word.isEmpty then 0 else before.length + word.length + behind.length
  (cs.take size, cs.drop size)

/-- The words of a line; white space without a word is none. -/
def lineWordsWithin : Nat → List Char → List (List Char)
  | 0, _ => []
  | fuel + 1, cs =>
    match firstWord cs with
    | ([], _) => []
    | (word, rest) => word :: lineWordsWithin fuel rest

/-- The words of a line. -/
def lineWords (cs : List Char) : List (List Char) := lineWordsWithin cs.length cs

/-- The lengths and the widths of the parts of a word, each of which fits; the length and
    the width of the part that is being filled come first. -/
def chop (width : Nat) : Nat → Nat → List Char → List (Nat × Nat)
  | length, filled, [] => [(length, filled)]
  | length, filled, c :: rest =>
    if width < filled + cellWidth c then (length, filled) :: chop width 1 (cellWidth c) rest
    else chop width (length + 1) (filled + cellWidth c) rest

/-- Where parts begin, the first of them at the given place.  A line is not broken at its
    start. -/
def partBreaks : Nat → List (Nat × Nat) → List Nat
  | _, [] => []
  | start, (length, _) :: rest =>
    (if start = 0 then [] else [start]) ++ partBreaks (start + length) rest

/-- Where a line is broken, from the word at a place on; the cells that are filled already
    come second. -/
def breaksFrom (width : Nat) : Nat → Nat → List (List Char) → List Nat
  | _, _, [] => []
  | start, filled, word :: rest =>
    let next := start + word.length
    let needed := cellCount (Text.trimEnd word)
    if filled + needed ≤ width then breaksFrom width next (filled + cellCount word) rest
    else if width < needed then
      let parts := chop width 0 0 word
      partBreaks start parts ++ breaksFrom width next ((parts.getLast?.map (·.2)).getD 0) rest
    else if filled = 0 || start = 0 then breaksFrom width next filled rest
    else start :: breaksFrom width next (cellCount word) rest

/-- Where a line is broken. -/
def breaks (width : Nat) (cs : List Char) : List Nat := breaksFrom width 0 0 (lineWords cs)

/-- A line cut at places that are counted from the given one. -/
def cutAt (start : Nat) (cs : List Char) : List Nat → List (List Char)
  | [] => [cs]
  | place :: places => cs.take (place - start) :: cutAt place (cs.drop (place - start)) places

/-! ### Widths -/

/-- A line without white space at its end, of which at most as much goes as the line has
    characters too many. -/
def cropSpace (width : Nat) (cs : List Char) : List Char :=
  let spaces := cs.length - (Text.trimEnd cs).length
  cs.take (cs.length - min spaces (cs.length - width))

/-- The start of a line that has the given width, found by halving; a blank stands for half
    of a wide character.  Without fuel it is the whole line. -/
def cropWithin (width : Nat) (cs : List Char) : Nat → Nat → Nat → List Char
  | 0, _, _ => cs
  | fuel + 1, low, high =>
    let middle := (low + high) / 2
    let start := cs.take (middle + 1)
    let count := cellCount start
    if count = width + 1 && start.getLast?.map cellWidth = some 2 then start.dropLast ++ [' ']
    else if count = width then start
    else if width < count then cropWithin width cs fuel low middle
    else cropWithin width cs fuel middle high

/-- A line that is not wider than the given width. -/
def crop (width : Nat) (cs : List Char) : List Char :=
  if cellCount cs ≤ width then cs else cropWithin width cs cs.length 0 cs.length

/-- The lines that a line becomes where no line is wider than the given width. -/
def fitting (width : Nat) (cs : List Char) : List (List Char) :=
  let line := expandTabs 0 cs
  (cutAt 0 line (breaks width line)).map fun l => crop width (cropSpace width l)

end SchemaGraph.Terminal
