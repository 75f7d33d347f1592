import SchemaGraph.Terminal.Action
import SchemaGraph.Terminal.Emoji
import SchemaGraph.Terminal.Style
import SchemaGraph.Text.Quoted

namespace SchemaGraph.Terminal

/-!
# Styled text

Words in square brackets that begin with a small letter, or with `/`, `#` or `@`, style the
text behind them and are not shown.  A closing word ends the last open style of that name,
or the last one at all if it is bare; one that ends no style is a fault.  A backslash in
front of a bracket takes its meaning away.  Names between colons become pictures, but not
across a style.

* `pieces`     — a text in its pieces
* `plainText`  — the text without its styles
* `MarkupFault` — why a text cannot be shown
-/

/-- A styling word: its name, and what stands behind an equals sign. -/
structure Tag where
  name : List Char
  parameters : Option (List Char)
deriving DecidableEq, Repr

namespace Tag

/-- The parts of a styling word. -/
def ofWord (word : List Char) : Tag :=
  let name := word.takeWhile (· ≠ '=')
  match word.drop name.length with
  | _ :: parameters => ⟨name, some parameters⟩
  | [] => ⟨name, none⟩

/-- A styling word between its brackets. -/
def text (t : Tag) : String :=
  let behind := match t.parameters with
    | some ps => '=' :: ps
    | none => []
  String.ofList ('[' :: t.name ++ behind ++ [']'])

end Tag

/-- A piece of a text. -/
inductive Piece where
  | plain (cs : List Char)
  /-- A styling word, and where its bracket stands. -/
  | tag (position : Nat) (t : Tag)
deriving DecidableEq, Repr

/-- Why a text cannot be shown. -/
inductive MarkupFault where
  /-- A closing word at a position, without an open style of its name. -/
  | unmatched (tag : String) (position : Nat)
  | nothingToClose (position : Nat)
  | color (fault : ColorFault)
  /-- Parameters of an action, given as a whole and as they were read. -/
  | parameters (given read : String) (fault : SyntaxFault)
deriving DecidableEq, Repr

namespace MarkupFault

/-- The class of a fault. -/
def label : MarkupFault → String
  | .color _ => "ValueError"
  | _ => "MarkupError"

/-- The sentence that reports a fault. -/
def message : MarkupFault → String
  | .unmatched tag position =>
    "closing tag '" ++ tag ++ "' at position " ++ toString position ++ " doesn't match any open tag"
  | .nothingToClose position =>
    "closing tag '[/]' at position " ++ toString position ++ " has nothing to close"
  | .color .noDigit => "invalid literal for int() with base 10: ''"
  | .parameters given read fault =>
    "error parsing " ++ Text.quoted read ++ " in " ++ Text.quoted given ++ "; " ++ fault.message

end MarkupFault

/-! ### Pieces -/

/-- Characters with which a styling word begins. -/
def beginsWord (c : Char) : Bool :=
  ('a' ≤ c && c ≤ 'z') || c = '/' || c = '#' || c = '@'

/-- The word behind an opening bracket, and what follows the closing one. -/
def word? (cs : List Char) : Option (List Char × List Char) :=
  let word := cs.takeWhile fun c => c ≠ ']' && c ≠ '['
  match word.head?, cs.drop word.length with
  | some c, ']' :: rest => if beginsWord c then some (word, rest) else none
  | _, _ => none

/-- A piece of plain characters, given last one first; none if there are none. -/
def plainPiece (reversed : List Char) : List Piece :=
  if reversed.isEmpty then [] else [.plain reversed.reverse]

/-- The pieces of a text from a position on.  The plain characters in front come last one
    first; of several backslashes in front of a styling word every second one is kept, and
    an odd one takes the meaning of the word away.  The fuel is the length of the text. -/
def piecesWithin : Nat → Nat → List Char → List Char → List Piece
  | 0, _, plain, cs => plainPiece (cs.reverse ++ plain)
  | _ + 1, _, plain, [] => plainPiece plain
  | fuel + 1, position, plain, c :: rest =>
    let slashes := (c :: rest).takeWhile (· = '\\')
    match (c :: rest).drop slashes.length with
    | '[' :: more =>
      match word? more with
      | some (word, behind) =>
        let kept := List.replicate (slashes.length / 2) '\\'
        let next := position + slashes.length + word.length + 2
        let piece : Piece :=
          if slashes.length % 2 = 1 then .plain ('[' :: word ++ [']'])
          else .tag (position + slashes.length) (.ofWord word)
        plainPiece plain ++ plainPiece kept ++ piece :: piecesWithin fuel next [] behind
      | none =>
        piecesWithin fuel (position + slashes.length + 1) ('[' :: slashes ++ plain) more
    | more =>
      if slashes.isEmpty then piecesWithin fuel (position + 1) (c :: plain) rest
      else piecesWithin fuel (position + slashes.length) (slashes ++ plain) more

/-- The pieces of a text. -/
def pieces (cs : List Char) : List Piece := piecesWithin cs.length 0 [] cs

/-! ### Plain text -/

/-- Looks at the parameters of an action. -/
def checkParameters (given : List Char) : Except MarkupFault Unit :=
  let read := parametersOf given
  match parametersFault? read with
  | none => .ok ()
  | some fault => .error (.parameters (String.ofList given) (String.ofList read) fault)

/-- An open style: its name, and the parameters of its word. -/
abbrev OpenStyle := String × Option (List Char)

/-- The innermost open style of a name, and the others. -/
def close? (name : String) : List OpenStyle → Option (OpenStyle × List OpenStyle)
  | [] => none
  | style :: rest =>
    if style.1 = name then some (style, rest)
    else (close? name rest).map fun (found, others) => (found, style :: others)

/-- The open styles behind a closing word.  An action is looked at when it is closed. -/
def closeStyle (position : Nat) (t : Tag) (styles : List OpenStyle) :
    Except MarkupFault (List OpenStyle) := do
  let name := Text.trim t.name.tail
  let (closed, others) ←
    if name.isEmpty then
      match styles with
      | style :: others => .ok (style, others)
      | [] => .error (.nothingToClose position)
    else do
      let name ← (styleName name).mapError .color
      match close? name styles with
      | some found => .ok found
      | none => .error (.unmatched t.text position)
  match closed.1.startsWith "@", closed.2 with
  | true, some (p :: ps) =>
    checkParameters (p :: ps)
    .ok others
  | _, _ => .ok others

/-- Plain characters without the backslashes in front of brackets. -/
def withoutSlashes : List Char → List Char
  | '\\' :: '[' :: rest => '[' :: withoutSlashes rest
  | c :: rest => c :: withoutSlashes rest
  | [] => []

/-- What is shown of pieces under the styles that are open. -/
def plainOf : List OpenStyle → List Piece → Except MarkupFault (List Char)
  | _, [] => .ok []
  | styles, .plain cs :: rest => do
    let more ← plainOf styles rest
    .ok (withEmoji (withoutSlashes cs) ++ more)
  | styles, .tag position t :: rest => do
    if t.name.head? = some '/' then
      let styles ← closeStyle position t styles
      plainOf styles rest
    else
      let name ← (styleName t.name).mapError .color
      plainOf ((name, t.parameters) :: styles) rest

/-- A text without its styles. -/
def plainText (cs : List Char) : Except MarkupFault (List Char) := plainOf [] (pieces cs)

end SchemaGraph.Terminal
