import SchemaGraph.Terminal.Lines
import SchemaGraph.Terminal.Markup

namespace SchemaGraph.Terminal

/-!
# Text on the terminal

A message is shown without its styles, in lines that fit.  What is shown has no characters
that steer the terminal, and blanks in place of tabs.

`shown` — what the terminal shows of a message
-/

/-- The cells of a line. -/
def width : Nat := 1000

/-- Whether a character moves the cursor or rings: bell, backspace, vertical tab, form feed
    and carriage return. -/
def isSteering (c : Char) : Bool := [7, 8, 11, 12, 13].contains c.toNat

/-- The lines of a text. -/
def linesOf : List Char → List (List Char)
  | [] => [[]]
  | c :: rest =>
    if c = '\n' then [] :: linesOf rest
    else
      match linesOf rest with
      | [] => [[c]]
      | line :: lines => (c :: line) :: lines

/-- What the terminal shows of a message, unless its styles are at fault. -/
def shown (message : String) : Except MarkupFault String := do
  let plain ← plainText message.toList
  let lines := (linesOf (plain.filter fun c => !isSteering c)).flatMap (fitting width)
  .ok ("\n".intercalate (lines.map String.ofList))

/-- The sign in front of good news. -/
def success (message : String) : String := "[green]✓[/green] " ++ message

/-- The sign in front of bad news. -/
def error (message : String) : String := "[red]✗[/red] " ++ message

end SchemaGraph.Terminal
