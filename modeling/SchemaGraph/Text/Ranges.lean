namespace SchemaGraph.Text

/-!
# Ranges of characters

A class of characters beyond ASCII is listed as runs: the first and the last code point of
each, from the smallest to the largest.
-/

/-- Runs of code points. -/
abbrev Ranges := List (Nat × Nat)

/-- Whether a character lies in one of the runs. -/
def Ranges.holds (ranges : Ranges) (c : Char) : Bool :=
  ranges.any fun r => r.1 ≤ c.toNat && c.toNat ≤ r.2

end SchemaGraph.Text
