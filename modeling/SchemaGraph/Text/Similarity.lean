namespace SchemaGraph.Text

/-!
# Similar words

Two words are as similar as the share of characters that they have in common blocks: the
longest common block comes first, then in the same way what stands in front of it and what
stands behind it.

* `commonCount`   — how many characters two words have in common blocks
* `similarWords`  — the words that are most similar to a given one
-/

/-- How many characters two words have in common from the start on. -/
def commonStart : List Char → List Char → Nat
  | a :: as, b :: bs => if a = b then commonStart as bs + 1 else 0
  | _, _ => 0

/-- A block of characters: where it begins in either word, and its length. -/
structure Block where
  left : Nat
  right : Nat
  size : Nat
deriving DecidableEq, Repr

/-- The longest common block; of several the one that begins first in the left word, then
    in the right one. -/
def longestBlock (a b : List Char) : Block :=
  let starts := (List.range a.length).flatMap fun i => (List.range b.length).map fun j => (i, j)
  starts.foldl
    (fun best (i, j) =>
      let size := commonStart (a.drop i) (b.drop j)
      if best.size < size then ⟨i, j, size⟩ else best)
    ⟨0, 0, 0⟩

/-- How many characters two words have in common blocks, with fuel for the blocks. -/
def commonCountWithin : Nat → List Char → List Char → Nat
  | 0, _, _ => 0
  | fuel + 1, a, b =>
    let block := longestBlock a b
    if block.size = 0 then 0
    else
      commonCountWithin fuel (a.take block.left) (b.take block.right) + block.size
        + commonCountWithin fuel (a.drop (block.left + block.size))
            (b.drop (block.right + block.size))

/-- How many characters two words have in common blocks. -/
def commonCount (a b : List Char) : Nat := commonCountWithin a.length a b

/-- Whether at least three fifths of the characters of two words are in common blocks. -/
def isSimilar (a b : String) : Bool :=
  3 * (a.length + b.length) ≤ 10 * commonCount a.toList b.toList

/-- Whether the first word is more similar to a given one than the second; words that are
    as similar as each other are told apart by their order. -/
def isCloser (word a b : String) : Bool :=
  let left := commonCount a.toList word.toList * (b.length + word.length)
  let right := commonCount b.toList word.toList * (a.length + word.length)
  right < left || (left = right && !decide (a < b))

/-- The three words that are most similar to a given one, in their own order. -/
def similarWords (word : String) (words : List String) : List String :=
  let similar := words.filter fun w => isSimilar w word
  let closest := (similar.mergeSort (isCloser word)).take 3
  closest.mergeSort fun a b => !decide (b < a)

end SchemaGraph.Text
