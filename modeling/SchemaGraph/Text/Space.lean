import SchemaGraph.Text.Ranges

namespace SchemaGraph.Text

/-!
# White space

A character is white when Unicode gives it a direction of its own as a separator or counts
it among the blanks: besides the blanks of ASCII and its four separators there are the wide,
the narrow and the unbreakable ones.

* `isSpace` — whether a character is white
* `trim`    — a text without the white ends
* `words`   — what stands between white space
-/

/-- Runs of white characters. -/
def spaceRanges : Ranges := [
  (0x9, 0xd), (0x1c, 0x20), (0x85, 0x85), (0xa0, 0xa0), (0x1680, 0x1680), (0x2000, 0x200a),
  (0x2028, 0x2029), (0x202f, 0x202f), (0x205f, 0x205f), (0x3000, 0x3000)]

/-- Whether a character is white. -/
def isSpace (c : Char) : Bool := spaceRanges.holds c

/-- Characters without the white ones at the end. -/
def trimEnd (cs : List Char) : List Char := (cs.reverse.dropWhile isSpace).reverse

/-- Characters without the white ones at either end. -/
def trim (cs : List Char) : List Char := trimEnd (cs.dropWhile isSpace)

/-- What stands between white characters; the characters of the word that is being read come
    last one first. -/
def wordsFrom (word : List Char) : List Char → List String
  | [] => finished
  | c :: rest => if isSpace c then finished ++ wordsFrom [] rest else wordsFrom (c :: word) rest
where
  /-- The word that has been read, if it has a character. -/
  finished : List String := if word.isEmpty then [] else [String.ofList word.reverse]

/-- The words of a text. -/
def words (cs : List Char) : List String := wordsFrom [] cs

end SchemaGraph.Text
