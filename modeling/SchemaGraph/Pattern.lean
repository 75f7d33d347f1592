namespace SchemaGraph

/-!
# Regular expressions

A pattern is its source text and its flags.  The flag for Unicode matching is the default
and does not count.  Flags stand apart from the source or in groups such as `(?im)` at its
start.

* `Pattern.ofSource` — a pattern from its source and the letters of its flags
* `Pattern.escape`   — the source of a pattern that matches just a given text
-/

/-- What changes the meaning of a pattern as a whole. -/
inductive Pattern.Flag where
  | ignoreCase
  | locale
  | multiline
  | dotAll
  | verbose
  | ascii
deriving DecidableEq, Repr, Inhabited

/-- A regular expression. -/
structure Pattern where
  source : String
  /-- The flags other than the one for Unicode, each once and in a fixed order. -/
  flags : List Pattern.Flag := []
deriving DecidableEq, Repr, Inhabited

namespace Pattern

namespace Flag

/-- All flags, in the order in which they are listed. -/
def all : List Flag := [.ignoreCase, .locale, .multiline, .dotAll, .verbose, .ascii]

/-- The letter of a flag. -/
def letter : Flag → Char
  | .ignoreCase => 'i'
  | .locale => 'L'
  | .multiline => 'm'
  | .dotAll => 's'
  | .verbose => 'x'
  | .ascii => 'a'

/-- The word for a flag. -/
def name : Flag → String
  | .ignoreCase => "IGNORECASE"
  | .locale => "LOCALE"
  | .multiline => "MULTILINE"
  | .dotAll => "DOTALL"
  | .verbose => "VERBOSE"
  | .ascii => "ASCII"

end Flag

/-- Whether a letter stands for a flag; `u` is the one for Unicode. -/
def isFlag (c : Char) : Bool := c = 'u' || Flag.all.any fun f => f.letter = c

/-- Whether a character is a blank, which means nothing in a verbose pattern. -/
def isBlank (c : Char) : Bool :=
  [' ', '\t', '\n', '\r', Char.ofNat 11, Char.ofNat 12].contains c

/-- The letters of the flags in groups `(?letters)` at the start of a source.  Remarks
    `(?#…)` may stand in between, and behind the flag `x` also blanks and remarks that go
    on to the end of the line. -/
def leadingLetters (verbose : Bool) : Nat → List Char → List Char
  | 0, _ => []
  | fuel + 1, cs =>
    match cs with
    | '(' :: '?' :: '#' :: rest =>
      leadingLetters verbose fuel ((rest.dropWhile (· ≠ ')')).drop 1)
    | '(' :: '?' :: rest =>
      let letters := rest.takeWhile isFlag
      match letters, rest.dropWhile isFlag with
      | _ :: _, ')' :: more =>
        -- From here on blanks and remarks count as such, if the group says so.
        letters ++ leadingLetters (verbose || letters.contains 'x') fuel more
      | _, _ => []
    | c :: rest =>
      if verbose && isBlank c then leadingLetters verbose fuel rest
      else if verbose && c = '#' then
        leadingLetters verbose fuel ((rest.dropWhile (· ≠ '\n')).drop 1)
      else []
    | [] => []

/-- A pattern from its source and the letters of its flags. -/
def ofSource (source flags : String) : Pattern where
  source := source
  flags :=
    let apart := flags.toList
    let leading := leadingLetters (apart.contains 'x') source.length source.toList
    -- Each flag once, and in the fixed order, however often it was named.
    Flag.all.filter fun f => (apart ++ leading).contains f.letter

/-- Whether a flag other than the one for Unicode is set. -/
def flagged (p : Pattern) : Bool := !p.flags.isEmpty

/-- Characters with a meaning of their own in a pattern, and blanks. -/
def isSpecial (c : Char) : Bool :=
  isBlank c || ['(', ')', '[', ']', '\x7b', '\x7d', '?', '*', '+', '-', '|', '^', '$', '\\', '.',
    '&', '~', '#'].contains c

/-- A backslash in front of a special character, nothing in front of another. -/
def escapeChar (c : Char) : List Char := if isSpecial c then ['\\', c] else [c]

/-- The source that matches the characters one by one. -/
def escapeChars (cs : List Char) : List Char := cs.flatMap escapeChar

/-- The source of a pattern that matches just the given text. -/
def escape (s : String) : String := String.ofList (escapeChars s.toList)

end Pattern

end SchemaGraph
