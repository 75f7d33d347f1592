import SchemaGraph.Pattern
import SchemaGraph.Text.Alphanumeric

namespace SchemaGraph.Pattern

/-!
# The dialect of pattern keywords

Pattern sources are written in a dialect that spells four things differently from the
one of schema documents: the anchors `\A` and `\Z`, the opener `(?P<` of a named group
and the backreference `(?P=name)`.  `respell` cuts a source into tokens and replaces
these four kinds; escapes and character classes are tokens of their own, so that nothing
inside them is replaced.
-/

/-- A piece of a pattern's source. -/
inductive Token where
  /-- A backslash and any character but a line break. -/
  | escape (c : Char)
  /-- A character class from its opening to its closing bracket. -/
  | bracket (text : List Char)
  /-- The opener of a named group. -/
  | namedGroup
  /-- A reference to a named group. -/
  | backreference (name : List Char)
  /-- Any other character. -/
  | plain (c : Char)
deriving DecidableEq, Repr

/-- The text of a token. -/
def Token.source : Token → List Char
  | .escape c => ['\\', c]
  | .bracket text => text
  | .namedGroup => ['(', '?', 'P', '<']
  | .backreference name => ['(', '?', 'P', '='] ++ name ++ [')']
  | .plain c => [c]

/-- The text of a token in the dialect of schema documents. -/
def Token.respelled : Token → List Char
  | .escape 'A' => ['^']
  | .escape 'Z' => ['$']
  | .escape c => ['\\', c]
  | .bracket text => text
  | .namedGroup => ['(', '?', '<']
  | .backreference name => ['\\', 'k', '<'] ++ name ++ ['>']
  | .plain c => [c]

/-- The characters of a class up to and with the closing bracket, and what follows.
    An escaped bracket does not close the class. -/
def classBody? : List Char → Option (List Char × List Char)
  | [] => none
  | ']' :: rest => some ([']'], rest)
  | '\\' :: c :: rest =>
    -- No escape is made of a backslash and a line break, so such a class does not close.
    if c = '\n' then none
    else (classBody? rest).map fun (body, r) => ('\\' :: c :: body, r)
  | '\\' :: [] => none
  | c :: rest => (classBody? rest).map fun (body, r) => (c :: body, r)

/-- A class behind its opening bracket.  A bracket that would close the class at once is
    a member of it if another one follows to close it. -/
def classRest? (cs : List Char) : Option (List Char × List Char) :=
  let (negation, body) := match cs with
    | '^' :: rest => (['^'], rest)
    | rest => ([], rest)
  let closed : Option (List Char × List Char) := match body with
    | ']' :: rest =>
      match classBody? rest with
      | some (b, r) => some (']' :: b, r)
      -- No other bracket closes the class, so this one does.
      | none => some ([']'], rest)
    | rest => classBody? rest
  closed.map fun (b, r) => (negation ++ b, r)

/-- A name and the parenthesis behind it. -/
def nameRest? (cs : List Char) : Option (List Char × List Char) :=
  match cs.takeWhile Text.isWordCharacter, cs.dropWhile Text.isWordCharacter with
  | c :: name, ')' :: rest => some (c :: name, rest)
  | _, _ => none

/-- The token at the start of a source. -/
def next (c : Char) (rest : List Char) : Token × List Char :=
  match c, rest with
  | '\\', e :: more => if e = '\n' then (.plain c, rest) else (.escape e, more)
  | '[', _ =>
    match classRest? rest with
    | some (body, more) => (.bracket ('[' :: body), more)
    -- A bracket that nothing closes stands for itself.
    | none => (.plain c, rest)
  | '(', '?' :: 'P' :: '<' :: more => (.namedGroup, more)
  | '(', '?' :: 'P' :: '=' :: more =>
    match nameRest? more with
    | some (name, after) => (.backreference name, after)
    -- Without a name there is no reference.
    | none => (.plain c, rest)
  | _, _ => (.plain c, rest)

/-- The tokens of a source, at most as many as the fuel. -/
def tokensWithin : Nat → List Char → List Token
  | 0, _ => []
  | _, [] => []
  | fuel + 1, c :: rest =>
    let (token, more) := next c rest
    token :: tokensWithin fuel more

/-- The tokens of a source from left to right. -/
def tokens (cs : List Char) : List Token := tokensWithin cs.length cs

/-- A source in the dialect of schema documents. -/
def respellChars (cs : List Char) : List Char := (tokens cs).flatMap Token.respelled

/-- A source in the dialect of schema documents. -/
def respell (source : String) : String := String.ofList (respellChars source.toList)

end SchemaGraph.Pattern
