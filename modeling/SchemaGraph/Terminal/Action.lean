import SchemaGraph.Text.Alphanumeric
import SchemaGraph.Text.Space

namespace SchemaGraph.Terminal

/-!
# Actions

A style may carry an action: the name of a function, and behind it values in brackets.  The
values are read as signs, whose brackets have to match, and then as a list.

* `parametersOf`    — the values among the parameters of an action
* `parametersFault?` — what is wrong with values
-/

/-- What is wrong with values. -/
inductive SyntaxFault where
  | unexpected
  /-- Two values in brackets have no comma between them. -/
  | noComma
  /-- An equals sign behind a value in brackets. -/
  | equals
  /-- A colon has no value behind it. -/
  | noValue
  | neverClosed (bracket : Char)
  | unmatched (bracket : Char)
  | mismatched (closing opening : Char)
  | unterminated
  | leadingZero
  | badNumber
deriving DecidableEq, Repr

/-- The sentence that reports a fault. -/
def SyntaxFault.message : SyntaxFault → String
  | .unexpected => "invalid syntax"
  | .noComma => "invalid syntax. Perhaps you forgot a comma?"
  | .equals => "invalid syntax. Maybe you meant '==' or ':=' instead of '='?"
  | .noValue => "expression expected after dictionary key and ':'"
  | .neverClosed c => "'" ++ String.ofList [c] ++ "' was never closed"
  | .unmatched c => "unmatched '" ++ String.ofList [c] ++ "'"
  | .mismatched c o => "closing parenthesis '" ++ String.ofList [c]
      ++ "' does not match opening parenthesis '" ++ String.ofList [o] ++ "'"
  | .unterminated => "unterminated string literal (detected at line 1)"
  | .leadingZero => "leading zeros in decimal integer literals are not permitted; "
      ++ "use an 0o prefix for octal integers"
  | .badNumber => "invalid decimal literal"

/-! ### Signs -/

/-- A sign: a word, a text between quotes, or a character of its own. -/
inductive Sign where
  | word
  | text
  | mark (c : Char)
deriving DecidableEq, Repr

/-- The bracket that closes what a bracket opens. -/
def closing? : Char → Option Char
  | '(' => some ')'
  | '\x7b' => some '\x7d'
  | _ => none

/-- What is wrong with a word that begins with a digit. -/
def wordFault? (word : List Char) : Option SyntaxFault :=
  match word with
  | [] => none
  | first :: rest =>
    if !first.isDigit then none
    else if rest.all fun c => c.isDigit || c = '_' then
      if first = '0' && rest.any fun c => c ≠ '0' && c ≠ '_' then some .leadingZero else none
    else if rest.any fun c => c.isAlpha && !("xXoObBeEjJ".toList.contains c) then
      if first = '0' then none else some .badNumber
    else none

/-- Whether a character belongs to a word. -/
def isWordPart (c : Char) : Bool := Text.isWordCharacter c || c = '.'

/-- Reads signs under the brackets that are open, the innermost first.  A hash ends the
    text.  The fuel is the length of the text. -/
def signsWithin : Nat → List Char → List Char → Except SyntaxFault (List Sign)
  | 0, open?, _ => ended open?
  | _ + 1, open?, [] => ended open?
  | fuel + 1, open?, c :: rest => do
    if c = '#' then ended open?
    else if Text.isSpace c then signsWithin fuel open? rest
    else if c = '"' || c = '\'' then
      match rest.dropWhile (· ≠ c) with
      | _ :: behind => .ok (.text :: (← signsWithin fuel open? behind))
      | [] => .error .unterminated
    else if (closing? c).isSome then .ok (.mark c :: (← signsWithin fuel (c :: open?) rest))
    else if c = ')' || c = '\x7d' || c = ']' then
      match open? with
      | [] => .error (.unmatched c)
      | o :: outer =>
        if closing? o = some c then .ok (.mark c :: (← signsWithin fuel outer rest))
        else .error (.mismatched c o)
    else if isWordPart c then
      let word := (c :: rest).takeWhile isWordPart
      match wordFault? word with
      | some fault => .error fault
      | none => .ok (.word :: (← signsWithin fuel open? ((c :: rest).drop word.length)))
    else .ok (.mark c :: (← signsWithin fuel open? rest))
where
  /-- The end of the text, at which no bracket may be open. -/
  ended : List Char → Except SyntaxFault (List Sign)
    | [] => .ok []
    | c :: _ => .error (.neverClosed c)

/-! ### Values -/

/-- Characters between two numbers. -/
def isOperator (c : Char) : Bool := "+-*/%@&|^~<>".toList.contains c

/-- The fault of the sign behind a value in brackets. -/
def behindFault : List Sign → SyntaxFault
  | .word :: _ => .noComma
  | .text :: _ => .noComma
  | .mark '=' :: _ => .equals
  | .mark c :: _ => if (closing? c).isSome then .noComma else .unexpected
  | [] => .unexpected

mutual

/-- Reads a value; returns the signs behind it. -/
def value : Nat → List Sign → Except SyntaxFault (List Sign)
  | 0, _ => .error .unexpected
  | fuel + 1, signs =>
    match signs with
    | .word :: rest => further fuel rest
    | .text :: rest => further fuel (rest.dropWhile (· = .text))
    | .mark '(' :: rest => do further fuel (← values fuel ')' rest)
    | .mark '\x7b' :: rest => do further fuel (← values fuel '\x7d' rest)
    | .mark c :: rest =>
      if c = '+' || c = '-' || c = '~' then value fuel rest else .error .unexpected
    | [] => .error .unexpected

/-- Reads what may follow a value: more values between operators, or values in brackets. -/
def further : Nat → List Sign → Except SyntaxFault (List Sign)
  | 0, signs => .ok signs
  | fuel + 1, signs =>
    match signs with
    | .mark '(' :: rest => do further fuel (← values fuel ')' rest)
    | .mark c :: rest => if isOperator c then value fuel rest else .ok signs
    | _ => .ok signs

/-- Reads values between commas up to the closing bracket; returns the signs behind it.
    Between braces, a value may have another one behind a colon. -/
def values : Nat → Char → List Sign → Except SyntaxFault (List Sign)
  | 0, _, _ => .error .unexpected
  | fuel + 1, bracket, signs =>
    match signs with
    | [] => .error .unexpected
    | sign :: behind =>
      if sign = .mark bracket then .ok behind
      else do
        let rest ← value fuel signs
        let rest ← match rest with
          | .mark ':' :: rest =>
            if bracket = '\x7d' then
              match rest with
              | .mark c :: _ => if c = bracket || c = ',' then .error .noValue else value fuel rest
              | _ => value fuel rest
            else .error .unexpected
          | _ => .ok rest
        match rest with
        | .mark ',' :: rest => values fuel bracket rest
        | rest =>
          if rest.head? = some (.mark bracket) then .ok rest.tail else .error (behindFault rest)

end

/-- Reads values between commas to the end. -/
def openValues : Nat → List Sign → Except SyntaxFault Unit
  | 0, _ => .error .unexpected
  | fuel + 1, signs => do
    match ← value fuel signs with
    | [] => .ok ()
    | [.mark ','] => .ok ()
    | .mark ',' :: rest => openValues fuel rest
    | _ => .error .unexpected

/-- What is wrong with values. -/
def parametersFault? (cs : List Char) : Option SyntaxFault :=
  let read := do openValues (2 * cs.length + 2) (← signsWithin cs.length [] cs)
  match read with
  | .ok () => none
  | .error fault => some fault

/-- The values among the parameters of an action: those in brackets behind the name of a
    function, none if there is only a name, or everything. -/
def parametersOf (given : List Char) : List Char :=
  let trimmed := Text.trim given
  let behind := trimmed.dropWhile isWordPart
  if behind.isEmpty then ['(', ')']
  else if behind.head? = some '(' && behind.getLast? = some ')' && !behind.contains '\n' then behind
  else trimmed

end SchemaGraph.Terminal
