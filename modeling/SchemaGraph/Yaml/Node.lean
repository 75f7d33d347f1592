import SchemaGraph.Yaml.Lexer

namespace SchemaGraph.Yaml

/-!
# Trees of YAML

The tokens of a text make a tree of texts, sequences and mappings.  What is not written
but must be there is an empty text.

* `Node.ofTokens` — the tree of a document
-/

/-- A tree with the lines on which its parts begin. -/
inductive Node where
  | scalar (content : Content) (line : Nat)
  | sequence (items : List Node) (line : Nat)
  | mapping (entries : List (Node × Node)) (line : Nat)
deriving Inhabited

/-- The line on which a tree begins. -/
def Node.line : Node → Nat
  | .scalar _ line => line
  | .sequence _ line => line
  | .mapping _ line => line

/-! ### From tokens to trees

A reading returns what was read and the tokens left. -/

/-- The line of the next token. -/
def lineOf (ts : List Token) : Nat := (ts.head?.map (·.line)).getD 0

/-- Whether the next token is one of the symbols. -/
def atAny (ts : List Token) (symbols : List Symbol) : Bool :=
  ts.head?.any fun t => symbols.contains t.symbol

/-- The fault at the next token: the text breaks a rule there, unless reading has failed. -/
def faultAt (ts : List Token) : Fault :=
  match ts with
  | ⟨.failed fault, _⟩ :: _ => fault
  | _ => .broken (lineOf ts)

/-- The node that is not written on a line. -/
def emptyNode (line : Nat) : Node := .scalar (.plain "") line

mutual

/-- A node.  Collections without brackets may stand only in a block; a sequence may lack
    indentation where it is allowed to. -/
def node (block unindented : Bool) : Nat → List Token → Except Fault (Node × List Token)
  | 0, ts => .error (faultAt ts)
  | fuel + 1, ts =>
    match ts with
    | [] => .error (faultAt ts)
    | t :: rest =>
      match t.symbol with
      | .scalar content => .ok (.scalar content t.line, rest)
      | .openSequence => do
        let (items, rest) ← flowItems fuel true rest
        .ok (.sequence items t.line, rest)
      | .openMapping => do
        let (entries, rest) ← flowEntries fuel true rest
        .ok (.mapping entries t.line, rest)
      -- Inside of brackets there are no blocks.
      | .blockSequence =>
        if block then do
          let (items, rest) ← blockItems fuel rest
          .ok (.sequence items t.line, rest)
        else .error (faultAt ts)
      | .blockMapping =>
        if block then do
          let (entries, rest) ← blockEntries fuel rest
          .ok (.mapping entries t.line, rest)
        else .error (faultAt ts)
      | .entry =>
        if unindented then do
          let (items, rest) ← unindentedItems fuel ts
          .ok (.sequence items t.line, rest)
        else .error (faultAt ts)
      | _ => .error (faultAt ts)

/-- A node behind the next token, or the empty one in front of the symbols. -/
def nodeUnless (block unindented : Bool) (stops : List Symbol) :
    Nat → List Token → Except Fault (Node × List Token)
  | 0, ts => .error (faultAt ts)
  | fuel + 1, ts =>
    if atAny ts.tail stops then .ok (emptyNode (lineOf ts), ts.tail)
    else node block unindented fuel ts.tail

/-- The elements of a sequence in a block. -/
def blockItems : Nat → List Token → Except Fault (List Node × List Token)
  | 0, ts => .error (faultAt ts)
  | fuel + 1, ts =>
    if atAny ts [.entry] then do
      let (item, rest) ← nodeUnless true false [.entry, .blockEnd] fuel ts
      let (items, rest) ← blockItems fuel rest
      .ok (item :: items, rest)
    else if atAny ts [.blockEnd] then .ok ([], ts.tail)
    else .error (faultAt ts)

/-- The elements of a sequence that lacks indentation. -/
def unindentedItems : Nat → List Token → Except Fault (List Node × List Token)
  | 0, ts => .error (faultAt ts)
  | fuel + 1, ts =>
    if atAny ts [.entry] then do
      let (item, rest) ←
        nodeUnless true false [.entry, .key, .value, .blockEnd] fuel ts
      let (items, rest) ← unindentedItems fuel rest
      .ok (item :: items, rest)
    else .ok ([], ts)

/-- The entries of a mapping in a block. -/
def blockEntries : Nat → List Token → Except Fault (List (Node × Node) × List Token)
  | 0, ts => .error (faultAt ts)
  | fuel + 1, ts =>
    if atAny ts [.key] then do
      let (key, rest) ← nodeUnless true true [.key, .value, .blockEnd] fuel ts
      let (value, rest) ←
        if atAny rest [.value] then
          nodeUnless true true [.key, .value, .blockEnd] fuel rest
        -- A key may stand alone, and its value is empty then.
        else .ok (emptyNode (lineOf rest), rest)
      let (entries, rest) ← blockEntries fuel rest
      .ok ((key, value) :: entries, rest)
    else if atAny ts [.blockEnd] then .ok ([], ts.tail)
    else .error (faultAt ts)

/-- The elements of a sequence in brackets; the first has no comma in front of it. -/
def flowItems : Nat → Bool → List Token → Except Fault (List Node × List Token)
  | 0, _, ts => .error (faultAt ts)
  | fuel + 1, first, ts =>
    if atAny ts [.closeSequence] then .ok ([], ts.tail)
    else if !first && !atAny ts [.comma] then .error (faultAt ts)
    else
      let ts := if first then ts else ts.tail
      if atAny ts [.closeSequence] then .ok ([], ts.tail)
      else do
        let (item, rest) ←
          -- A key inside of a sequence makes a mapping of one entry.
          if atAny ts [.key] then do
            let (entry, rest) ← flowEntry [.comma, .closeSequence] fuel ts
            .ok (.mapping [entry] (lineOf ts), rest)
          else node false false fuel ts
        let (items, rest) ← flowItems fuel false rest
        .ok (item :: items, rest)

/-- The entries of a mapping in brackets; the first has no comma in front of it. -/
def flowEntries : Nat → Bool → List Token → Except Fault (List (Node × Node) × List Token)
  | 0, _, ts => .error (faultAt ts)
  | fuel + 1, first, ts =>
    if atAny ts [.closeMapping] then .ok ([], ts.tail)
    else if !first && !atAny ts [.comma] then .error (faultAt ts)
    else
      let ts := if first then ts else ts.tail
      if atAny ts [.closeMapping] then .ok ([], ts.tail)
      else do
        let (entry, rest) ←
          if atAny ts [.key] then flowEntry [.comma, .closeMapping] fuel ts
          else do
            -- A node without a colon is a key whose value is not written.
            let (key, rest) ← node false false fuel ts
            .ok ((key, emptyNode (lineOf rest)), rest)
        let (entries, rest) ← flowEntries fuel false rest
        .ok (entry :: entries, rest)

/-- A key behind its mark and its value in brackets, up to the symbols that end an entry. -/
def flowEntry (ends : List Symbol) :
    Nat → List Token → Except Fault ((Node × Node) × List Token)
  | 0, ts => .error (faultAt ts)
  | fuel + 1, ts => do
    let (key, rest) ← nodeUnless false false (.value :: ends) fuel ts
    if atAny rest [.value] then do
      let (value, rest) ← nodeUnless false false ends fuel rest
      .ok ((key, value), rest)
    else .ok ((key, emptyNode (lineOf rest)), rest)

end

/-- The tree of the only document among the tokens, if there is one. -/
def Node.ofTokens (ts : List Token) : Except Fault (Option Node) :=
  if atAny ts [.streamEnd] then .ok none
  else do
    -- A token is looked at by three readings at most: as an element, as what may be empty, and as a
    -- node.
    let fuel := 3 * ts.length + 3
    let (root, rest) ←
      if atAny ts [.documentStart] then
        nodeUnless true false [.documentStart, .documentEnd, .streamEnd] fuel ts
      else node true false fuel ts
    -- A second document in the text is a fault.
    let rest := rest.dropWhile fun t => t.symbol = .documentEnd
    if atAny rest [.streamEnd] then .ok (some root) else .error (faultAt rest)

end SchemaGraph.Yaml
