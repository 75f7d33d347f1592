import SchemaGraph.Pattern.Respelling
import SchemaGraph.Survey
import SchemaGraph.Value.Call

namespace SchemaGraph

/-!
# Recipes

The recipe of a node lists, step by step, how its fragment comes about: which keywords
are written, which children are visited in between, and where the recipe fails.  It
depends on the node, the settings and the path alone, so that what a node contributes can
be read off without walking the graph.

* `Node.recipe`      — the steps for a node
* `Step.child?`      — the child that a step leads to
-/

/-- A step in making a fragment. -/
inductive Step where
  /-- Writes a keyword. -/
  | write (key : String) (value : Value)
  /-- Writes the entries of a custom fragment. -/
  | merge (entries : Entries)
  /-- Visits a child. -/
  | visit (child : NodeId) (path : Path)
  /-- Writes a property of an object. -/
  | property (name : String) (child : NodeId)
  /-- Writes which properties must be there. -/
  | require (shape : List (String × NodeId))
  /-- Visits the node inside a wrapper, whose content is passed on. -/
  | inherit (child : NodeId) (path : Path)
  /-- Visits what a lazy node stands for, whose content is passed on. -/
  | inheritResolved (path : Path)
  /-- Visits the source of a clone, whose content is passed on. -/
  | inheritSource (child : NodeId) (path : Path)
  /-- Keeps a default for the input side. -/
  | prefault (value : Value)
  | fail (failure : Failure)
deriving DecidableEq, Repr

/-- The child that a step leads to, with the path there.  What a lazy node stands for is
    not part of the recipe. -/
def Step.child? : Step → Option (NodeId × Path)
  | .visit child path => some (child, path)
  | .inherit child path => some (child, path)
  | .inheritSource child path => some (child, path)
  | _ => none

/-! ### Keywords -/

/-- Names of string formats that documents spell in another way. -/
def formatNames : List (String × String) :=
  [("guid", "uuid"), ("url", "uri"), ("datetime", "date-time"), ("json_string", "json-string")]

/-- A format as documents spell it. -/
def formatKeyword (format : Value) : Value :=
  match format with
  | .str s =>
    match formatNames.find? fun e => e.1 = s with
    | some (_, keyword) => .str keyword
    | none => .str s
  | v => v

/-- A keyword, if its value is a number. -/
def numberKeyword (key : String) (v : Value) : List Step :=
  if v.number?.isSome then [.write key v] else []

/-- The source of a pattern, respelled for documents.  A pattern with flags has none. -/
def Pattern.keyword (p : Pattern) (path : Path) : Except Failure String :=
  if p.flagged then .error (.flaggedPattern p.source path) else .ok (respell p.source)

/-- Writes a pattern. -/
def patternStep (p : Pattern) (path : Path) : Step :=
  match p.keyword path with
  | .ok source => .write "pattern" (.str source)
  | .error f => .fail f

/-- Whether the first text occurs in the second. -/
def occursIn (part : List Char) : List Char → Bool
  | [] => part.isEmpty
  | c :: rest => part.isPrefixOf (c :: rest) || occursIn part rest

/-- Whether a numeric format asks for whole numbers: its name holds the word, or it is a
    collection of which the word is an element. -/
def asksForIntegers : Value → Except Failure Bool
  | .str s => .ok (occursIn ['i', 'n', 't'] s.toList)
  | .items _ xs => .ok (xs.any fun x => x.same (.str "int"))
  | .dict es => .ok (Entries.has (.str "int") es)
  | .loop _ => .ok false
  | _ => .error .misuse

/-! ### Numeric bounds -/

/-- Of an inclusive and an exclusive lower bound the one that asks for more; the
    exclusive one where both name the same number. -/
def lowerBound (inclusive exclusive : Value) : List (String × Value) :=
  match inclusive.number?, exclusive.number? with
  | some i, some e =>
    -- Of the same number the exclusive bound asks for more.
    if i.le e then [("exclusiveMinimum", exclusive)] else [("minimum", inclusive)]
  | some _, none => [("minimum", inclusive)]
  | none, some _ => [("exclusiveMinimum", exclusive)]
  | none, none => []

/-- Of an inclusive and an exclusive upper bound the one that asks for more; the
    exclusive one where both name the same number. -/
def upperBound (inclusive exclusive : Value) : List (String × Value) :=
  match inclusive.number?, exclusive.number? with
  | some i, some e =>
    -- Likewise, on the other side of the order.
    if e.le i then [("exclusiveMaximum", exclusive)] else [("maximum", inclusive)]
  | some _, none => [("maximum", inclusive)]
  | none, some _ => [("exclusiveMaximum", exclusive)]
  | none, none => []

/-- The keywords for the bounds of a number. -/
def boundKeywords (c : Constraints) : List (String × Value) :=
  lowerBound c.minimum c.exclusiveMinimum ++ upperBound c.maximum c.exclusiveMaximum

/-! ### Recipes of the kinds -/

/-- Texts: their lengths, format, pattern and encoding. -/
def stringSteps (c : Constraints) (path : Path) : List Step :=
  [.write "type" "string"]
    ++ numberKeyword "minLength" c.minimum
    ++ numberKeyword "maxLength" c.maximum
    ++ (if c.format.isTruthy then
        -- The table of formats is asked for it, which takes a key.
        if c.format.isHashable then [.write "format" (formatKeyword c.format)]
        else [.fail .misuse]
      else [])
    ++ (match c.pattern with
      | .null => []
      | .foreign (.regex p) => [patternStep p path]
      | _ => [.fail .missingChild])
    ++ (if c.contentEncoding.isTruthy then [.write "contentEncoding" c.contentEncoding] else [])

/-- Numbers: whole ones or any, their bounds and their step. -/
def numberSteps (c : Constraints) : List Step :=
  let type : Except Failure String :=
    if c.format.isTruthy then
      (asksForIntegers c.format).map fun whole => if whole then "integer" else "number"
    else .ok "number"
  match type with
  | .error f => [.fail f]
  | .ok type =>
    .write "type" (.str type) :: (boundKeywords c).map (fun (k, v) => .write k v)
      ++ numberKeyword "multipleOf" c.multipleOf

/-- Sequences: their lengths and their items. -/
def arraySteps (node : Node) (path : Path) : List Step :=
  numberKeyword "minItems" node.constraints.minimum
    ++ numberKeyword "maxItems" node.constraints.maximum
    ++ [.write "type" "array",
      .visit node.element (path ++ [.name "items"]),
      .write "items" (.fragment node.element)]

/-- Objects: their properties, which of them must be there, and all other properties. -/
def objectSteps (node : Node) (catchall : Option Kind) (path : Path) : List Step :=
  let shape := node.shape.getD []
  [.write "type" "object", .write "properties" (.dict [])]
    ++ shape.flatMap (fun (name, child) =>
      [.visit child (path ++ [.name "properties", .name name]), .property name child])
    ++ [.require shape]
    ++ (if node.catchall = .gap then []
      -- Nothing besides is a truth value, not a schema; so there is no visit.
      else if catchall = some .never then [.write "additionalProperties" (.bool false)]
      else
        [.visit node.catchall (path ++ [.name "additionalProperties"]),
          .write "additionalProperties" (.fragment node.catchall)])

/-- Visits to several children under one keyword. -/
def visitSteps (key : String) (children : List NodeId) (path : Path) : List Step :=
  children.zipIdx.map fun (child, i) =>
    .visit child (path ++ [.name key, .index (Int.ofNat i)])

/-- The fragments of several children. -/
def fragments (children : List NodeId) : Value := .list (children.map Value.fragment)

/-- Alternatives. -/
def unionSteps (node : Node) (path : Path) : List Step :=
  visitSteps "anyOf" node.options path ++ [.write "anyOf" (fragments node.options)]

/-- Both of two nodes. -/
def intersectionSteps (node : Node) (path : Path) : List Step :=
  let sides := [node.left, node.right]
  visitSteps "allOf" sides path ++ [.write "allOf" (fragments sides)]

/-- Sequences with leading items; the dialects name the two groups of items differently. -/
def tupleSteps (node : Node) (target : Target) (path : Path) : List Step :=
  let modern := target = .draft2020
  [.write "type" "array"]
    -- Paths name the items as the current dialect does, in either dialect.
    ++ visitSteps "prefixItems" node.items path
    ++ [.write (if modern then "prefixItems" else "items") (fragments node.items)]
    ++ (if node.rest = .gap then []
      else
        [.visit node.rest (path ++ [.name "items"]),
          .write (if modern then "items" else "additionalItems") (.fragment node.rest)])
    ++ numberKeyword "minItems" node.constraints.minimum
    ++ numberKeyword "maxItems" node.constraints.maximum

/-- Objects with keys and values of one kind each. -/
def recordSteps (node : Node) (path : Path) : List Step :=
  [.write "type" "object",
    .visit node.keyType (path ++ [.name "propertyNames"]),
    .write "propertyNames" (.fragment node.keyType),
    .visit node.valueType (path ++ [.name "additionalProperties"]),
    .write "additionalProperties" (.fragment node.valueType)]

/-- The values of a literal as documents hold them, up to the first that stops the
    recipe. -/
def literalValues (policy : Unrepresentable) (path : Path) :
    List Value → Except Failure (List Value)
  | [] => .ok []
  -- What is undefined is left out unless it is rejected.
  | .undefined :: rest =>
    if policy = .reject then .error (.undefinedLiteral path)
    else literalValues policy path rest
  | .bigint i :: rest =>
    if policy = .reject then .error (.bigintLiteral path)
    else (literalValues policy path rest).map (.int i :: ·)
  | v :: rest => (literalValues policy path rest).map (v :: ·)

/-- Literals: one value, or one of several. -/
def literalSteps (node : Node) (policy : Unrepresentable) (path : Path) : List Step :=
  match literalValues policy path node.values with
  | .error f => [.fail f]
  | .ok [] => []
  | .ok [v] => [.write "const" v]
  | .ok vs => [.write "enum" (.list vs)]

/-- Concatenations of texts and nodes. -/
def templateSteps (node : Node) (path : Path) : List Step :=
  match node.pattern with
  | none => [.fail (.missingPattern path)]
  | some p => [.write "type" "string", patternStep p path]

/-- Passes on the content of the node inside. -/
def inheritStep (inner : NodeId) (path : Path) : Step :=
  if inner = .gap then .fail (.missingInner .null path) else .inherit inner path

/-- A default, computed where it is a function. -/
def defaultStep (node : Node) (use : Value → Step) : Step :=
  match node.defaultValue.produced with
  | .ok v => use v
  | .error cause => .fail (.ofRaised cause)

/-- The answer of a fallback that is asked without a refused value. -/
def fallbackSteps (node : Node) (path : Path) : List Step :=
  if node.fallbackValue = .null then []
  else
    -- There is no refused value to call it with.
    match node.fallbackValue.call (some .null) with
    | .ok v => [.write "default" v]
    | .error cause => [.fail (.dynamicFallback cause path)]

/-- The steps of the rules for a node's kind. -/
def kindSteps (settings : LoweringSettings) (catchall : Option Kind) (node : Node)
    (path : Path) : List Step :=
  match node.kind with
  | .string => stringSteps node.constraints path
  | .number => numberSteps node.constraints
  | .boolean => [.write "type" "boolean"]
  | .success => [.write "type" "boolean"]
  | .undefined => [.write "type" "null"]
  | .null => [.write "type" "null"]
  | .any => []
  | .unknown => []
  | .never => [.write "not" (.dict [])]
  | .array => arraySteps node path
  | .object => objectSteps node catchall path
  | .union => unionSteps node path
  | .intersection => intersectionSteps node path
  | .tuple => tupleSteps node settings.target path
  | .record => recordSteps node path
  | .enumeration => [.write "enum" (.list ((node.entries.getD []).map (·.2)))]
  | .literal => literalSteps node settings.unrepresentable path
  | .templateLiteral => templateSteps node path
  -- The node inside is visited on the path of the node itself.
  | .nullable =>
    [.visit node.inner path,
      .write "anyOf" (.list [.fragment node.inner, .dict [("type", .str "null")]])]
  | .optional => [inheritStep node.inner path]
  | .nonoptional => [inheritStep node.inner path]
  | .promise => [inheritStep node.inner path]
  | .default => [inheritStep node.inner path, defaultStep node (.write "default")]
  | .prefault =>
    inheritStep node.inner path ::
      if settings.side = .input then [defaultStep node .prefault] else []
  | .fallback => inheritStep node.inner path :: fallbackSteps node path
  | .readonly => [inheritStep node.inner path, .write "readOnly" (.bool true)]
  | .pipe => [inheritStep (if settings.side = .input then node.input else node.output) path]
  | .lazy => [.inheritResolved path]
  -- All other kinds have no counterpart in documents.
  | kind =>
    if settings.unrepresentable = .reject then [.fail (.unrepresentable kind path)] else []

/-- The steps of a custom lowering. -/
def loweringSteps (lowering : Value) : List Step :=
  match lowering.call none with
  | .error cause => [.fail (.ofRaised cause)]
  | .ok v =>
    let (entries, stop) := v.mergeable
    match stop with
    | none => [.merge entries]
    -- What comes before the failure is merged nevertheless.
    | some f => [.merge entries, .fail f]

/-- How the fragment of a node comes about: by its custom lowering, from the source of
    the clone that it is, or by the rules for its kind. -/
def Node.recipe (settings : LoweringSettings) (catchall : Option Kind) (node : Node)
    (path : Path) : List Step :=
  if node.lowering ≠ .null then loweringSteps node.lowering
  else if node.parent ≠ .gap then [.inheritSource node.parent path]
  else kindSteps settings catchall node path

end SchemaGraph
