namespace SchemaGraph

/-!
# Kinds of schema nodes

The closed set of node kinds, their names, and for those that no document can express
the word by which a diagnostic speaks of them.
-/

/-- What a schema node describes. -/
inductive Kind where
  | string
  | number
  | boolean
  | bigint
  | symbol
  | undefined
  | null
  | any
  | unknown
  | never
  | void
  | date
  | array
  | object
  | union
  | intersection
  | tuple
  | record
  | map
  | set
  | enumeration
  | literal
  | file
  | transform
  | nullable
  | nonoptional
  | success
  | default
  | prefault
  | fallback
  | nan
  | templateLiteral
  | pipe
  | readonly
  | promise
  | optional
  | lazy
  | custom
deriving DecidableEq, Repr, Inhabited

namespace Kind

/-- All kinds, in the order of their declaration. -/
def all : List Kind :=
  [.string, .number, .boolean, .bigint, .symbol, .undefined, .null, .any, .unknown, .never,
    .void, .date, .array, .object, .union, .intersection, .tuple, .record, .map, .set,
    .enumeration, .literal, .file, .transform, .nullable, .nonoptional, .success, .default,
    .prefault, .fallback, .nan, .templateLiteral, .pipe, .readonly, .promise, .optional,
    .lazy, .custom]

/-- Every kind is listed. -/
theorem mem_all (k : Kind) : k ∈ all := by cases k <;> decide

/-- The name of a kind. -/
def name : Kind → String
  | .string => "string"
  | .number => "number"
  | .boolean => "boolean"
  | .bigint => "bigint"
  | .symbol => "symbol"
  | .undefined => "undefined"
  | .null => "null"
  | .any => "any"
  | .unknown => "unknown"
  | .never => "never"
  | .void => "void"
  | .date => "date"
  | .array => "array"
  | .object => "object"
  | .union => "union"
  | .intersection => "intersection"
  | .tuple => "tuple"
  | .record => "record"
  | .map => "map"
  | .set => "set"
  | .enumeration => "enum"
  | .literal => "literal"
  | .file => "file"
  | .transform => "transform"
  | .nullable => "nullable"
  | .nonoptional => "nonoptional"
  | .success => "success"
  | .default => "default"
  | .prefault => "prefault"
  | .fallback => "catch"
  | .nan => "nan"
  | .templateLiteral => "template_literal"
  | .pipe => "pipe"
  | .readonly => "readonly"
  | .promise => "promise"
  | .optional => "optional"
  | .lazy => "lazy"
  | .custom => "custom"

/-- The kind of a name. -/
def ofName? (s : String) : Option Kind := all.find? fun k => k.name = s

/-- No two kinds have the same name. -/
@[simp] theorem ofName?_name (k : Kind) : ofName? k.name = some k := by cases k <;> decide

/-- How a diagnostic speaks of a kind that no document can express. -/
def unrepresentableSubject? : Kind → Option String
  | .bigint => some "BigInt"
  | .symbol => some "Symbols"
  | .void => some "Void"
  | .date => some "Date"
  | .map => some "Map"
  | .set => some "Set"
  | .file => some "File"
  | .transform => some "Transforms"
  | .nan => some "NaN"
  | .custom => some "Custom types"
  | _ => none

end Kind

end SchemaGraph
