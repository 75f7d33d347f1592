import SchemaGraph.Value.Display

namespace SchemaGraph

/-!
# Descent paths

A path names the keywords, property names and indexes that lead from a root to a place
below it.  A path that was made by hand may hold any value as a step.
-/

/-- A step of a path. -/
inductive PathItem where
  | name (s : String)
  | index (i : Int)
  | other (v : Value)
deriving DecidableEq, Repr, Inhabited

/-- Steps from the root downward. -/
abbrev Path := List PathItem

instance : Coe String PathItem := ⟨PathItem.name⟩

namespace PathItem

/-- A value as a step. -/
def ofValue : Value → PathItem
  | .str s => .name s
  | .int i => .index i
  | v => .other v

/-- A step as a value. -/
def toValue : PathItem → Value
  | .name s => .str s
  | .index i => .int i
  | .other v => v

/-- A step as it is written in a path. -/
def text (item : PathItem) : String := item.toValue.plain

/-- A value that became a step is the value of that step. -/
@[simp] theorem toValue_ofValue (v : Value) : (ofValue v).toValue = v := by
  cases v <;> rfl

end PathItem

/-- Steps behind the sign of the root, separated by slashes.  The steps are written as
    they are: a slash inside a name is not marked. -/
def Path.text (path : Path) : String :=
  "/".intercalate ("#" :: path.map PathItem.text)

end SchemaGraph
