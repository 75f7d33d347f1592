import SchemaGraph.Value

namespace SchemaGraph.Value

/-!
# What a value consists of

Some values can be gone through: texts by their characters, bytes by their numbers,
sequences by their elements and mappings by their keys.
-/

/-- What is met when a value is gone through. -/
def elements? : Value → Option (List Value)
  | .str s => some (s.toList.map fun c => .str (String.singleton c))
  | .foreign (.bytes s) => some (s.toUTF8.toList.map fun b => .int b.toNat)
  | .items _ xs => some xs
  | .dict es => some (Entries.keys es)
  | .loop true => some [.str "self"]
  | .loop false => some [.loop false]
  | _ => none

end SchemaGraph.Value
