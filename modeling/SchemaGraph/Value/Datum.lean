import SchemaGraph.Value

namespace SchemaGraph

/-!
# Data of files

A parser makes data of a text: values, lists and mappings.  Unlike a value, a datum may be a
text with codes that are no characters.

* `Datum`   — what a parser makes of a text
* `Options` — the contents of a mapping in a file, in insertion order
-/

/-- Whether all codes are those of characters. -/
def areCharacters (codes : List Nat) : Bool := codes.all fun n => n.isValidChar

/-- What has no parts in a file, and may be a key there. -/
inductive Atom where
  | value (v : Value)
  /-- A text with codes that are no characters. -/
  | illFormed (codes : List Nat) (h : areCharacters codes = false)
deriving DecidableEq, Repr

/-- What a parser makes of a text. -/
inductive Datum where
  | atom (a : Atom)
  | list (elements : List Datum)
  | dict (options : List (Atom × Datum))

/-- The contents of a mapping in a file, in insertion order. -/
abbrev Options := List (Atom × Datum)

namespace Atom

/-- An atom in the form that stands for all keys equal to it. -/
def canonical : Atom → Atom
  | .value v => .value v.canonical
  | a => a

/-- The text of codes, whether or not all of them are characters. -/
def ofCodes (codes : List Nat) : Atom :=
  if h : areCharacters codes = true then .value (.str (String.ofList (codes.map Char.ofNat)))
  else .illFormed codes (Bool.eq_false_iff.mpr h)

/-- Whether an atom is a text with codes that are no characters. -/
def isIllFormed : Atom → Bool
  | .illFormed .. => true
  | .value _ => false

end Atom

namespace Options

/-- The datum under a name. -/
def get? (name : String) : Options → Option Datum
  | [] => none
  | (k, d) :: rest => if k = .value (.str name) then some d else get? name rest

/-- A key takes a new datum where it stands; a new key goes to the end. -/
def set (key : Atom) (datum : Datum) : Options → Options
  | [] => [(key, datum)]
  | (k, d) :: rest =>
    if k.canonical = key.canonical then (k, datum) :: rest else (k, d) :: set key datum rest

/-- A mapping with repeated keys resolved: the place of the first, the datum of the last. -/
def ofList (entries : List (Atom × Datum)) : Options :=
  entries.foldl (fun acc e => set e.1 e.2 acc) []

/-- Entries of values as they would stand in a file. -/
def ofEntries (entries : Entries) : Options :=
  entries.map fun e => (.value e.1, .atom (.value e.2))

end Options

namespace Datum

/-- A value as a datum. -/
abbrev value (v : Value) : Datum := .atom (.value v)

/-- Whether a datum counts as true where a truth value is asked for. -/
def isTruthy : Datum → Bool
  | .atom (.value v) => v.isTruthy
  | .atom (.illFormed ..) => true
  | .list elements => !elements.isEmpty
  | .dict options => !options.isEmpty

/-- The options that a datum holds if it is a mapping. -/
def options? : Datum → Option Options
  | .dict options => some options
  | .atom (.value (.dict entries)) => some (.ofEntries entries)
  | .atom (.value (.loop true)) => some (.ofEntries [(.str "self", .loop true)])
  | _ => none

end Datum

end SchemaGraph
