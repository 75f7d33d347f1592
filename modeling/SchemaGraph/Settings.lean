namespace SchemaGraph

/-!
# Settings

The closed choices that a conversion offers, and the records that hold them: settings of
the lowering of nodes, of the emission of documents, and of a whole export.  An export
also has a template for the addresses of documents, which must hold the place where the
id goes.
-/

/-- A closed set of alternatives with their words. -/
class Choice (α : Type) where
  all : List α
  word : α → String

/-- The dialect of the emitted documents. -/
inductive Target where
  | draft2020
  | draft7
deriving DecidableEq, Repr, Inhabited

/-- What happens to nodes that no document can express. -/
inductive Unrepresentable where
  | reject
  | accept
deriving DecidableEq, Repr, Inhabited

/-- Which side of a transforming node is described. -/
inductive Side where
  | output
  | input
deriving DecidableEq, Repr, Inhabited

/-- What happens to cyclic graphs. -/
inductive CyclePolicy where
  | refer
  | reject
deriving DecidableEq, Repr, Inhabited

/-- What happens to nodes that are reached more than once. -/
inductive ReusePolicy where
  | inline
  | refer
deriving DecidableEq, Repr, Inhabited

instance : Choice Target where
  all := [.draft2020, .draft7]
  word
    | .draft2020 => "draft-2020-12"
    | .draft7 => "draft-7"

instance : Choice Unrepresentable where
  all := [.reject, .accept]
  word
    | .reject => "throw"
    | .accept => "any"

instance : Choice Side where
  all := [.output, .input]
  word
    | .output => "output"
    | .input => "input"

instance : Choice CyclePolicy where
  all := [.refer, .reject]
  word
    | .refer => "ref"
    | .reject => "throw"

instance : Choice ReusePolicy where
  all := [.inline, .refer]
  word
    | .inline => "inline"
    | .refer => "ref"

namespace Target

/-- The address that a document names as its dialect. -/
def schemaUri : Target → String
  | .draft2020 => "https://json-schema.org/draft/2020-12/schema"
  | .draft7 => "http://json-schema.org/draft-07/schema#"

/-- The keyword that holds a document's definitions. -/
def definitionsKeyword : Target → String
  | .draft2020 => "$defs"
  | .draft7 => "definitions"

end Target

/-! ### Address templates -/

/-- Whether the place of the id occurs among the characters. -/
def hasPlaceholder : List Char → Bool
  | '\x7b' :: 'i' :: 'd' :: '\x7d' :: _ => true
  | _ :: rest => hasPlaceholder rest
  | [] => false

/-- Every place of the id, from left to right, filled in. -/
def fillPlaceholders (id : List Char) : List Char → List Char
  | '\x7b' :: 'i' :: 'd' :: '\x7d' :: rest => id ++ fillPlaceholders id rest
  | c :: rest => c :: fillPlaceholders id rest
  | [] => []

/-- A template for addresses that has a place for the id. -/
structure UriTemplate where
  text : String
  holdsPlace : hasPlaceholder text.toList = true
deriving Repr

namespace UriTemplate

/-- The template that is nothing but the place of the id. -/
def bare : UriTemplate := ⟨"\x7bid\x7d", by decide⟩

instance : Inhabited UriTemplate := ⟨bare⟩

/-- The address of an id. -/
def render (template : UriTemplate) (id : String) : String :=
  String.ofList (fillPlaceholders id.toList template.text.toList)

end UriTemplate

/-! ### Records of settings -/

/-- How nodes are lowered. -/
structure LoweringSettings where
  target : Target := .draft2020
  unrepresentable : Unrepresentable := .reject
  side : Side := .output
deriving DecidableEq, Repr, Inhabited

/-- How documents are emitted. -/
structure EmissionSettings where
  cycles : CyclePolicy := .refer
  reused : ReusePolicy := .inline
deriving DecidableEq, Repr, Inhabited

/-- All settings of an export. -/
structure ExportSettings where
  lowering : LoweringSettings := {}
  emission : EmissionSettings := {}
  uriTemplate : UriTemplate := .bare
deriving Repr

instance : Inhabited ExportSettings := ⟨{}⟩

end SchemaGraph
