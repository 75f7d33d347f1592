import SchemaGraph.Failure

namespace SchemaGraph

/-!
# Events

What happens is recorded as events in order: a level, a name and fields.

`LogLevel.threshold` is the number of the lowest level that is let through, by its name in
any case; a threshold of zero lets everything through.
-/

/-- How much an event matters. -/
inductive LogLevel where
  | debug
  | info
  | error
deriving DecidableEq, Repr, Inhabited

namespace LogLevel

/-- The word for a level. -/
def name : LogLevel → String
  | .debug => "debug"
  | .info => "info"
  | .error => "error"

/-- The number of a level. -/
def number : LogLevel → Nat
  | .debug => 10
  | .info => 20
  | .error => 40

/-- The names under which thresholds are known. -/
def thresholds : List (String × Nat) :=
  [("NOTSET", 0), ("DEBUG", 10), ("INFO", 20), ("WARN", 30), ("WARNING", 30), ("ERROR", 40),
    ("FATAL", 50), ("CRITICAL", 50)]

/-- The threshold of a name, in any case. -/
def threshold (given : String) : Except Failure Nat :=
  match thresholds.find? fun (name, _) => Text.uppercases given name with
  | some (_, n) => .ok n
  | none => .error (.unknownLogLevel given)

end LogLevel

/-- Something that happened. -/
structure Event where
  level : LogLevel
  name : String
  fields : List (String × Value)
deriving DecidableEq, Repr, Inhabited

/-- A text, or `null` where there is none. -/
def textOrNull : Option String → Value
  | some s => .str s
  | none => .null

/-- The event that a report leaves when it is made; a report without details leaves
    none. -/
def Report.event? (r : Report) : Option Event :=
  if r.details.isTruthy then
    some ⟨.error, "jsonshape_error",
      [("error_type", .str r.kind.name), ("user_message", r.shown),
        ("internal_details", r.details)]⟩
  else none

/-- The event that a failure leaves when it comes about. -/
def Failure.event? (f : Failure) : Option Event :=
  match f with
  | .reported _ => none
  | _ => f.report?.bind Report.event?

end SchemaGraph
