namespace SchemaGraph.Yaml

/-!
# Faults of YAML texts

A text may break the rules of YAML at a line, or hold characters that no text may hold.  A
text that keeps all rules may still name something that does not exist: a day without a
calendar, a number without digits, a character beyond the last one.
-/

/-- Something that a text names and that does not exist. -/
inductive OutOfRange where
  | year (n : Nat)
  | month
  | day
  | hour
  | minute
  | second
  /-- An offset from universal time of a day or more, in seconds. -/
  | offset (seconds : Int)
  /-- A number without digits, to the given base. -/
  | noDigits (base : Nat)
  /-- A number with more decimal digits than are read. -/
  | tooManyDigits (count : Nat)
  | character
  /-- A code that no number of characters could reach. -/
  | code
deriving DecidableEq, Repr, Inhabited

/-- How many digits of a decimal number are read. -/
def digitLimit : Nat := 4300

/-- A span of time in days and seconds. -/
def spanText (seconds : Int) : String :=
  let days := seconds.fdiv 86400
  let rest := seconds.fmod 86400
  let parts := (if days = 0 then [] else ["days=" ++ toString days])
    ++ (if rest = 0 then [] else ["seconds=" ++ toString rest])
  "datetime.timedelta(" ++ (if parts.isEmpty then "0" else ", ".intercalate parts) ++ ")"

namespace OutOfRange

/-- The class of the failure. -/
def label : OutOfRange → String
  | .code => "OverflowError"
  | _ => "ValueError"

/-- The sentence that reports it. -/
def message : OutOfRange → String
  | .year n => "year " ++ toString n ++ " is out of range"
  | .month => "month must be in 1..12"
  | .day => "day is out of range for month"
  | .hour => "hour must be in 0..23"
  | .minute => "minute must be in 0..59"
  | .second => "second must be in 0..59"
  | .offset seconds =>
    "offset must be a timedelta strictly between -timedelta(hours=24) and timedelta(hours=24), not "
      ++ spanText seconds ++ "."
  | .noDigits base => "invalid literal for int() with base " ++ toString base ++ ": ''"
  | .tooManyDigits count =>
    "Exceeds the limit (" ++ toString digitLimit
      ++ " digits) for integer string conversion: value has " ++ toString count
      ++ " digits; use sys.set_int_max_str_digits() to increase the limit"
  | .character => "chr() arg not in range(0x110000)"
  | .code => "Python int too large to convert to C int"

end OutOfRange

/-- Why a text has no value. -/
inductive Fault where
  /-- The text breaks a rule at a line, counted from zero. -/
  | broken (line : Nat)
  /-- The text holds a character that no text may hold. -/
  | unreadable
  | outOfRange (what : OutOfRange)
deriving DecidableEq, Repr, Inhabited

end SchemaGraph.Yaml
