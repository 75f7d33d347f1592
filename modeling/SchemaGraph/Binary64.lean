namespace SchemaGraph

/-!
# Binary64 — floating-point numbers as exact dyadic values

A finite number is `± significand · 2 ^ exponent`.  Nothing in this library
calculates with floating-point numbers; they are read, compared and written, and
for that the exact value is all there is to know.

* `Binary64.ofRatio`    — the number nearest to a quotient, a tie going to the even
  significand
* `Binary64.ofDecimal`  — the number nearest to `digits · 10 ^ exponent`
* `Number`              — integers and floating-point numbers under one exact order
-/

/-- A 64-bit floating-point number.  A finite one is canonical when its significand
    is below `2 ^ 53` and its exponent is `-1074` unless the significand is at
    least `2 ^ 52`.  Undefined numbers carry a mark that tells them apart. -/
inductive Binary64 where
  | nan (mark : Nat)
  | infinite (negative : Bool)
  | finite (negative : Bool) (significand : Nat) (exponent : Int)
deriving DecidableEq, Repr, Inhabited

namespace Binary64

/-- The exponent of the smallest positive number. -/
def leastExponent : Int := -1074

/-- The exponent of the numbers next to infinity. -/
def greatestExponent : Int := 971

/-- Zero, with its sign. -/
def zero (negative : Bool) : Binary64 := .finite negative 0 leastExponent

/-- Neither infinite nor finite. -/
def isNan : Binary64 → Bool
  | .nan _ => true
  | _ => false

/-- Neither infinite nor undefined. -/
def isFinite : Binary64 → Bool
  | .finite .. => true
  | _ => false

/-- A quotient of natural numbers rounded to a whole one; a half goes to the even
    neighbour. -/
def roundHalfEven (num den : Nat) : Nat :=
  let q := num / den
  let r := num % den
  if 2 * r < den then q
  else if den < 2 * r then q + 1
  else if q % 2 = 0 then q else q + 1

/-- `num / den` in units of `2 ^ exponent`, rounded. -/
def significandAt (num den : Nat) (exponent : Int) : Nat :=
  if exponent < 0 then roundHalfEven (num * Nat.pow 2 (-exponent).toNat) den
  else roundHalfEven num (den * Nat.pow 2 exponent.toNat)

/-- `num / den` in units of `2 ^ exponent`, without its fraction. -/
def wholeUnits (num den : Nat) (exponent : Int) : Nat :=
  if exponent < 0 then num * Nat.pow 2 (-exponent).toNat / den
  else num / (den * Nat.pow 2 exponent.toNat)

/-- The unit in which `num / den` has a significand of 53 bits, but never below the
    least exponent.  The difference of the two binary logarithms is off by one at
    most. -/
def unitExponent (num den : Nat) : Int :=
  let guess : Int := (Nat.log2 num : Int) - (Nat.log2 den : Int) - 52
  let exact :=
    if wholeUnits num den guess < Nat.pow 2 52 then guess - 1 else guess
  max exact leastExponent

/-- The number nearest to `num / den`, a tie going to the even significand.  What
    rounds beyond the largest finite number is infinite. -/
def ofRatio (negative : Bool) (num den : Nat) : Binary64 :=
  if num = 0 then zero negative
  else
    let unit := unitExponent num den
    let m := significandAt num den unit
    if m < Nat.pow 2 53 then
      if unit ≤ greatestExponent then .finite negative m unit else .infinite negative
    else if unit + 1 ≤ greatestExponent then .finite negative (Nat.pow 2 52) (unit + 1)
    else .infinite negative

/-- The number nearest to `digits · 10 ^ exponent`.  Exponents far outside the range
    are decided by the size of the number alone, so that no huge power is formed. -/
def ofDecimal (negative : Bool) (digits : Nat) (exponent : Int) : Binary64 :=
  if digits = 0 then zero negative
  else
    let magnitude := exponent + ((Nat.toDigits 10 digits).length : Int)
    if 400 < magnitude then .infinite negative
    else if magnitude < -400 then zero negative
    else if exponent < 0 then ofRatio negative digits (Nat.pow 10 (-exponent).toNat)
    else ofRatio negative (digits * Nat.pow 10 exponent.toNat) 1

/-- The significand with its sign. -/
def signed (negative : Bool) (significand : Nat) : Int :=
  if negative then -(significand : Int) else significand

end Binary64

/-- Integers and floating-point numbers. -/
inductive Number where
  | int (i : Int)
  | float (x : Binary64)
deriving DecidableEq, Repr, Inhabited

namespace Number

/-- The value as `m · 2 ^ e`, for all but the infinities and the undefined number. -/
def dyadic? : Number → Option (Int × Int)
  | .int i => some (i, 0)
  | .float (.finite negative m e) => some (Binary64.signed negative m, e)
  | .float _ => none

/-- Whether the number is undefined. -/
def isNan : Number → Bool
  | .int _ => false
  | .float x => x.isNan

/-- Exact order of two dyadic values, both scaled to the smaller exponent. -/
def dyadicLe (a b : Int × Int) : Bool :=
  let e := min a.2 b.2
  a.1 * Int.pow 2 (a.2 - e).toNat ≤ b.1 * Int.pow 2 (b.2 - e).toNat

/-- `a ≤ b`, exactly: no operand is rounded.  The undefined number is not comparable. -/
def le (a b : Number) : Bool :=
  match a.dyadic?, b.dyadic? with
  | some x, some y => dyadicLe x y
  | some _, none => b = .float (.infinite false)
  | none, some _ => a = .float (.infinite true)
  | none, none =>
    !a.isNan && !b.isNan &&
      (a = .float (.infinite true) || b = .float (.infinite false))

/-- `a = b`, exactly; the undefined number equals nothing. -/
def eq (a b : Number) : Bool := a.le b && b.le a

/-- The whole number that a number is equal to. -/
def int? : Number → Option Int
  | .int i => some i
  | .float (.finite negative m e) =>
    if 0 ≤ e then some (Binary64.signed negative (m * Nat.pow 2 e.toNat))
    else
      let unit := Nat.pow 2 (-e).toNat
      if m % unit = 0 then some (Binary64.signed negative (m / unit)) else none
  | .float _ => none

end Number

end SchemaGraph
