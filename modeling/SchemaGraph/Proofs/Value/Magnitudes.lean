import Mathlib.Algebra.Order.Field.Power
import Mathlib.Algebra.Order.Ring.Rat
import SchemaGraph.Value

namespace SchemaGraph

/-!
# Numbers as rationals

Integers and finite floating-point numbers are compared by their exact values: one is a whole
number of units, the units are powers of two, and both sides are brought to the smaller unit.

* `Number.rational?` — the exact value of a number, `Value.rational?` — of a value that is one
* `Number.le_iff`    — numbers are in order when their values are
* `Number.eq_iff`    — numbers are equal when their values are
-/

/-- The value of a significand in units of a power of two. -/
def dyadicValue (a : Int × Int) : ℚ := a.1 * 2 ^ a.2

namespace Number

/-- The exact value of a number; the infinities and the undefined number have none. -/
def rational? (x : Number) : Option ℚ := x.dyadic?.map dyadicValue

/-- A dyadic value in units of a smaller power of two. -/
theorem dyadicValue_eq (a : Int × Int) {e : Int} (h : e ≤ a.2) :
    dyadicValue a = ((a.1 * Int.pow 2 (a.2 - e).toNat : Int) : ℚ) * 2 ^ e := by
  have hpower : (2 : ℚ) ^ a.2 = 2 ^ (a.2 - e).toNat * 2 ^ e := by
    rw [← zpow_natCast, ← zpow_add₀ two_ne_zero]
    congr 1
    omega
  have hcast : ((Int.pow 2 (a.2 - e).toNat : Int) : ℚ) = 2 ^ (a.2 - e).toNat :=
    Int.cast_pow 2 _
  rw [dyadicValue, hpower, Int.cast_mul, hcast, mul_assoc]

/-- Scaled to a common exponent, dyadic values compare as they are. -/
theorem dyadicLe_iff (a b : Int × Int) :
    dyadicLe a b = true ↔ dyadicValue a ≤ dyadicValue b := by
  have hunit : (0 : ℚ) < 2 ^ min a.2 b.2 := zpow_pos two_pos _
  rw [dyadicValue_eq a (min_le_left a.2 b.2), dyadicValue_eq b (min_le_right a.2 b.2),
    mul_le_mul_iff_left₀ hunit, Int.cast_le]
  exact decide_eq_true_iff

variable {x y : Number} {p q : ℚ}

/-- The order of numbers is that of their values. -/
theorem le_iff (hx : x.rational? = some p) (hy : y.rational? = some q) :
    x.le y = true ↔ p ≤ q := by
  obtain ⟨a, ha, rfl⟩ := Option.map_eq_some_iff.mp hx
  obtain ⟨b, hb, rfl⟩ := Option.map_eq_some_iff.mp hy
  unfold le
  rw [ha, hb]
  exact dyadicLe_iff a b

/-- Numbers are equal when their values are. -/
theorem eq_iff (hx : x.rational? = some p) (hy : y.rational? = some q) :
    x.eq y = true ↔ p = q := by
  rw [eq, Bool.and_eq_true, le_iff hx hy, le_iff hy hx]
  exact le_antisymm_iff.symm

end Number

/-- The exact value of a value that is a finite number. -/
def Value.rational? (v : Value) : Option ℚ := v.number?.bind Number.rational?

end SchemaGraph
