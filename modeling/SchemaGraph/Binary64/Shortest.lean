import SchemaGraph.Binary64

namespace SchemaGraph

namespace Binary64

/-!
# Shortest decimal text of a floating-point number

Of all decimals that are read back as the given number, `shortest` picks one with the
fewest digits, and of those the one nearest to the number.  It looks at the number's
two neighbours on the grid of one-digit decimals, then of two-digit decimals, and so
on; the grid of 17 digits always has a hit.

`text` lays the digits out: positional notation where the scientific exponent lies
between `-4` and `15`, scientific notation elsewhere.
-/

/-- `a · 2 ^ p` compared with `b · 10 ^ q`. -/
def compareScaled (a : Nat) (p : Int) (b : Nat) (q : Int) : Ordering :=
  compare (a * Nat.pow 2 p.toNat * Nat.pow 10 (-q).toNat)
    (b * Nat.pow 10 q.toNat * Nat.pow 2 (-p).toNat)

/-- The decimals that are read back as `m · 2 ^ e`, in units of `2 ^ (e - 2)`: the ends
    belong to the interval exactly when the significand is even. -/
structure Interval where
  low : Nat
  middle : Nat
  high : Nat
  unit : Int
  closed : Bool

/-- Half the gap to either neighbour; the gap below a power of two is half as wide. -/
def interval (m : Nat) (e : Int) : Interval where
  low := if m = Nat.pow 2 52 ∧ leastExponent < e then 4 * m - 1 else 4 * m - 2
  middle := 4 * m
  high := 4 * m + 2
  unit := e - 2
  closed := m % 2 = 0

/-- Whether `c · 10 ^ k` is read back as the number. -/
def Interval.contains (i : Interval) (c : Nat) (k : Int) : Bool :=
  let below := compareScaled i.low i.unit c k
  let above := compareScaled i.high i.unit c k
  if i.closed then below.isLE && above.isGE else below.isLT && above.isGT

/-- `m · 2 ^ e / 10 ^ k` without its fraction. -/
def gridFloor (m : Nat) (e k : Int) : Nat :=
  m * Nat.pow 2 e.toNat * Nat.pow 10 (-k).toNat / (Nat.pow 10 k.toNat * Nat.pow 2 (-e).toNat)

/-- Of `c` and `c + 1` the one nearer to the middle; a tie goes to the even one. -/
def Interval.nearer (i : Interval) (c : Nat) (k : Int) : Nat :=
  match compareScaled (2 * i.middle) i.unit (2 * c + 1) k with
  | .lt => c
  | .gt => c + 1
  | .eq => if c % 2 = 0 then c else c + 1

/-- The hit of the grid `10 ^ k`, if there is one. -/
def Interval.onGrid? (i : Interval) (k : Int) : Option (Nat × Int) :=
  let c := gridFloor i.middle i.unit k
  match 0 < c && i.contains c k, i.contains (c + 1) k with
  | true, true => some (i.nearer c k, k)
  | true, false => some (c, k)
  | false, true => some (c + 1, k)
  | false, false => none

/-- The number of digits before the decimal point of a positive `m · 2 ^ e`; zero or
    negative when the number is below one tenth. -/
def pointPosition (m : Nat) (e : Int) : Int :=
  let num := m * Nat.pow 2 e.toNat
  let den := Nat.pow 2 (-e).toNat
  if den ≤ num then ((Nat.toDigits 10 (num / den)).length : Int)
  else
    let ceiling := (den + num - 1) / num
    let zeros := if ceiling ≤ 1 then 0 else (Nat.toDigits 10 (ceiling - 1)).length
    1 - (zeros : Int)

/-- The digits of a positive `m · 2 ^ e` and the power of ten that they count. -/
def shortest (m : Nat) (e : Int) : Nat × Int :=
  let i := interval m e
  let point := pointPosition m e
  ((List.range 17).findSome? fun n => i.onGrid? (point - (n + 1 : Nat))).getD (m, e)

/-- How a number is laid out. -/
structure Layout where
  /-- The smallest scientific exponent written positionally. -/
  leastPositional : Int
  /-- The largest scientific exponent written positionally. -/
  greatestPositional : Int
  /-- The least number of digits of a written exponent. -/
  exponentDigits : Nat

/-- Positional from `1e-4` to below `1e16`; exponents have a sign and two digits. -/
def layout : Layout := ⟨-4, 15, 2⟩

/-- Zeros in front, up to the given width. -/
def padLeft (width : Nat) (cs : List Char) : List Char :=
  List.replicate (width - cs.length) '0' ++ cs

/-- Digits without the zeros at their end, which count for nothing behind the point. -/
def dropTrailingZeros (cs : List Char) : List Char :=
  (cs.reverse.dropWhile (· == '0')).reverse

/-- Scientific notation: a digit, the others behind a point, and the exponent. -/
def scientific (ds : List Char) (exponent : Int) : List Char :=
  let mantissa := match ds with
    | [] => []
    | [d] => [d]
    | d :: rest => d :: '.' :: rest
  let sign := if exponent < 0 then '-' else '+'
  mantissa ++ 'e' :: sign :: padLeft layout.exponentDigits (Nat.toDigits 10 exponent.natAbs)

/-- Positional notation, with at least one digit on either side of the point. -/
def positional (ds : List Char) (point : Int) : List Char :=
  if point ≤ 0 then '0' :: '.' :: List.replicate (-point).toNat '0' ++ ds
  else
    let n := point.toNat
    let whole := ds.take n ++ List.replicate (n - ds.length) '0'
    let fraction := ds.drop n
    whole ++ '.' :: (if fraction.isEmpty then ['0'] else fraction)

/-- The digits of a finite number with its sign. -/
def finiteText (negative : Bool) (m : Nat) (e : Int) : List Char :=
  let sign := if negative then ['-'] else []
  if m = 0 then sign ++ ['0', '.', '0']
  else
    let (digits, k) := shortest m e
    let all := Nat.toDigits 10 digits
    let point := k + (all.length : Int)
    let ds := dropTrailingZeros all
    sign ++
      if layout.leastPositional ≤ point - 1 ∧ point - 1 ≤ layout.greatestPositional then
        positional ds point
      else scientific ds (point - 1)

/-- The shortest decimal that is read back as the number. -/
def text : Binary64 → String
  | .nan _ => "nan"
  | .infinite false => "inf"
  | .infinite true => "-inf"
  | .finite negative m e => String.ofList (finiteText negative m e)

end Binary64

end SchemaGraph
