import Taskboard.Decimal.Binary64

/-!
# Taskboard — the shortest decimal of a double

A decimal stands for a double when it lies in the interval of numbers that round to it. Of all such
decimals the shortest is written, and of several shortest ones the nearest. The double may lie
halfway between two of these.

* `Digits` — a natural number times a power of ten;
* `log10Div` — the place of the leading digit of a fraction;
* `shortest` — the digits of a positive dyadic number.
-/

namespace Taskboard.Decimal

/-- The decimal `value * 10 ^ exponent`. -/
structure Digits where
  value    : Nat
  exponent : Int
  deriving DecidableEq, Repr

/-- The decimal digits of a natural number. -/
def digitChars (n : Nat) : List Char :=
  n.repr.toList

/-- The exponent of the largest power of ten that is at most `num / den`, both positive. -/
def log10Div (num den : Nat) : Int :=
  if den ≤ num then ((digitChars (num / den)).length : Int) - 1
  else -((digitChars ((den - 1) / num)).length : Int)

/-- The same decimal without trailing zeros; `fuel` bounds the zeros taken off. -/
def Digits.strip : Nat → Digits → Digits
  | 0, d => d
  | fuel + 1, d =>
    if d.value ≠ 0 ∧ d.value % 10 = 0 then strip fuel ⟨d.value / 10, d.exponent + 1⟩ else d

/-- The numbers that round to one double: those between `low / den` and `high / den`, the ends
included when `closed`. The double itself is `mid / den`. -/
structure Interval where
  low    : Nat
  mid    : Nat
  high   : Nat
  den    : Nat
  closed : Bool

/-- The interval of `mantissa * 2 ^ exponent`. It reaches half a step to each side; below a power
of two the step is half as wide, except at the foot of the range. -/
def Interval.ofDouble (mantissa : Nat) (exponent : Int) : Interval :=
  let below := if mantissa = Nat.pow 2 52 ∧ -1074 < exponent then 1 else 2
  let up := Nat.pow 2 (exponent - 2).toNat
  { low := (4 * mantissa - below) * up
    mid := 4 * mantissa * up
    high := (4 * mantissa + 2) * up
    den := Nat.pow 2 (2 - exponent).toNat
    closed := mantissa % 2 == 0 }

/-- Whether the decimal lies in the interval. -/
def Interval.holds (i : Interval) (d : Digits) : Bool :=
  let decimal := d.value * Nat.pow 10 d.exponent.toNat * i.den
  let down := Nat.pow 10 (-d.exponent).toNat
  if i.closed then i.low * down ≤ decimal && decimal ≤ i.high * down
  else i.low * down < decimal && decimal < i.high * down

/-- The decimal with last place `10 ^ place` that stands for the interval's double, if there is
one: a neighbour of the double on that grid, the nearer one if both qualify. -/
def Interval.onGrid? (i : Interval) (tie : Tie) (place : Int) : Option Digits :=
  -- the double as a fraction, counted in units of the last place
  let num := i.mid * Nat.pow 10 (-place).toNat
  let den := i.den * Nat.pow 10 place.toNat
  let nearer : Digits := ⟨roundDivBy tie num den, place⟩
  let floor : Digits := ⟨num / den, place⟩
  let ceiling : Digits := ⟨num / den + 1, place⟩
  [nearer, floor, ceiling].find? i.holds

/-- The shortest decimal of the double `mantissa * 2 ^ exponent`, the mantissa being positive.
Seventeen digits always suffice. -/
def shortest (tie : Tie) (mantissa : Nat) (exponent : Int) : Digits :=
  let i := Interval.ofDouble mantissa exponent
  let top := log10Div i.mid i.den
  -- the grids get finer, so the first one that has a decimal has the shortest
  match (List.range 17).findSome? fun (k : Nat) => i.onGrid? tie (top - k) with
  | some d => d.strip 17
  -- not met: with seventeen digits the nearer neighbour always qualifies
  | none => ⟨roundDivBy tie i.mid i.den, 0⟩

end Taskboard.Decimal
