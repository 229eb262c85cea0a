import Taskboard.Decimal.Binary64

/-!
# Taskboard — the arithmetic of scores

Scores are computed in doubles. All the formulas are written over a class, so that they can also
be read over the rationals, where no rounding stands between a formula and its meaning.

* `Scalar` — numbers with the four operations, an order and a total order;
* `Scalar.ratio` — the constants: the quotient of two natural numbers;
* `Score` — doubles, with a mark for what has no result;
* instances for `Score` and `Rat`.
-/

namespace Taskboard

/-- Numbers that scores are computed in. `less` and `atMost` may leave numbers unrelated; `order`
does not. -/
class Scalar (R : Type) extends Add R, Sub R, Mul R, Div R where
  natural   : Nat → R
  magnitude : R → R
  less      : R → R → Bool
  atMost    : R → R → Bool
  order     : R → R → Ordering

namespace Scalar

variable {R : Type} [Scalar R]

/-- The quotient of two natural numbers. In doubles it is the one nearest to the quotient, as long
as both numbers are below 2^53. -/
def ratio (a b : Nat) : R :=
  natural a / natural b

/-- The sum of a list, from the left. -/
def sum (xs : List R) : R :=
  xs.foldl (· + ·) (natural 0)

/-- A number moved into the interval from 0 to 1. What compares with neither end stays. -/
def clamp (x : R) : R :=
  let lifted := if less x (natural 0) then natural 0 else x
  if less (natural 1) lifted then natural 1 else lifted

end Scalar

/-! ## Doubles -/

/-- A double. `undefined` marks the outcome of an operation without a result, such as the
difference of two infinities; it tells it from a NaN that was handed in. -/
structure Score where
  value     : Float
  undefined : Bool := false

namespace Score

/-- An operation on doubles. What is not a number is handed on, the first operand first. -/
def lift (op : Float → Float → Float) (x y : Score) : Score :=
  if x.value.isNaN then x
  else if y.value.isNaN then y
  else
    let z := op x.value y.value
    ⟨z, z.isNaN⟩

/-- The place of a double among all doubles: a negative zero before the positive one, a NaN behind
the positive infinity. -/
def totalKey (x : Float) : Int :=
  let bits := x.toBits.toNat
  if bits < Nat.pow 2 63 then bits else -1 - (bits - Nat.pow 2 63 : Nat)

/-- The place of a score. An undefined one stands before the negative infinity. -/
def key (x : Score) : Int :=
  if x.undefined then -(Nat.pow 2 63 : Int) else totalKey x.value

instance : Scalar Score where
  add := lift (· + ·)
  sub := lift (· - ·)
  mul := lift (· * ·)
  div := lift (· / ·)
  natural n := ⟨Decimal.ofNat n, false⟩
  magnitude x := { x with value := x.value.abs }
  less x y := decide (x.value < y.value)
  atMost x y := decide (x.value ≤ y.value)
  order x y := compare x.key y.key

end Score

/-! ## Rationals -/

instance : Scalar Rat where
  natural n := n
  magnitude x := if x < 0 then -x else x
  less x y := decide (x < y)
  atMost x y := decide (x ≤ y)
  order x y := if x < y then .lt else if x = y then .eq else .gt

end Taskboard
