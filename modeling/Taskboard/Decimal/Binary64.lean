/-!
# Taskboard — doubles as exact numbers

A finite double is a natural mantissa times a power of two. These definitions move between the two
views in exact arithmetic.

* `Double` — what a double is: not a number, infinite, or a signed dyadic number;
* `Double.ofFloat` — the view of a double;
* `Tie` — where a value goes that lies halfway between two neighbours;
* `roundDivBy`, `roundDiv` — a quotient rounded to the nearest natural number; ties to even in the
  second;
* `nearest` — the double nearest to a fraction, ties to even.
-/

namespace Taskboard.Decimal

/-- The value of a double. A finite one is `mantissa * 2 ^ exponent` with its sign. -/
inductive Double where
  | nan
  | infinite (negative : Bool)
  | finite (negative : Bool) (mantissa : Nat) (exponent : Int)
  deriving DecidableEq, Repr

/-- Reads sign, exponent and fraction off the 64 bits of a double. -/
def Double.ofFloat (x : Float) : Double :=
  let bits := x.toBits.toNat
  let negative := bits / Nat.pow 2 63 % 2 == 1
  let field : Nat := bits / Nat.pow 2 52 % Nat.pow 2 11
  let fraction : Nat := bits % Nat.pow 2 52
  if field = 2047 then
    if fraction = 0 then .infinite negative else .nan
  else if field = 0 then .finite negative fraction (-1074)
  else .finite negative (Nat.pow 2 52 + fraction) ((field : Int) - 1075)

/-- Where a value goes that lies halfway between two neighbours: to the even one, or to the
greater one. -/
inductive Tie where
  | even
  | up
  deriving DecidableEq, Repr

/-- Whether a value halfway behind `n` goes on to `n + 1`. -/
def Tie.rises (tie : Tie) (n : Nat) : Bool :=
  match tie with
  | .even => n % 2 == 1
  | .up => true

/-- `num / den` rounded to the nearest natural number. -/
def roundDivBy (tie : Tie) (num den : Nat) : Nat :=
  let quotient := num / den
  let twice := 2 * (num % den)
  if den < twice || (twice == den && tie.rises quotient) then quotient + 1 else quotient

/-- `num / den` rounded to the nearest natural number; a tie goes to the even neighbour. -/
def roundDiv (num den : Nat) : Nat :=
  roundDivBy .even num den

/-- `n * 2 ^ k` for a natural numerator and `1 / 2 ^ -k` for a denominator: the fraction
`num / den` divided by `2 ^ k`. -/
def divPow2 (num den : Nat) (k : Int) : Nat × Nat :=
  if 0 ≤ k then (num, den * Nat.pow 2 k.toNat) else (num * Nat.pow 2 (-k).toNat, den)

/-- The exponent of the largest power of two that is at most `num / den`, both positive. -/
def log2Div (num den : Nat) : Int :=
  let guess : Int := (num.log2 : Int) - den.log2
  let scaled := divPow2 num den guess
  if scaled.1 < scaled.2 then guess - 1 else guess

/-- The bits of the double nearest to the positive fraction `num / den`. The mantissa has 53
binary digits, fewer below the normal range; a mantissa that rounds up to the next power of two
carries into the exponent field, and what lies beyond the largest double is infinite. -/
def nearestBits (num den : Nat) : Nat :=
  let exponent := max (log2Div num den - 52) (-1074)
  let scaled := divPow2 num den exponent
  -- the leading one of a normal mantissa counts one into the exponent field
  min ((exponent + 1074).toNat * Nat.pow 2 52 + roundDiv scaled.1 scaled.2)
    (2047 * Nat.pow 2 52)

/-- The double nearest to `num / den` with the given sign; zero keeps its sign. -/
def nearest (negative : Bool) (num den : Nat) : Float :=
  let bits := if num = 0 then 0 else nearestBits num den
  Float.ofBits (UInt64.ofNat (if negative then Nat.pow 2 63 + bits else bits))

/-- The double nearest to a natural number. -/
def ofNat (n : Nat) : Float :=
  nearest false n 1

end Taskboard.Decimal
