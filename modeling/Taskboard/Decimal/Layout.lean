import Taskboard.Decimal.Shortest

/-!
# Taskboard — how numbers are written

* `Style` — the choices of one way to write doubles;
* `Style.format` — a double in a style;
* `plain` — positional, whole numbers without a fraction;
* `json` — positional between 0.00001 and 10^16, else with an exponent, always marked as a
  fraction;
* `fixed` — a fixed number of places after the point.
-/

namespace Taskboard.Decimal

/-- A way to write doubles. `tie` chooses between two shortest decimals that are equally near.
`positional` says, from the place of the decimal point relative to the first digit, whether the
number is written without an exponent. -/
structure Style where
  tie         : Tie
  positional  : Int → Bool
  wholeEnding : String
  infinity    : String
  nan         : String

/-- `n` zeros. -/
def zeros (n : Nat) : List Char :=
  List.replicate n '0'

/-- Digits with the point after the first `point` of them, filled up with zeros on either side. -/
def positionalText (digits : List Char) (point : Int) (wholeEnding : String) : String :=
  if point ≤ 0 then
    "0." ++ String.ofList (zeros (-point).toNat ++ digits)
  else if (digits.length : Int) ≤ point then
    String.ofList (digits ++ zeros (point.toNat - digits.length)) ++ wholeEnding
  else
    String.ofList (digits.take point.toNat) ++ "." ++ String.ofList (digits.drop point.toNat)

/-- One digit before the point, and the power of ten with its sign. -/
def exponentText (digits : List Char) (power : Int) : String :=
  let fraction := if digits.length ≤ 1 then [] else '.' :: digits.drop 1
  let sign := if power < 0 then "-" else "+"
  String.ofList (digits.take 1 ++ fraction) ++ "e" ++ sign ++ power.natAbs.repr

/-- A positive number from its decimal. -/
def Style.formatDigits (style : Style) (d : Digits) : String :=
  let digits := digitChars d.value
  let point := (digits.length : Int) + d.exponent
  if style.positional point then positionalText digits point style.wholeEnding
  else exponentText digits (point - 1)

/-- A double in a style: its shortest decimal behind its sign. A zero keeps its sign. -/
def Style.format (style : Style) (x : Float) : String :=
  match Double.ofFloat x with
  | .nan => style.nan
  | .infinite negative => (if negative then "-" else "") ++ style.infinity
  | .finite negative mantissa exponent =>
    let digits := if mantissa = 0 then ⟨0, 0⟩ else shortest style.tie mantissa exponent
    (if negative then "-" else "") ++ style.formatDigits digits

/-- Plain decimals: never an exponent, and whole numbers have no fraction. Of two decimals that are
equally near the one further from zero is written. -/
def plain : Style :=
  { tie := .up
    positional := fun _ => true
    wholeEnding := ""
    infinity := "inf"
    nan := "NaN" }

/-- Numbers of JSON texts. Whole numbers end in `.0`; numbers below 0.00001 and from 10^16 on have
an exponent. Of two decimals that are equally near the one with the even last digit is written. -/
def json : Style :=
  { tie := .even
    positional := fun point => -5 < point && point ≤ 16
    wholeEnding := ".0"
    infinity := "inf"
    nan := "NaN" }

/-- A double rounded to `places` digits after the point, from its exact value, ties to even. -/
def fixed (places : Nat) (x : Float) : String :=
  match Double.ofFloat x with
  | .nan => "NaN"
  | .infinite negative => if negative then "-inf" else "inf"
  | .finite negative mantissa exponent =>
    let scaled := divPow2 (mantissa * Nat.pow 10 places) 1 (-exponent)
    let digits := digitChars (roundDiv scaled.1 scaled.2)
    let padded := zeros (places + 1 - digits.length) ++ digits
    let whole := padded.take (padded.length - places)
    let fraction := padded.drop (padded.length - places)
    (if negative then "-" else "") ++ String.ofList whole ++
      (if places = 0 then "" else "." ++ String.ofList fraction)

end Taskboard.Decimal
