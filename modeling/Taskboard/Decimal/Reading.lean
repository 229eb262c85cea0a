import Taskboard.Decimal.Binary64

/-!
# Taskboard — reading decimals

* `digitsValue` — the number that a run of digits writes;
* `decimalValue` — the double nearest to a decimal with an exponent;
* `readFloat?` — the number that a whole text writes.
-/

namespace Taskboard.Decimal

/-- The number written by decimal digits. -/
def digitsValue (cs : List Char) : Nat :=
  cs.foldl (fun n c => 10 * n + (c.toNat - '0'.toNat)) 0

/-- The double nearest to `digits * 10 ^ exponent` with a sign. The size is looked at first, so
that an exponent far outside the range of doubles costs nothing. -/
def decimalValue (negative : Bool) (digits : Nat) (exponent : Int) : Float :=
  let size := (digits.repr.length : Int) + exponent
  if digits = 0 ∨ size < -400 then nearest negative 0 1
  else if 400 < size then nearest negative (Nat.pow 10 400) 1
  else if 0 ≤ exponent then nearest negative (digits * Nat.pow 10 exponent.toNat) 1
  else nearest negative digits (Nat.pow 10 (-exponent).toNat)

/-- Reads a sign, if there is one. The flag tells a minus. -/
def readSign : List Char → Bool × List Char
  | '-' :: rest => (true, rest)
  | '+' :: rest => (false, rest)
  | cs => (false, cs)

/-- Reads a fraction after its point: the digits and what follows. Without a point there is
nothing to read. -/
def readFraction : List Char → List Char × List Char
  | '.' :: rest => (rest.takeWhile Char.isDigit, rest.dropWhile Char.isDigit)
  | cs => ([], cs)

/-- The exponent that makes up the rest of a text: absent, or an `e` with signed digits. -/
def readExponent? : List Char → Option Int
  | [] => some 0
  | c :: rest =>
    if c = 'e' ∨ c = 'E' then
      let signed := readSign rest
      if signed.2.isEmpty || !signed.2.all Char.isDigit then none
      else
        let power : Int := digitsValue signed.2
        some (if signed.1 then -power else power)
    else none

/-- The unsigned decimal that makes up a text: digits on at least one side of the point. -/
def readDecimal? (negative : Bool) (cs : List Char) : Option Float :=
  let whole := cs.takeWhile Char.isDigit
  let fraction := readFraction (cs.dropWhile Char.isDigit)
  if whole.isEmpty && fraction.1.isEmpty then none
  else do
    let power ← readExponent? fraction.2
    pure (decimalValue negative (digitsValue (whole ++ fraction.1)) (power - fraction.1.length))

/-- The number a text writes, blanks not allowed: a signed decimal, or in any case of letters
`inf`, `infinity` or `nan`. -/
def readFloat? (s : String) : Option Float :=
  let signed := readSign s.toList
  let word := (String.ofList signed.2).toLower
  if word = "inf" ∨ word = "infinity" then
    some (Float.ofBits (if signed.1 then 0xFFF0000000000000 else 0x7FF0000000000000))
  else if word = "nan" then some (Float.ofBits 0x7FF8000000000000)
  else readDecimal? signed.1 signed.2

end Taskboard.Decimal
