import Taskboard.Decimal.Reading
import Taskboard.Text.Hexadecimal
import Taskboard.Toml.Quoted
import Taskboard.Toml.Value

/-!
# Taskboard — numbers and times of TOML

* `digitRun` — digits, with single underscores between them;
* `readNumber?` — an integer of 64 bits in base ten, sixteen, eight or two, or a double;
* `readTime?` — a date, a time of day, or both; what is read is checked against the calendar and
  kept as it is written.
-/

namespace Taskboard.Toml

/-! ## Digits -/

/-- Digits with single underscores between them, behind a first digit, and what follows. -/
def digitRun (isDigit : Char → Bool) : List Char → List Char × List Char
  | '_' :: c :: rest =>
    if isDigit c then
      let run := digitRun isDigit rest
      (c :: run.1, run.2)
    else ([], '_' :: c :: rest)
  | c :: rest =>
    if isDigit c then
      let run := digitRun isDigit rest
      (c :: run.1, run.2)
    else ([], c :: rest)
  | [] => ([], [])

/-- Reads digits, of which there must be one at least. -/
def readDigits? (isDigit : Char → Bool) : Reader (List Char)
  | c :: rest =>
    if isDigit c then
      let run := digitRun isDigit rest
      some (c :: run.1, run.2)
    else none
  | [] => none

/-- Reads digits of which a zero stands alone. -/
def readWhole? : Reader (List Char)
  | '0' :: rest => some (['0'], rest)
  | cs => readDigits? Char.isDigit cs

/-! ## Numbers -/

/-- An integer of 64 bits. -/
def integer? (n : Int) : Option Toml :=
  if -(Nat.pow 2 63 : Int) ≤ n ∧ n < Nat.pow 2 63 then some (.integer n) else none

/-- A double. The positive infinity is only written by its name. -/
def real? (x : Float) : Option Toml :=
  if x == Float.ofBits 0x7FF0000000000000 then none else some (.real x)

/-- Whether a character is a digit in a base. -/
def isDigitIn (base : Nat) (c : Char) : Bool :=
  (Text.hexDigitValue? c).any fun d => d < base

/-- The number that digits write in a base. -/
def valueIn (base : Nat) (digits : List Char) : Nat :=
  digits.foldl (fun n c => base * n + (Text.hexDigitValue? c).getD 0) 0

/-- Reads an integer in a base other than ten, behind the sign of its base. -/
def readBased? (base : Nat) : Reader Toml := fun cs => do
  let (digits, rest) ← readDigits? (isDigitIn base) cs
  let value ← integer? (valueIn base digits)
  pure (value, rest)

/-- Reads a point and the digits behind it, if a point stands here. -/
def readPlaces? : Reader (Option (List Char))
  | '.' :: rest => do
    let (digits, after) ← readDigits? Char.isDigit rest
    pure (some digits, after)
  | cs => some (none, cs)

/-- Reads an exponent, if one begins here. -/
def readPower? : Reader (Option Int)
  | c :: rest =>
    if c = 'e' ∨ c = 'E' then do
      let signed := Decimal.readSign rest
      let (digits, after) ← readDigits? Char.isDigit signed.2
      let power : Int := Decimal.digitsValue digits
      pure (some (if signed.1 then -power else power), after)
    else some (none, c :: rest)
  | [] => some (none, [])

/-- Reads a number in base ten behind its sign. -/
def readDecimal? (negative : Bool) : Reader Toml := fun cs => do
  let (whole, rest) ← readWhole? cs
  let (places, rest) ← readPlaces? rest
  let (power, rest) ← readPower? rest
  if places.isNone && power.isNone then do
    let n : Int := Decimal.digitsValue whole
    let value ← integer? (if negative then -n else n)
    pure (value, rest)
  else do
    let fraction := places.getD []
    let exponent := power.getD 0 - fraction.length
    let digits := Decimal.digitsValue (whole ++ fraction)
    let value ← real? (Decimal.decimalValue negative digits exponent)
    pure (value, rest)

/-- Reads a number. -/
def readNumber? : Reader Toml
  | '0' :: 'x' :: rest => readBased? 16 rest
  | '0' :: 'o' :: rest => readBased? 8 rest
  | '0' :: 'b' :: rest => readBased? 2 rest
  | cs =>
    let signed := Decimal.readSign cs
    match signed.2 with
    | 'i' :: 'n' :: 'f' :: rest =>
      some (.real (Float.ofBits (if signed.1 then 0xFFF0000000000000 else 0x7FF0000000000000)), rest)
    | 'n' :: 'a' :: 'n' :: rest => some (.real (Float.ofBits 0x7FF8000000000000), rest)
    | unsigned => readDecimal? signed.1 unsigned

/-! ## Times -/

/-- Reads a number of two digits within bounds. -/
def readTwo? (low high : Nat) : Reader Nat
  | a :: b :: rest =>
    let n := Decimal.digitsValue [a, b]
    if a.isDigit ∧ b.isDigit ∧ low ≤ n ∧ n ≤ high then some (n, rest) else none
  | _ => none

/-- A text without a character that it must begin with. -/
def skipChar? (c : Char) : List Char → Option (List Char)
  | d :: rest => if d = c then some rest else none
  | [] => none

/-- The number of days of a month. -/
def daysIn (year month : Nat) : Nat :=
  if month = 2 then
    if year % 4 = 0 ∧ (year % 100 ≠ 0 ∨ year % 400 = 0) then 29 else 28
  else if month = 4 ∨ month = 6 ∨ month = 9 ∨ month = 11 then 30
  else 31

/-- Whether a date begins here: four digits and a dash. -/
def startsDate (cs : List Char) : Bool :=
  (cs.take 4).length == 4 && (cs.take 4).all Char.isDigit && cs[4]? == some '-'

/-- Whether a time of day begins here: an hour and a colon. -/
def startsClock (cs : List Char) : Bool :=
  (readTwo? 0 23 cs).any fun r => r.2.head? == some ':'

/-- Skips a date. -/
def skipDate? (cs : List Char) : Option (List Char) := do
  let year := Decimal.digitsValue (cs.take 4)
  let (month, rest) ← readTwo? 1 12 (cs.drop 5)
  let rest ← skipChar? '-' rest
  let (_, rest) ← readTwo? 1 (daysIn year month) rest
  pure rest

/-- Skips the fraction of a second, if it has one. -/
def skipFraction : List Char → List Char
  | '.' :: c :: rest => if c.isDigit then rest.dropWhile Char.isDigit else '.' :: c :: rest
  | cs => cs

/-- Skips a time of day. A minute may have a leap second. -/
def skipClock? (cs : List Char) : Option (List Char) := do
  let (_, rest) ← readTwo? 0 23 cs
  let rest ← skipChar? ':' rest
  let (_, rest) ← readTwo? 0 59 rest
  let rest ← skipChar? ':' rest
  let (_, rest) ← readTwo? 0 60 rest
  pure (skipFraction rest)

/-- Skips a distance from universal time, if one stands here. -/
def skipOffset? : List Char → Option (List Char)
  | c :: rest =>
    if c = 'Z' ∨ c = 'z' then some rest
    else if c = '+' ∨ c = '-' then do
      let (_, rest) ← readTwo? 0 23 rest
      let rest ← skipChar? ':' rest
      let (_, rest) ← readTwo? 0 59 rest
      pure rest
    else some (c :: rest)
  | [] => some []

/-- Skips a time of day and its distance from universal time, if they follow a date. -/
def skipClockBehind? : List Char → Option (List Char)
  | c :: rest =>
    if (c = 'T' ∨ c = 't' ∨ c = ' ') ∧ startsClock rest = true then
      skipClock? rest >>= skipOffset?
    else some (c :: rest)
  | [] => some []

/-- Reads a date, a time of day, or both. -/
def readTime? : Reader Toml := fun cs => do
  let rest ← if startsDate cs then skipDate? cs >>= skipClockBehind? else skipClock? cs
  pure (.time (String.ofList (cs.take (cs.length - rest.length))), rest)

end Taskboard.Toml
