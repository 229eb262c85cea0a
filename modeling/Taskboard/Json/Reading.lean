import Taskboard.Decimal.Reading
import Taskboard.Json.Value
import Taskboard.Text.Hexadecimal

/-!
# Taskboard — reading JSON

A text is read in two steps. The first finds its structure; the second decodes numbers and
strings, some of which have no value: a number beyond the range of doubles, a lone surrogate. What
a caller does not want it leaves undecoded.

* `Source` — a value as it stands in a text;
* `Source.parse?` — the value that a whole text writes;
* `Source.toJson?` — decoding, with a bound on the nesting;
* `Json.parse?` — both steps.
-/

namespace Taskboard.Json

/-- A value of a text. Numbers and strings are absent when they have no value. -/
inductive Source where
  | null
  | bool (b : Bool)
  | number (n : Option Number)
  | string (s : Option String)
  | array (items : List Source)
  | object (members : List (Option String × Source))

/-! ## Strings -/

/-- The character written by a backslash and a letter or sign. -/
def escaped? : Char → Option Nat
  | '"' => some 0x22
  | '\\' => some 0x5C
  | '/' => some 0x2F
  | 'b' => some 0x8
  | 'f' => some 0xC
  | 'n' => some 0xA
  | 'r' => some 0xD
  | 't' => some 0x9
  | _ => none

/-- Reads a string up to its closing quote: the code points and code units it writes, and what
follows. Control characters must be escaped. -/
def readUnits? : List Char → Option (List Nat × List Char)
  | [] => none
  | '"' :: rest => some ([], rest)
  | '\\' :: 'u' :: a :: b :: c :: d :: rest => do
    let unit ← Text.hexValue? [a, b, c, d]
    let (units, after) ← readUnits? rest
    pure (unit :: units, after)
  | '\\' :: e :: rest => do
    let unit ← escaped? e
    let (units, after) ← readUnits? rest
    pure (unit :: units, after)
  | c :: rest =>
    if c.toNat < 0x20 then none
    else do
      let (units, after) ← readUnits? rest
      pure (c.toNat :: units, after)

/-- Whether a code unit is the first half of a surrogate pair. -/
def isHighSurrogate (n : Nat) : Bool :=
  0xD800 ≤ n && n ≤ 0xDBFF

/-- Whether a code unit is the second half of a surrogate pair. -/
def isLowSurrogate (n : Nat) : Bool :=
  0xDC00 ≤ n && n ≤ 0xDFFF

/-- Joins surrogate pairs. A half that stands alone has no value. -/
def joinSurrogates? : List Nat → Option (List Char)
  | [] => some []
  | high :: rest =>
    if isHighSurrogate high then
      match rest with
      | low :: rest' =>
        if isLowSurrogate low then
          -- each half carries ten bits of the code point
          (Char.ofNat (0x10000 + (high - 0xD800) * 0x400 + (low - 0xDC00)) :: ·) <$>
            joinSurrogates? rest'
        else none
      | [] => none
    else if isLowSurrogate high then none
    else (Char.ofNat high :: ·) <$> joinSurrogates? rest

/-- Reads a string behind its opening quote. -/
def readString? (cs : List Char) : Option (Option String × List Char) := do
  let (units, rest) ← readUnits? cs
  pure ((joinSurrogates? units).map String.ofList, rest)

/-! ## Numbers -/

/-- Appends digits to a number for as long as it stays below 2^64. Returns the digits left over. -/
def appendDigits (n : Nat) : List Char → Nat × List Char
  | [] => (n, [])
  | c :: rest =>
    let grown := 10 * n + (c.toNat - '0'.toNat)
    if grown < Nat.pow 2 64 then appendDigits grown rest else (n, c :: rest)

/-- `x * 10 ^ exponent` in double arithmetic, by a multiplication or a division by a power of ten;
`none` when it overflows. Two divisions by 10^308 bring every 64-bit number to zero. -/
def scale? (x : Float) (exponent : Int) : Option Float :=
  let power := fun (k : Int) => Decimal.ofNat (Nat.pow 10 k.toNat)
  if 308 < exponent then
    if x == 0 then some x else none
  else if 0 ≤ exponent then
    let scaled := x * power exponent
    if isFinite scaled then some scaled else none
  else if -308 ≤ exponent then some (x / power (-exponent))
  -- such a power is no double, but two steps get there
  else if -616 ≤ exponent then some (x / power 308 / power (-exponent - 308))
  else some 0

/-- A number from its parts: the sign, the digits before and after the point, and the exponent.
The digits are cut to 64 bits. -/
def decimal? (negative : Bool) (whole fraction : List Char) (exponent : Int) : Option Number := do
  let (head, skipped) := appendDigits 0 whole
  let (significand, unread) := appendDigits head fraction
  -- a digit left out in front of the point weighs ten, one taken from behind it a tenth
  let places : Int := skipped.length - (fraction.length - unread.length : Nat)
  let x ← scale? (Decimal.ofNat significand) (exponent + places)
  pure (.real (if negative then -x else x))

/-- A number written without point and exponent. It is an integer if it fits 64 bits, with or
without sign; the negative zero is a double. -/
def whole? (negative : Bool) (digits : List Char) : Option Number :=
  let n := Decimal.digitsValue digits
  if negative then
    -- the least integer has no positive counterpart
    if 0 < n ∧ n ≤ Nat.pow 2 63 then some (.integer (-n)) else decimal? true digits [] 0
  else if n < Nat.pow 2 64 then some (.integer n)
  else decimal? false digits [] 0

/-- Reads a run of digits that must not be empty. -/
def readDigits? (cs : List Char) : Option (List Char × List Char) :=
  let digits := cs.takeWhile Char.isDigit
  if digits.isEmpty then none else some (digits, cs.dropWhile Char.isDigit)

/-- Reads an exponent, if one begins here. -/
def readPower? : List Char → Option (Option Int × List Char)
  | [] => some (none, [])
  | c :: rest =>
    if c = 'e' ∨ c = 'E' then do
      let signed := Decimal.readSign rest
      let (digits, after) ← readDigits? signed.2
      let power : Int := Decimal.digitsValue digits
      pure (some (if signed.1 then -power else power), after)
    else some (none, c :: rest)

/-- Reads a number. It has no superfluous leading zero, and digits on both sides of a point. -/
def readNumber? (cs : List Char) : Option (Option Number × List Char) := do
  let (negative, unsigned) := match cs with
    | '-' :: rest => (true, rest)
    | _ => (false, cs)
  let (whole, rest) ← readDigits? unsigned
  -- a zero in front of the point stands alone
  if whole.length > 1 ∧ whole.head? = some '0' then none
  else
    let (fraction, rest) ← match rest with
      | '.' :: rest => do
        let (digits, after) ← readDigits? rest
        pure (some digits, after)
      | _ => some (none, rest)
    let (power, rest) ← readPower? rest
    if fraction.isNone && power.isNone then pure (whole? negative whole, rest)
    else pure (decimal? negative whole (fraction.getD []) (power.getD 0), rest)

/-! ## Structure -/

/-- Skips the blanks that may stand between the parts of a text. -/
def skipBlanks (cs : List Char) : List Char :=
  cs.dropWhile fun c => c == ' ' || c == '\n' || c == '\t' || c == '\r'

mutual

/-- Reads a value. `fuel` bounds the number of steps. -/
def readValue? : Nat → List Char → Option (Source × List Char)
  | 0, _ => none
  | fuel + 1, cs =>
    match skipBlanks cs with
    | '[' :: rest =>
      match skipBlanks rest with
      | ']' :: after => some (.array [], after)
      | rest => do
        let (items, after) ← readItems? fuel rest
        pure (.array items, after)
    | '{' :: rest =>
      match skipBlanks rest with
      | '}' :: after => some (.object [], after)
      | rest => do
        let (members, after) ← readMembers? fuel rest
        pure (.object members, after)
    | '"' :: rest => do
      let (s, after) ← readString? rest
      pure (.string s, after)
    | 'n' :: 'u' :: 'l' :: 'l' :: after => some (.null, after)
    | 't' :: 'r' :: 'u' :: 'e' :: after => some (.bool true, after)
    | 'f' :: 'a' :: 'l' :: 's' :: 'e' :: after => some (.bool false, after)
    | rest => do
      let (n, after) ← readNumber? rest
      pure (.number n, after)

/-- Reads the items of an array and its closing bracket. -/
def readItems? : Nat → List Char → Option (List Source × List Char)
  | 0, _ => none
  | fuel + 1, cs => do
    let (item, rest) ← readValue? fuel cs
    match skipBlanks rest with
    | ',' :: rest => do
      let (items, after) ← readItems? fuel rest
      pure (item :: items, after)
    | ']' :: after => some ([item], after)
    | _ => none

/-- Reads the members of an object and its closing brace. -/
def readMembers? : Nat → List Char → Option (List (Option String × Source) × List Char)
  | 0, _ => none
  | fuel + 1, cs =>
    match skipBlanks cs with
    | '"' :: rest => do
      let (key, rest) ← readString? rest
      match skipBlanks rest with
      | ':' :: rest => do
        let (value, rest) ← readValue? fuel rest
        match skipBlanks rest with
        | ',' :: rest => do
          let (members, after) ← readMembers? fuel rest
          pure ((key, value) :: members, after)
        | '}' :: after => some ([(key, value)], after)
        | _ => none
      | _ => none
    | _ => none

end

/-- The value that a whole text writes, blanks around it allowed. Each step of the reader consumes
a character or opens a value, so twice the length of the text bounds their number. -/
def Source.parse? (text : String) : Option Source := do
  let cs := text.toList
  let (source, rest) ← readValue? (2 * cs.length + 2) cs
  if (skipBlanks rest).isEmpty then pure source else none

/-! ## Decoding -/

mutual

/-- The value of a source in which arrays and objects nest at most `depth` levels. -/
def Source.toJson? : Nat → Source → Option Json
  | _, .null => some .null
  | _, .bool b => some (.bool b)
  | _, .number n => n.map .number
  | _, .string s => s.map .string
  | 0, .array _ => none
  | 0, .object _ => none
  | depth + 1, .array items => (itemsToJson? depth items).map .array
  | depth + 1, .object members => (membersToJson? depth members).map .object

/-- The values of the items of an array. -/
def itemsToJson? : Nat → List Source → Option (List Json)
  | _, [] => some []
  | depth, item :: rest => do
    let value ← item.toJson? depth
    let values ← itemsToJson? depth rest
    pure (value :: values)

/-- The members of an object. -/
def membersToJson? : Nat → List (Option String × Source) → Option (List (String × Json))
  | _, [] => some []
  | depth, (key, value) :: rest => do
    let key ← key
    let value ← value.toJson? depth
    let members ← membersToJson? depth rest
    pure ((key, value) :: members)

end

/-- How many arrays and objects may stand inside one another. -/
def maxDepth : Nat := 127

/-- The value of a JSON text. -/
def parse? (text : String) : Option Json :=
  Source.parse? text >>= Source.toJson? maxDepth

end Taskboard.Json
