/-!
# Taskboard — blanks and trimming

* `isBlank` — the characters with the Unicode White_Space property;
* `stripEnds` — a list without the leading and trailing elements of a class;
* `trim` — a text without its outer blanks.
-/

namespace Taskboard.Text

/-- The code points with the White_Space property, as closed ranges. -/
def blankRanges : List (Nat × Nat) :=
  [(0x9, 0xD), (0x20, 0x20), (0x85, 0x85), (0xA0, 0xA0), (0x1680, 0x1680), (0x2000, 0x200A),
   (0x2028, 0x2029), (0x202F, 0x202F), (0x205F, 0x205F), (0x3000, 0x3000)]

/-- Whether `c` has the White_Space property. -/
def isBlank (c : Char) : Bool :=
  blankRanges.any fun r => r.1 ≤ c.toNat && c.toNat ≤ r.2

/-- `xs` without its longest leading and trailing runs of elements in `p`. -/
def stripEnds {α : Type} (p : α → Bool) (xs : List α) : List α :=
  ((xs.dropWhile p).reverse.dropWhile p).reverse

/-- A text without the blanks around it. -/
def trim (s : String) : String :=
  String.ofList (stripEnds isBlank s.toList)

/-- Whether two texts agree up to the case of ASCII letters. `String.toLower` moves no other
character. -/
def sameIgnoringCase (a b : String) : Bool :=
  a.toLower == b.toLower

end Taskboard.Text
