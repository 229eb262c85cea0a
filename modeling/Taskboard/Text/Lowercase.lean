import Taskboard.Text.Lowercase.Table

/-!
# Taskboard — lower case

The full lower-case mapping of Unicode. It reads one letter at a time, with two exceptions: the
dotted capital I becomes two characters, and a capital sigma becomes the final sigma at the end of
a word.

* `lowerChar` — the mapping of one character on its own;
* `endsWord` — whether a sigma between two texts stands at the end of a word;
* `lowercase` — the mapping of a text.
-/

namespace Taskboard.Text

/-- Whether a code point lies in one of the ranges. -/
def inRanges (ranges : List (Nat × Nat)) (c : Char) : Bool :=
  ranges.any fun r => r.1 ≤ c.toNat && c.toNat ≤ r.2

/-- The distance from a code point to its lower-case form, zero when it has none. -/
def lowerShift (n : Nat) : Int :=
  match upperRuns.find? fun r => r.1 ≤ n && n ≤ r.2.1 && (n - r.1) % r.2.2.1 == 0 with
  | some r => r.2.2.2
  | none => 0

/-- The lower-case form of a character that stands alone. -/
def lowerChar (c : Char) : List Char :=
  if c.toNat < 0x80 then [c.toLower]
  -- the dotted capital keeps its dot as a combining character
  else if c.toNat = 0x130 then ['i', Char.ofNat 0x307]
  else [Char.ofNat (c.toNat + lowerShift c.toNat).toNat]

/-- Whether the first character that is not case-ignorable is cased. -/
def meetsCased (cs : List Char) : Bool :=
  match cs.dropWhile (inRanges ignorableRanges) with
  | [] => false
  | c :: _ => inRanges casedRanges c

/-- A sigma ends a word when a cased letter precedes it and none follows. Both texts are read
from the sigma outwards. -/
def endsWord (before after : List Char) : Bool :=
  meetsCased before && !meetsCased after

/-- Lower-cases the rest of a text; `before` is what precedes it, nearest character first. -/
def lowerFrom (before : List Char) : List Char → List Char
  | [] => []
  | c :: rest =>
    let lowered :=
      -- the one letter whose form depends on its neighbours
      if c = 'Σ' then [if endsWord before rest then 'ς' else 'σ'] else lowerChar c
    lowered ++ lowerFrom (c :: before) rest

/-- The lower-case form of a text. -/
def lowercase (s : String) : String :=
  String.ofList (lowerFrom [] s.toList)

/-- Whether `needle` occurs in `hay` as a run of neighbouring characters. -/
def occursIn (needle : List Char) : List Char → Bool
  | [] => needle.isEmpty
  | c :: rest => needle.isPrefixOf (c :: rest) || occursIn needle rest

end Taskboard.Text
