import Taskboard.Json.Value
import Taskboard.Text.Blank

/-!
# Taskboard — priorities

* `Priority` — four levels, the most urgent first;
* `Priority.ordinal`, `Priority.weight` — the two scales, which add up to five;
* `Priority.parse` — a level by name or ordinal, anything else refused;
* `Priority.ofText`, `Priority.ofJson` — lenient readings, medium by default.
-/

namespace Taskboard

/-- The urgency of an item. -/
inductive Priority where
  | urgent
  | high
  | medium
  | low
  deriving DecidableEq, Repr, Inhabited

namespace Priority

/-- All levels, the most urgent first. -/
def all : List Priority :=
  [.urgent, .high, .medium, .low]

/-- The name of a level. -/
def name : Priority → String
  | .urgent => "urgent"
  | .high => "high"
  | .medium => "medium"
  | .low => "low"

/-- The place on the scale from 1, the most urgent, to 4. -/
def ordinal : Priority → Nat
  | .urgent => 1
  | .high => 2
  | .medium => 3
  | .low => 4

/-- The weight in triage scores, from 4 for urgent down to 1. -/
def weight (p : Priority) : Nat :=
  5 - p.ordinal

/-- The level at a place on the scale. -/
def ofOrdinal? : Int → Option Priority
  | 1 => some .urgent
  | 2 => some .high
  | 3 => some .medium
  | 4 => some .low
  | _ => none

/-- The level that a word names, in lower case: by its ordinal, its name, or `critical`. -/
def ofWord? (word : String) : Option Priority :=
  if word = "1" ∨ word = "urgent" ∨ word = "critical" then some .urgent
  else if word = "2" ∨ word = "high" then some .high
  else if word = "3" ∨ word = "medium" then some .medium
  else if word = "4" ∨ word = "low" then some .low
  else none

/-- The level that a text names; blanks around it and the case of ASCII letters do not count. -/
def ofText? (text : String) : Option Priority :=
  ofWord? (Text.trim text).toLower

/-- A text that names no level. -/
structure Unknown where
  text : String
  deriving DecidableEq, Repr

/-- The wording of a refusal. -/
def Unknown.message (u : Unknown) : String :=
  "invalid priority: '" ++ u.text ++ "'"

/-- Strict reading: a text that names no level is refused. -/
def parse (text : String) : Except Unknown Priority :=
  match ofText? text with
  | some p => .ok p
  | none => .error ⟨text⟩

/-- Lenient reading: a text that names no level means medium. -/
def ofText (text : String) : Priority :=
  (ofText? text).getD .medium

/-- Lenient reading of a JSON value: an integer is an ordinal, a string a name. -/
def ofJson : Json → Priority
  | .number (.integer n) => (ofOrdinal? n).getD .medium
  | .string s => ofText s
  | _ => .medium

end Priority

end Taskboard
