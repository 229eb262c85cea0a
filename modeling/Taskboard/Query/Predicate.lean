import Taskboard.Json.Value
import Taskboard.Text.Blank

/-!
# Taskboard — predicates of a query

The value of a term `field:value` may carry a comparison: `!v`, `>=v`, `<=v`, `>v`, `<v`, a range
`1-4`, or `*v*`.

* `Comparison` — how a field is compared;
* `Predicate` — a field, a comparison and its operand;
* `Comparison.split` — the comparison that a value carries, and its operand;
* `Predicate.raw`, `Predicate.render` — the way back.
-/

namespace Taskboard.Query

/-- How a field is compared with an operand. A range carries its upper end. -/
inductive Comparison where
  | equal
  | notEqual
  | greater
  | greaterOrEqual
  | less
  | lessOrEqual
  | range (upper : String)
  | contains
  deriving DecidableEq, Repr

/-- A field, a comparison and the operand. -/
structure Predicate where
  field      : String
  comparison : Comparison
  operand    : String
  deriving DecidableEq, Repr

/-- Whether a text is a run of ASCII digits. -/
def isDigits (cs : List Char) : Bool :=
  !cs.isEmpty && cs.all Char.isDigit

/-- The ends of a range: digits on both sides of the first dash. -/
def splitRange? (cs : List Char) : Option (List Char × List Char) :=
  match cs.dropWhile fun c => c != '-' with
  | [] => none
  | _ :: upper =>
    let lower := cs.takeWhile fun c => c != '-'
    if isDigits lower && isDigits upper then some (lower, upper) else none

/-- Whether a text begins or ends with a star. -/
def isStarred (cs : List Char) : Bool :=
  cs.head? == some '*' || cs.getLast? == some '*'

/-- The comparison and operand of a value without a sign in front. -/
def Comparison.splitUnsigned (cs : List Char) : Comparison × List Char :=
  match splitRange? cs with
  | some (lower, upper) => (.range (String.ofList upper), lower)
  | none => if isStarred cs then (.contains, Text.stripEnds (· == '*') cs) else (.equal, cs)

/-- The comparison and operand of a value. The first of the signs that fits counts. -/
def Comparison.split : List Char → Comparison × List Char
  | '!' :: rest => (.notEqual, rest)
  | '>' :: '=' :: rest => (.greaterOrEqual, rest)
  | '<' :: '=' :: rest => (.lessOrEqual, rest)
  | '>' :: rest => (.greater, rest)
  | '<' :: rest => (.less, rest)
  | cs => splitUnsigned cs

namespace Predicate

/-- The predicate of a term. -/
def parse (field value : String) : Predicate :=
  let parts := Comparison.split value.toList
  { field, comparison := parts.1, operand := String.ofList parts.2 }

/-- The value of a term with this predicate. -/
def raw (p : Predicate) : String :=
  match p.comparison with
  | .equal => p.operand
  | .notEqual => "!" ++ p.operand
  | .greater => ">" ++ p.operand
  | .greaterOrEqual => ">=" ++ p.operand
  | .less => "<" ++ p.operand
  | .lessOrEqual => "<=" ++ p.operand
  | .range upper => p.operand ++ "-" ++ upper
  | .contains => "*" ++ p.operand ++ "*"

/-- The term with this predicate. -/
def render (p : Predicate) : String :=
  p.field ++ ":" ++ p.raw

end Predicate

/-! ## As JSON -/

/-- The name of a comparison. -/
def Comparison.name : Comparison → String
  | .equal => "equal"
  | .notEqual => "not_equal"
  | .greater => "greater_than"
  | .greaterOrEqual => "greater_or_equal"
  | .less => "less_than"
  | .lessOrEqual => "less_or_equal"
  | .range _ => "range"
  | .contains => "contains"

/-- The members of a predicate. Only a range has an end. -/
def Predicate.members (p : Predicate) : List (String × Json) :=
  [("field", .string p.field), ("value", .string p.operand),
    ("operator", .string p.comparison.name)] ++
  match p.comparison with
  | .range upper => [("rangeEnd", .string upper)]
  | _ => []

end Taskboard.Query
