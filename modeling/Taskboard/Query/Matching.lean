import Taskboard.Decimal.Reading
import Taskboard.Query.Expr
import Taskboard.Query.Field

/-!
# Taskboard — matching items

* `FieldValue.equals`, `FieldValue.contains` — comparison with a text, case ignored;
* `FieldValue.number?`, `operandNumber?` — the numbers that are compared;
* `FieldValue.satisfies` — a value under a predicate;
* `Predicate.holds`, `Expr.holds` — an item under a predicate, and under a query.
-/

namespace Taskboard.Query

/-- The operand that stands for whoever asks. -/
def currentUser : String := "@me"

/-- Two numbers closer than this, 2^-52, count as equal. -/
def tolerance : Float := Float.ofBits 0x3CB0000000000000

/-- The number that a text writes, blanks around it allowed. -/
def textNumber? (s : String) : Option Float :=
  Decimal.readFloat? (Text.trim s)

/-- The number that an operand writes. On the priority field it may be the name of a level, which
stands for its ordinal. -/
def operandNumber? (field operand : String) : Option Float :=
  if field = "priority" then
    match Priority.ofText? operand with
    | some p => some (Decimal.ofNat p.ordinal)
    | none => textNumber? operand
  else textNumber? operand

/-- The truth value that an operand writes. -/
def operandBool? (operand : String) : Option Bool :=
  let word := (Text.trim operand).toLower
  if word = "true" ∨ word = "yes" ∨ word = "1" then some true
  else if word = "false" ∨ word = "no" ∨ word = "0" then some false
  else none

/-- Whether two texts agree in lower case. -/
def sameText (a b : String) : Bool :=
  Text.lowercase a == Text.lowercase b

/-- Whether an operand occurs in a text, both in lower case. -/
def occursInText (operand text : String) : Bool :=
  Text.occursIn (Text.lowercase operand).toList (Text.lowercase text).toList

namespace FieldValue

/-- Whether a value equals an operand. For a list, one item has to. -/
def equals (field operand : String) : FieldValue → Bool
  | .text s => sameText s operand
  | .number x => (operandNumber? field operand).any fun q => (q - x).abs < tolerance
  | .bool b => operandBool? operand == some b
  | .list items => items.any fun s => sameText s operand
  | .missing => false

/-- Whether an operand occurs in a value. For a list, it has to occur in one item. A number is
searched as it is written; truth values are not searched. -/
def contains (operand : String) : FieldValue → Bool
  | .text s => occursInText operand s
  | .number x =>
    Text.occursIn (Text.lowercase operand).toList (Decimal.plain.format x).toList
  | .list items => items.any fun s => occursInText operand s
  | .bool _ => false
  | .missing => false

/-- The number of a value: itself, or what its text writes. -/
def number? : FieldValue → Option Float
  | .number x => some x
  | .text s => textNumber? s
  | _ => none

/-- Whether a value and an operand are numbers in a given relation. -/
def relates (relation : Float → Float → Bool) (field operand : String) (v : FieldValue) : Bool :=
  match v.number?, operandNumber? field operand with
  | some n, some q => relation n q
  | _, _ => false

/-- Whether a value is a number between the ends of a range, the ends included. -/
def within (field lower upper : String) (v : FieldValue) : Bool :=
  match v.number?, operandNumber? field lower, operandNumber? field upper with
  | some n, some low, some high => low ≤ n && n ≤ high
  | _, _, _ => false

/-- Whether a value satisfies a predicate. -/
def satisfies (v : FieldValue) (p : Predicate) : Bool :=
  match p.comparison with
  | .equal => v.equals p.field p.operand
  | .notEqual => !v.equals p.field p.operand
  | .contains => v.contains p.operand
  | .greater => v.relates (fun n q => q < n) p.field p.operand
  | .greaterOrEqual => v.relates (fun n q => q ≤ n) p.field p.operand
  | .less => v.relates (fun n q => n < q) p.field p.operand
  | .lessOrEqual => v.relates (fun n q => n ≤ q) p.field p.operand
  | .range upper => v.within p.field p.operand upper

end FieldValue

/-- Whether someone is assigned to an item; a blank name is no one. -/
def isAssigned (item : WorkItem) : Bool :=
  item.assignee.any fun a => Text.trim a != ""

/-- Whether a predicate asks about whoever asks. -/
def Predicate.asksForUser (p : Predicate) : Bool :=
  p.field == "assignee" && Text.sameIgnoringCase p.operand currentUser

/-- Whether an item satisfies a predicate. The current user is anyone who is assigned, and a bare
term is searched for, it need not be the whole text. -/
def Predicate.holds (p : Predicate) (item : WorkItem) : Bool :=
  if p.asksForUser then
    match p.comparison with
    | .equal => isAssigned item
    | .contains => isAssigned item
    | .notEqual => !isAssigned item
    | _ => false
  else if p.field = textField then
    match p.comparison with
    | .equal => (resolve item p.field).contains p.operand
    | .notEqual => !(resolve item p.field).contains p.operand
    | _ => (resolve item p.field).satisfies p
  else (resolve item p.field).satisfies p

/-- Whether an item satisfies a query. -/
def Expr.holds : Expr → WorkItem → Bool
  | .leaf p, item => p.holds item
  | .conj l r, item => l.holds item && r.holds item
  | .disj l r, item => l.holds item || r.holds item
  | .neg e, item => !e.holds item

end Taskboard.Query
