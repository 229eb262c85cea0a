import Taskboard.Board.Item
import Taskboard.Query.Token

/-!
# Taskboard — the fields of an item

* `FieldValue` — what a field may hold;
* `knownFields` — the fields with a meaning of their own, by name;
* `FieldValue.ofJson` — a further property as a value;
* `WorkItem.resolve` — the value of a field: a known one, or else a further property whose key
  agrees with the name up to the case of ASCII letters.
-/

namespace Taskboard.Query

/-- The value of a field. -/
inductive FieldValue where
  | text (s : String)
  | number (x : Float)
  | bool (b : Bool)
  | list (items : List String)
  | missing

namespace FieldValue

/-- A text that may be absent. -/
def ofText? : Option String → FieldValue
  | some s => .text s
  | none => .missing

/-- The text of an array item; what is neither string, number nor boolean has none. -/
def itemText? : Json → Option String
  | .string s => some s
  | .number n => some n.text
  | .bool b => some (if b then "true" else "false")
  | _ => none

/-- A JSON value as the value of a field. -/
def ofJson : Json → FieldValue
  | .string s => .text s
  | .number n => .number n.toFloat
  | .bool b => .bool b
  | .array items => .list (items.filterMap itemText?)
  | _ => .missing

end FieldValue

/-- Title and description as one text. -/
def fullText (item : WorkItem) : String :=
  match item.description with
  | some d => item.title ++ " " ++ d
  | none => item.title

/-- The known fields, each with its value on an item. -/
def knownFields : List (String × (WorkItem → FieldValue)) :=
  [(textField, fun i => .text (fullText i)),
   ("id", fun i => .text i.id),
   ("title", fun i => .text i.title),
   ("description", fun i => .ofText? i.description),
   ("status", fun i => .text i.shownStatus),
   ("priority", fun i => .number (Decimal.ofNat i.priority.ordinal)),
   ("labels", fun i => .list i.labels),
   ("blocked", fun i => .bool i.isBlocked),
   ("ready", fun i => .bool (!i.isBlocked)),
   ("blockedby", fun i => .list i.blockers),
   ("blocking", fun i => .list i.blockedItems),
   ("assignee", fun i => .ofText? i.assignee),
   ("branch", fun i => .ofText? i.branch),
   ("pr", fun i => .text ((i.pullRequest.map fun p => p.state.name).getD "none")),
   ("prnumber", fun i =>
     match i.pullRequest with
     | some p => .number (Decimal.ofNat p.number.toNat)
     | none => .missing),
   ("agent", fun i => .text ((i.agent.map fun a => a.state.name).getD "none"))]

/-- The value of a known field as a function of the item. -/
def accessor? (name : String) : Option (WorkItem → FieldValue) :=
  knownFields.lookup name

/-- The first of the further properties whose key agrees with a name. -/
def extraValue (item : WorkItem) (name : String) : FieldValue :=
  match item.extra.entries.find? fun e => Text.sameIgnoringCase e.1 name with
  | some e => .ofJson e.2
  | none => .missing

/-- The value of a field of an item. -/
def resolve (item : WorkItem) (name : String) : FieldValue :=
  match accessor? name with
  | some get => get item
  | none => extraValue item name

end Taskboard.Query
