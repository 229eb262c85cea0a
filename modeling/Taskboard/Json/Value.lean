import Taskboard.Decimal.Layout

/-!
# Taskboard — JSON values

* `Json.Number` — an integer, or a finite double;
* `Json` — a JSON value; an object lists its members in order, and may repeat a key;
* `Json.ofFloat` — a double as a value, `null` when it is not finite.
-/

namespace Taskboard

/-- A JSON number. Integers and decimals are told apart, as `2` and `2.0` are in a text. -/
inductive Json.Number where
  | integer (n : Int)
  | real (x : Float)

/-- A JSON value. -/
inductive Json where
  | null
  | bool (b : Bool)
  | number (n : Json.Number)
  | string (s : String)
  | array (items : List Json)
  | object (members : List (String × Json))

namespace Json

/-- The double nearest to a number. -/
def Number.toFloat : Number → Float
  | .integer n => Decimal.nearest (decide (n < 0)) n.natAbs 1
  | .real x => x

/-- The text of a number. -/
def Number.text : Number → String
  | .integer n => toString n
  | .real x => Decimal.json.format x

/-- Whether a double is neither infinite nor a NaN. -/
def isFinite (x : Float) : Bool :=
  match Decimal.Double.ofFloat x with
  | .finite .. => true
  | _ => false

/-- A double as a value. JSON has no text for what is not finite. -/
def ofFloat (x : Float) : Json :=
  if isFinite x then .number (.real x) else .null

/-- A natural number as a value. -/
def ofNat (n : Nat) : Json :=
  .number (.integer n)

/-- A list of texts as a value. -/
def ofStrings (ss : List String) : Json :=
  .array (ss.map .string)

/-- An optional value, `null` when it is absent. -/
def ofOption {α : Type} (f : α → Json) : Option α → Json
  | none => .null
  | some a => f a

/-- The members of an object; any other value has none. -/
def members : Json → List (String × Json)
  | .object ms => ms
  | _ => []

/-- The first member of an object under a key. -/
def member? (key : String) (j : Json) : Option Json :=
  j.members.lookup key

end Json

end Taskboard
