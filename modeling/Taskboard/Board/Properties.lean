import Taskboard.Json.Arranged

/-!
# Taskboard — further properties of an item

An item carries properties that the board gives no meaning to. They are kept by key.

* `Properties` — arranged values under distinct keys, in ascending order of the keys;
* `Properties.insert`, `Properties.ofList` — a later value replaces an earlier one.
-/

namespace Taskboard

/-- The members of an arranged object: values under distinct keys, in ascending order. -/
structure Properties where
  entries  : List (String × Json)
  arranged : (Json.object entries).Arranged

namespace Properties

/-- No properties. -/
def empty : Properties :=
  ⟨[], .object .nil (by simp)⟩

/-- The properties with a value under a key, replacing one that is there. -/
def insert (ps : Properties) (key : String) (value : Json) : Properties :=
  ⟨Json.insertMember key value.arrange ps.entries,
    ps.arranged.insertMember key (Json.arranged_arrange value)⟩

/-- The properties that a list of members writes; of a repeated key the last value counts. -/
def ofList (members : List (String × Json)) : Properties :=
  members.foldl (fun ps m => ps.insert m.1 m.2) empty

end Properties

end Taskboard
