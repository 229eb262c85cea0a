import Taskboard.Board.Item.Json
import Taskboard.Command.OutputMode
import Taskboard.Command.Page
import Taskboard.Json.Writing
import Taskboard.Query.Filter
import Taskboard.Query.Preset

/-!
# Taskboard — what filters show

* `FilterView` — the items that a query selects from a board;
* `FilterView.render` — the items in a mode;
* `renderValid`, `renderPresets` — a query without faults, and the built-in queries.
-/

namespace Taskboard

open Page

/-- An item on one line: id, status, priority, title. -/
def itemRow (item : WorkItem) : String :=
  "  ".intercalate [item.id, item.shownStatus, item.priority.name, item.title]

/-- The items that a query selects from a board. -/
structure FilterView where
  query : String
  total : Nat
  items : Board

namespace FilterView

/-- What a filter selects from a board. -/
def of (filter : Query.Filter) (board : Board) : FilterView :=
  ⟨filter.query, board.length, filter.select board⟩

/-- The view as a JSON value. -/
def toJson (v : FilterView) : Json :=
  .object
    [("query", .string v.query), ("total", .ofNat v.total), ("matched", .ofNat v.items.length),
     ("items", .array (v.items.map WorkItem.toJson))]

/-- The heading of the view. -/
def title (v : FilterView) : String :=
  if v.query = "" then "All items (" ++ toString v.total ++ ")"
  else v.query ++ " (" ++ toString v.items.length ++ " of " ++ toString v.total ++ ")"

/-- The view in a mode. -/
def render (v : FilterView) : OutputMode → String
  | .json => v.toJson.pretty ++ "\n"
  | .text => unlines (v.items.map itemRow)
  | .pretty =>
    unlines
      (heading v.title ++ (if v.items.isEmpty then ["No matching items."] else []) ++
        v.items.map itemRow)

end FilterView

/-- A query without faults in a mode. -/
def renderValid (query : String) : OutputMode → String
  | .json => (Json.object [("query", .string query), ("valid", .bool true)]).pretty ++ "\n"
  | .text => "valid\n"
  | .pretty => "✓ query is valid: " ++ query ++ "\n"

/-- A built-in query for people: a line each for its label, its text and its description. -/
def presetLines (p : Query.Preset) : List String :=
  [padRight 16 p.id ++ " " ++ p.label,
   padRight 16 "" ++ " " ++ p.query,
   padRight 16 "" ++ " " ++ p.description]

/-- The built-in queries in a mode. -/
def renderPresets (presets : List Query.Preset) : OutputMode → String
  | .json => (Json.array (presets.map Query.Preset.toJson)).pretty ++ "\n"
  | .text => unlines (presets.map fun p => p.id ++ "\t" ++ p.query)
  | .pretty =>
    unlines
      (heading "Query presets" ++ presets.flatMap presetLines ++
        [rule, "Run one with: pk filter --preset <ID>"])

end Taskboard
