import Taskboard.Json.Value
import Taskboard.Text.Blank

/-!
# Taskboard — built-in queries

* `Preset` — a saved query with its labels;
* `presets` — the built-in ones;
* `Preset.find?` — a built-in one by its id.
-/

namespace Taskboard.Query

/-- A saved query. -/
structure Preset where
  id          : String
  label       : String
  query       : String
  description : String
  deriving DecidableEq, Repr

/-- The built-in queries. -/
def presets : List Preset :=
  [⟨"high-priority", "High priority", "priority:1-2", "Urgent and high priority items"⟩,
   ⟨"blocked", "Blocked", "blocked:true", "Items waiting on another item"⟩,
   ⟨"ready", "Ready", "ready:true", "Items with no open blockers"⟩,
   ⟨"mine", "Assigned", "assignee:@me", "Items that have an assignee"⟩,
   ⟨"unassigned", "Unassigned", "assignee:!@me", "Items nobody has picked up"⟩,
   ⟨"in-progress", "In progress", "status:in_progress", "Items currently being worked on"⟩,
   ⟨"agent-running", "Agent running", "agent:running", "Items with a running agent session"⟩,
   ⟨"has-pr", "Has PR", "pr:!none", "Items with an attached pull request"⟩,
   ⟨"bugs", "Bugs", "labels:bug", "Items labelled as bugs"⟩,
   ⟨"urgent", "Urgent", "priority:1", "Urgent items only"⟩]

namespace Preset

/-- The built-in query with an id; blanks around it and the case of ASCII letters do not count. -/
def find? (id : String) : Option Preset :=
  presets.find? fun p => Text.sameIgnoringCase p.id (Text.trim id)

/-- A saved query as a JSON value. -/
def toJson (p : Preset) : Json :=
  .object [("id", .string p.id), ("label", .string p.label), ("query", .string p.query),
    ("description", .string p.description)]

end Preset

end Taskboard.Query
