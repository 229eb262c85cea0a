import Taskboard.Command.OutputMode
import Taskboard.Command.Page
import Taskboard.Decimal.Layout
import Taskboard.Json.Writing
import Taskboard.Triage.Report

/-!
# Taskboard — what triage shows

* `TriageRow` — an item of the ranking;
* `TriageView` — the first items of the ranking, and the counts of a report;
* `TriageView.of` — the view of a report;
* `TriageView.render` — a view in a mode.
-/

namespace Taskboard

open Page

/-- An item of the ranking. -/
structure TriageRow where
  id      : String
  title   : String
  metrics : Metrics Score

/-- The first items of the ranking, and the report that they are from. -/
structure TriageView where
  rows   : List TriageRow
  report : Report Score

namespace TriageRow

/-- The level of the impact of an item. -/
def level (row : TriageRow) : ImpactLevel :=
  .ofScore row.metrics.impactScore

/-- The impact with one decimal place. -/
def impact (row : TriageRow) : String :=
  Decimal.fixed 1 row.metrics.impactScore.value

/-- An item as a JSON value. -/
def toJson (row : TriageRow) : Json :=
  .object
    [("id", .string row.id), ("title", .string row.title),
     ("impactScore", .ofFloat row.metrics.impactScore.value),
     ("level", .string row.level.name),
     ("unblockCount", .ofNat row.metrics.unblockCount),
     ("depth", .ofNat row.metrics.depth),
     ("criticalPath", .bool row.metrics.isCritical),
     ("ready", .bool row.metrics.isReady)]

/-- An item on one line. -/
def textLine (row : TriageRow) : String :=
  "  ".intercalate
    [row.id, row.impact, row.level.name, "unblocks=" ++ toString row.metrics.unblockCount, row.title]

/-- An item for people, with its place in the ranking. A second line follows if others wait. -/
def prettyLines (place : Nat) (row : TriageRow) : List String :=
  let marker := if row.metrics.isCritical then "★" else " "
  let state := if row.metrics.isReady then "ready" else "blocked"
  (padLeft 2 (toString place) ++ ". " ++ marker ++ " " ++ padRight 10 row.id ++ " " ++
      padLeft 5 row.impact ++ " " ++ padRight 8 row.level.name ++ " " ++ padRight 7 state ++ " " ++
      row.title) ::
    ((unblockBadge row.metrics.unblockCount).map (blanks 16 ++ ·)).toList

end TriageRow

namespace TriageView

/-- The title of an item; of several items with the same id the last one counts. -/
def titleOf (board : Board) (id : String) : String :=
  ((board.reverse.find? fun item => item.id == id).map WorkItem.title).getD ""

/-- The view of a report on a board, with `limit` items at most. -/
def of (board : Board) (report : Report Score) (limit : Nat) : TriageView where
  rows := (report.ranked.take limit).filterMap fun id =>
    (report.metrics.lookup id).map fun metrics => ⟨id, titleOf board id, metrics⟩
  report := report

/-- A view as a JSON value. -/
def toJson (v : TriageView) : Json :=
  .object
    [("total", .ofNat v.report.metrics.length),
     ("readyCount", .ofNat v.report.ready.length),
     ("blockedCount", .ofNat v.report.blocked.length),
     ("criticalPathCount", .ofNat v.report.criticalPath.length),
     ("highImpactCount", .ofNat v.report.highImpact.length),
     ("fingerprint", .string v.report.fingerprint),
     ("ranked", .array (v.rows.map TriageRow.toJson)),
     ("cycles", .array (v.report.cycles.map .ofStrings))]

/-- A cycle as a chain of ids. -/
def chain (ids : List String) : String :=
  " -> ".intercalate ids

/-- The counts for people. -/
def countLines (v : TriageView) : List String :=
  [keyed "Items" (toString v.report.metrics.length),
   keyed "Ready" (toString v.report.ready.length),
   keyed "Blocked" (toString v.report.blocked.length),
   keyed "Critical" (toString v.report.criticalPath.length),
   keyed "High impact" (toString v.report.highImpact.length)]

/-- The cycles for people, if there are any. -/
def cycleLines (v : TriageView) : List String :=
  if v.report.cycles.isEmpty then []
  else "" :: heading "Cycles" ++ v.report.cycles.map fun ids => "  " ++ chain ids

/-- The lines of a view for people. -/
def prettyLines (v : TriageView) : List String :=
  heading "Triage" ++ v.countLines ++ [""] ++ heading "Ranked by impact" ++
    (if v.rows.isEmpty then ["No items."] else []) ++
    (v.rows.mapIdx fun i row => row.prettyLines (i + 1)).flatten ++
    v.cycleLines ++ [rule]

/-- A view in a mode. -/
def render (v : TriageView) : OutputMode → String
  | .json => v.toJson.pretty ++ "\n"
  | .text =>
    unlines (v.rows.map TriageRow.textLine ++ v.report.cycles.map fun ids => "cycle  " ++ chain ids)
  | .pretty => unlines v.prettyLines

end TriageView

end Taskboard
