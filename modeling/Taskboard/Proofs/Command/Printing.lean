import Taskboard.Command.Failure
import Taskboard.Command.FilterView
import Taskboard.Command.TriageView
import Taskboard.Proofs.Json.Writing

/-!
# Taskboard — what is printed

What a command prints is said here without the functions that print it: as lines, character by
character, or as a JSON text. Among the lines of a text there is one for each item, row or cycle, in
their order, and no other; people see a heading and counts as well; a JSON text has the items or
rows and the counts under their keys. A title may hold line breaks, so that an output may have more
lines than were written. How a single number is worded, an impact with one decimal place for
instance, is not said again.

* `Writes`, `WritesJson` — an output that consists of lines, or of one value;
* `FilterView.Prints`, `TriageView.Prints` — the output for items, and for the rows of triage;
* `PrintsValid`, `PrintsPresets` — the output about a query, and about the built-in ones;
* `Failure.Reports` — what stands on the standard error;
* `FilterView.prints_render`, `TriageView.prints_render` and the like — what is printed is that.
-/

namespace Taskboard

open Page

/-! ## Lines and values -/

/-- An output that consists of lines, each with its line break. -/
def Writes (lines : List String) (output : String) : Prop :=
  output.toList = lines.flatMap fun line => line.toList ++ ['\n']

/-- An output that consists of a JSON text of a value, with a line break behind it. -/
def WritesJson (value : Json) (output : String) : Prop :=
  ∃ text, output.toList = text ++ ['\n'] ∧ value.IsTextOf text

theorem writes_unlines (lines : List String) : Writes lines (unlines lines) := by
  rw [Writes, unlines, String.toList_join, List.flatMap_map]
  exact congrArg lines.flatMap (funext fun line => String.toList_append)

theorem writes_line (line : String) : Writes [line] (line ++ "\n") := by
  rw [Writes, String.toList_append, List.flatMap_singleton]
  rfl

theorem writesJson_pretty (value : Json) : WritesJson value (value.pretty ++ "\n") :=
  ⟨value.pretty.toList, String.toList_append, value.isTextOf_pretty⟩

/-- A note that stands for lines if there are none. -/
theorem note_append {α : Type} {items : List α} {lines : List String} (note : String)
    (h : items = [] → lines = []) :
    (if items.isEmpty then [note] else []) ++ lines = if items = [] then [note] else lines := by
  cases items with
  | nil => rw [h rfl]; rfl
  | cons item rest => rfl

/-! ## Items -/

namespace FilterView

/-- The lines of the items of a view. -/
def itemLines (v : FilterView) : List String :=
  v.items.map fun item =>
    item.id ++ "  " ++ item.shownStatus ++ "  " ++ item.priority.name ++ "  " ++ item.title

/-- The output for a view in a mode. -/
def Prints (v : FilterView) (output : String) : OutputMode → Prop
  | .json => WritesJson
      (.object
        [("query", .string v.query), ("total", .ofNat v.total), ("matched", .ofNat v.items.length),
         ("items", .array (v.items.map WorkItem.toJson))]) output
  | .text => Writes v.itemLines output
  | .pretty =>
    let title := if v.query = "" then "All items (" ++ toString v.total ++ ")"
      else v.query ++ " (" ++ toString v.items.length ++ " of " ++ toString v.total ++ ")"
    Writes ([title, rule] ++ if v.items = [] then ["No matching items."] else v.itemLines) output

/-- **The items of a view are printed**, each in its place, and what is counted. -/
theorem prints_render (v : FilterView) (mode : OutputMode) : v.Prints (v.render mode) mode := by
  cases mode with
  | json => exact writesJson_pretty v.toJson
  | text => exact writes_unlines v.itemLines
  | pretty =>
    -- the note stands exactly where there are no lines
    have hItems : v.items = [] → v.itemLines = [] := fun h => by rw [itemLines, h, List.map_nil]
    have hLines := note_append "No matching items." hItems
    rw [Prints, ← hLines, ← List.append_assoc]
    exact writes_unlines _

end FilterView

/-! ## Rows of triage -/

namespace TriageRow

/-- The members of a row. -/
def members (row : TriageRow) : List (String × Json) :=
  [("id", .string row.id), ("title", .string row.title),
   ("impactScore", .ofFloat row.metrics.impactScore.value), ("level", .string row.level.name),
   ("unblockCount", .ofNat row.metrics.unblockCount), ("depth", .ofNat row.metrics.depth),
   ("criticalPath", .bool row.metrics.isCritical), ("ready", .bool row.metrics.isReady)]

/-- The line of a row in a text. -/
def line (row : TriageRow) : String :=
  row.id ++ "  " ++ row.impact ++ "  " ++ row.level.name ++ "  unblocks=" ++
    toString row.metrics.unblockCount ++ "  " ++ row.title

/-- The columns of a row for people, filled up with blanks. The first of them is the place of the
row in the ranking. -/
def columns (place : Nat) (row : TriageRow) : List String :=
  let number := toString place
  let state := if row.metrics.isReady then "ready" else "blocked"
  [blanks (2 - number.length) ++ number ++ ".",
   if row.metrics.isCritical then "★" else " ",
   row.id ++ blanks (10 - row.id.length),
   blanks (5 - row.impact.length) ++ row.impact,
   row.level.name ++ blanks (8 - row.level.name.length),
   state ++ blanks (7 - state.length),
   row.title]

/-- How many items wait, on a line of its own if any do. -/
def waitingLines (count : Nat) : List String :=
  if count = 0 then []
  else if count = 1 then [blanks 16 ++ "Unblocks 1 item"]
  else [blanks 16 ++ "Unblocks " ++ toString count ++ " items"]

/-- The lines of a row for people: its columns, and how many items wait for it. -/
def linesAt (place : Nat) (row : TriageRow) : List String :=
  " ".intercalate (row.columns place) :: waitingLines row.metrics.unblockCount

theorem textLine_eq (row : TriageRow) : row.textLine = row.line := by
  rw [← String.toList_inj]
  simp [textLine, line]

theorem waitingLines_eq (count : Nat) :
    waitingLines count = ((unblockBadge count).map (blanks 16 ++ ·)).toList := by
  match count with
  | 0 => rfl
  | 1 => rfl
  | count + 2 => simp [waitingLines, unblockBadge, String.append_assoc]

theorem intercalate_columns (row : TriageRow) (place : Nat) :
    " ".intercalate (row.columns place) =
      padLeft 2 (toString place) ++ ". " ++ (if row.metrics.isCritical then "★" else " ") ++ " " ++
        padRight 10 row.id ++ " " ++ padLeft 5 row.impact ++ " " ++ padRight 8 row.level.name ++
        " " ++ padRight 7 (if row.metrics.isReady then "ready" else "blocked") ++ " " ++
        row.title := by
  rw [← String.toList_inj]
  simp [columns, padLeft, padRight]

theorem prettyLines_eq (row : TriageRow) (place : Nat) :
    row.prettyLines place = row.linesAt place := by
  rw [prettyLines, linesAt, waitingLines_eq, intercalate_columns]

end TriageRow

namespace TriageView

/-- The counts of a report for people. -/
def counts (report : Report Score) : List String :=
  ["Items:       " ++ toString report.metrics.length,
   "Ready:       " ++ toString report.ready.length,
   "Blocked:     " ++ toString report.blocked.length,
   "Critical:    " ++ toString report.criticalPath.length,
   "High impact: " ++ toString report.highImpact.length]

/-- The lines of a view for people: the counts, the rows and the cycles, if there are any. -/
def pageLines (v : TriageView) : List String :=
  ["Triage", rule] ++ counts v.report ++ ["", "Ranked by impact", rule] ++
    (if v.rows = [] then ["No items."]
      else (v.rows.mapIdx fun i row => row.linesAt (i + 1)).flatten) ++
    (if v.report.cycles = [] then []
      else ["", "Cycles", rule] ++ v.report.cycles.map fun ids => "  " ++ " -> ".intercalate ids) ++
    [rule]

/-- The output for a view in a mode. -/
def Prints (v : TriageView) (output : String) : OutputMode → Prop
  | .json => WritesJson
      (.object
        [("total", .ofNat v.report.metrics.length),
         ("readyCount", .ofNat v.report.ready.length),
         ("blockedCount", .ofNat v.report.blocked.length),
         ("criticalPathCount", .ofNat v.report.criticalPath.length),
         ("highImpactCount", .ofNat v.report.highImpact.length),
         ("fingerprint", .string v.report.fingerprint),
         ("ranked", .array (v.rows.map fun row => .object row.members)),
         ("cycles", .array (v.report.cycles.map .ofStrings))]) output
  | .text => Writes
      (v.rows.map TriageRow.line ++
        v.report.cycles.map fun ids => "cycle  " ++ " -> ".intercalate ids) output
  | .pretty => Writes v.pageLines output

theorem countLines_eq (v : TriageView) : v.countLines = counts v.report := by
  have hLabels : padRight 12 ("Items" ++ ":") ++ " " = "Items:       " ∧
      padRight 12 ("Ready" ++ ":") ++ " " = "Ready:       " ∧
      padRight 12 ("Blocked" ++ ":") ++ " " = "Blocked:     " ∧
      padRight 12 ("Critical" ++ ":") ++ " " = "Critical:    " ∧
      padRight 12 ("High impact" ++ ":") ++ " " = "High impact: " := by decide
  obtain ⟨hItems, hReady, hBlocked, hCritical, hHigh⟩ := hLabels
  simp only [countLines, counts, keyed, hItems, hReady, hBlocked, hCritical, hHigh]

theorem cycleLines_eq (v : TriageView) :
    v.cycleLines = if v.report.cycles = [] then []
      else ["", "Cycles", rule] ++
        v.report.cycles.map fun ids => "  " ++ " -> ".intercalate ids := by
  rw [cycleLines]
  cases v.report.cycles with
  | nil => rfl
  | cons ids rest => rfl

theorem prettyLines_eq (v : TriageView) : v.prettyLines = v.pageLines := by
  have hRows : v.rows = [] → (v.rows.mapIdx fun i row => row.linesAt (i + 1)).flatten = [] :=
    fun h => by rw [h]; rfl
  rw [pageLines, ← note_append "No items." hRows, ← cycleLines_eq, ← countLines_eq, prettyLines]
  simp only [TriageRow.prettyLines_eq, List.append_assoc]
  rfl

/-- **The rows of a view are printed**, each in its place, and what is counted. -/
theorem prints_render (v : TriageView) (mode : OutputMode) : v.Prints (v.render mode) mode := by
  cases mode with
  | json => exact writesJson_pretty v.toJson
  | text =>
    have hLines : TriageRow.line = TriageRow.textLine := funext fun row => row.textLine_eq.symm
    rw [Prints, hLines]
    exact writes_unlines _
  | pretty =>
    rw [Prints, ← prettyLines_eq]
    exact writes_unlines v.prettyLines

end TriageView

/-! ## Queries -/

/-- The output for a query without faults. -/
def PrintsValid (query output : String) : OutputMode → Prop
  | .json => WritesJson (.object [("query", .string query), ("valid", .bool true)]) output
  | .text => Writes ["valid"] output
  | .pretty => Writes ["✓ query is valid: " ++ query] output

theorem printsValid_renderValid (query : String) (mode : OutputMode) :
    PrintsValid query (renderValid query mode) mode := by
  cases mode with
  | json => exact writesJson_pretty _
  | text => exact writes_line "valid"
  | pretty => exact writes_line _

/-- The lines of a built-in query for people: its text and its description stand in a second
column, below its label. -/
def presetColumns (p : Query.Preset) : List String :=
  [p.id ++ blanks (16 - p.id.length) ++ " " ++ p.label,
   blanks 17 ++ p.query,
   blanks 17 ++ p.description]

theorem presetLines_eq : presetLines = presetColumns := by
  have hColumn : padRight 16 "" ++ " " = blanks 17 := by decide
  funext p
  rw [presetLines, presetColumns, hColumn, padRight]

/-- The output for the built-in queries. -/
def PrintsPresets (presets : List Query.Preset) (output : String) : OutputMode → Prop
  | .json => WritesJson
      (.array (presets.map fun p => .object
        [("id", .string p.id), ("label", .string p.label), ("query", .string p.query),
         ("description", .string p.description)])) output
  | .text => Writes (presets.map fun p => p.id ++ "\t" ++ p.query) output
  | .pretty =>
    Writes
      (["Query presets", rule] ++ presets.flatMap presetColumns ++
        [rule, "Run one with: pk filter --preset <ID>"]) output

theorem printsPresets_renderPresets (presets : List Query.Preset) (mode : OutputMode) :
    PrintsPresets presets (renderPresets presets mode) mode := by
  cases mode with
  | json => exact writesJson_pretty _
  | text => exact writes_unlines _
  | pretty =>
    rw [PrintsPresets, ← presetLines_eq]
    exact writes_unlines _

/-! ## Errors -/

namespace Failure

/-- The output for a failure. -/
def Prints (f : Failure) (output : String) : OutputMode → Prop
  | .json => WritesJson
      (.object
        [("error", .object
           [("error_code", .string f.code.slug), ("message", .string f.message),
            ("suggestion", .string f.code.hint)])]) output
  | _ => Writes ["error: " ++ f.message, "  suggestion: " ++ f.code.hint] output

/-- What a command that has failed reports: the failure in its mode, and then a line for it. -/
def Reports (f : Failure) (mode : OutputMode) (errors : String) : Prop :=
  ∃ output, f.Prints output mode ∧ errors =
    output ++ "Error: " ++ f.code.code ++ " " ++ f.code.message ++ ": " ++ f.message ++ "\n"

theorem prints_render (f : Failure) (mode : OutputMode) : f.Prints (f.render mode) mode := by
  cases mode with
  | json => exact writesJson_pretty f.toJson
  | text => simp [Prints, render, Writes]
  | pretty => simp [Prints, render, Writes]

/-- **A failure is reported** in its mode, and once more behind that. -/
theorem reports_render (f : Failure) (mode : OutputMode) :
    f.Reports mode (f.render mode ++ f.lastLine) := by
  refine ⟨f.render mode, f.prints_render mode, ?_⟩
  simp [lastLine, String.append_assoc]

end Failure

end Taskboard
