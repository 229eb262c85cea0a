import Taskboard.Command.Arguments
import Taskboard.Command.Failure
import Taskboard.Command.FilterView
import Taskboard.Command.TriageView

/-!
# Taskboard — running a command

What the readers of JSON and TOML say about a text that they refuse, and how the log looks, is up
to the libraries that do it. The first is a part of the workspace; of the log only the warnings are
described here, as data.

* `Wording`, `Workspace` — the words of the readers, and what a command may look at;
* `Invocation.mode` — the output mode;
* `Invocation.run` — what a command writes, or the first thing that fails;
* `execute` — the outcome of a command line;
* `Invocation.notices`, `Invocation.standardError` — what a command warns of, and all that stands
  on the standard error.
-/

namespace Taskboard

/-- What the readers of settings, preferences and items say about a text that they refuse. -/
structure Wording where
  settings    : String → String
  preferences : String → String
  items       : String → String
  deriving Inhabited

/-- What a command may look at: the variable that names an output mode, the files of settings and
preferences, which need not be there, the file of items, and the words of those that read them. -/
structure Workspace where
  formatVariable  : Option String
  settingsPath    : String
  settings        : Option Contents
  preferencesPath : String
  preferences     : Option Contents
  items           : Contents
  wording         : Wording

namespace Workspace

/-- The settings of the project. -/
def loadSettings (w : Workspace) : Except Failure Settings :=
  (Settings.load w.wording.settings w.settingsPath w.settings).mapError Failure.ofSettings

/-- The preferences of the user. -/
def loadPreferences (w : Workspace) : Except SettingsError Preferences :=
  Preferences.load w.wording.preferences w.preferencesPath w.preferences

/-- The output that the user prefers. Preferences that cannot be used do not matter. -/
def preferredOutput (w : Workspace) : Option String :=
  match w.loadPreferences with
  | .ok preferences => preferences.output
  | .error _ => none

/-- The board, from the file at a path. -/
def loadBoard (w : Workspace) (path : String) : Except Failure Board :=
  match w.items with
  | .error e => .error ⟨.itemsUnreadable, "cannot read " ++ path ++ ": " ++ e.message, none⟩
  | .ok text =>
    match Board.read? text with
    | some board => .ok board
    | none => .error ⟨.itemsMalformed, path, some (w.wording.items text)⟩

end Workspace

/-- The text of the query that a filter uses. -/
def QueryChoice.text (choice : QueryChoice) (w : Workspace) : Except Failure String :=
  match choice with
  | .query text => .ok text
  | .preset id =>
    match Query.Preset.find? id with
    | some saved => .ok saved.query
    | none => .error ⟨.presetUnknown, "no preset named '" ++ id ++ "'", none⟩
  | .configured => do
    let settings ← w.loadSettings
    pure (settings.defaultQuery.getD "")

/-- The filter of a query without faults. -/
def compileStrict (text : String) : Except Failure Query.Filter :=
  let filter := Query.Filter.compile text
  match filter.error? with
  | none => .ok filter
  | some e => .error ⟨.queryMalformed, e.render, none⟩

namespace Invocation

/-- The output mode. A format on the command line comes before everything else. -/
def mode (i : Invocation) (w : Workspace) (terminal : Bool) : OutputMode :=
  i.format.getD (.resolve i.json w.preferredOutput w.formatVariable terminal)

/-- What a command writes in a mode, or the first thing that fails. -/
def run (i : Invocation) (w : Workspace) (mode : OutputMode) : Except Failure String :=
  match i.action with
  | .filter choice => do
    let text ← choice.text w
    let filter ← compileStrict text
    let board ← w.loadBoard i.items
    pure ((FilterView.of filter board).render mode)
  | .validate query =>
    match Query.validate query with
    | none => .ok (renderValid query mode)
    | some fault =>
      -- a fault does not say where it is; the error of the filter does
      let position := ((Query.Filter.compile query).error?.map fun e => e.position).getD 0
      .error ⟨.queryMalformed, Query.ParseError.render ⟨fault, position⟩, none⟩
  | .presets => .ok (renderPresets Query.presets mode)
  | .triage limit => do
    let settings ← w.loadSettings
    let board ← w.loadBoard i.items
    let config := settings.triage.toConfig
    let report := Report.compute (.computed config.ranking) config board
    pure ((TriageView.of board report limit).render mode)

end Invocation

/-- The outcome of what a command writes or fails with. -/
def Outcome.of (mode : OutputMode) : Except Failure String → Outcome
  | .ok output => ⟨0, output, ""⟩
  | .error f => ⟨1, "", f.render mode ++ f.lastLine⟩

/-- The outcome of an invocation. -/
def execute (i : Invocation) (w : Workspace) (terminal : Bool) : Outcome :=
  let mode := i.mode w terminal
  .of mode (i.run w mode)

/-! ## The log -/

/-- Something that the log is warned of. -/
inductive Notice where
  | preferencesIgnored (error : SettingsError)
  | cyclesFound (count : Nat)
  | notConverged (iterations : Nat) (tolerance : Score)

namespace Notice

/-- The wording of a notice. -/
def message : Notice → String
  | .preferencesIgnored e => "ignoring user config: " ++ e.message
  | .cyclesFound _ => "blocking cycles found; depths inside them are partial"
  | .notConverged .. => "pagerank did not converge"

/-- The values that go with the wording, by name. -/
def fields : Notice → List (String × Json)
  | .preferencesIgnored _ => []
  | .cyclesFound count => [("cycles", .ofNat count)]
  | .notConverged iterations tolerance =>
    [("iterations", .ofNat iterations), ("tolerance", .ofFloat tolerance.value)]

end Notice

/-- Preferences that cannot be used are worth a notice. -/
def Workspace.preferenceNotices (w : Workspace) : List Notice :=
  match w.loadPreferences with
  | .ok _ => []
  | .error e => [.preferencesIgnored e]

/-- What one pass over a board warns of: cycles, and page ranks that have not settled. -/
def Board.notices (config : TriageConfig Score) (board : Board) : List Notice :=
  let graph := DependencyGraph.ofBoard board
  let ranking := graph.digraph.pageRank config.ranking
  (if graph.cycles.isEmpty then [] else [.cyclesFound graph.cycles.length]) ++
    if ranking.converged then []
    else [.notConverged ranking.iterations config.ranking.tolerance]

namespace Invocation

/-- What an invocation warns of. It looks at the preferences first; only a pass over a board warns
of more. -/
def notices (i : Invocation) (w : Workspace) : List Notice :=
  w.preferenceNotices ++
  match i.action with
  | .triage _ =>
    match w.loadSettings, w.loadBoard i.items with
    | .ok settings, .ok board => board.notices settings.triage.toConfig
    | _, _ => []
  | _ => []

/-- All that an invocation leaves on the standard error. `log` is what the log writes of a run with
some warnings: each on a line, or none of them, or more with them, as it has been set up. -/
def standardError (log : List Notice → String) (i : Invocation) (w : Workspace) (terminal : Bool) :
    String :=
  log (i.notices w) ++ (execute i w terminal).errors

end Invocation

end Taskboard
