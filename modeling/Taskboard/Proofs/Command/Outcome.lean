import Taskboard.Proofs.Command.Loading
import Taskboard.Proofs.Command.Printing
import Taskboard.Proofs.Query.Composition

/-!
# Taskboard — a command succeeds as a whole or fails as a whole

A command looks at several things before it writes anything: a preset or the settings, the query,
the file of items. The first of them that cannot be used is what the command fails with, and then
there is no output; if all can be used, the output is complete. A filter on its own lets everything
through when its query has a fault; a command that filters has failed by then.

On the standard error the log comes first. A command that fails has warned of preferences that it
ignores and of nothing else, and then it reports its failure; one that succeeds leaves nothing there
but the log. How the log looks is not decided here: it is any function of what it is warned of.

* `Check`, `Action.checks` — what may fail, in the order in which an action looks at it;
* `FilterView.Selects`, `Invocation.Shows` — the complete output of an invocation;
* `Invocation.resolvedMode` — the mode that is asked for first;
* `Invocation.Succeeds`, `Invocation.FailsWith` — what an invocation leaves behind;
* `Invocation.failureOf_run`, `Invocation.shows_of_run` — a run fails with the first check that
  fails, and shows everything if none does;
* `Invocation.failure?_validate_filter` — validating and filtering find the same fault;
* `execute_all_or_nothing` — the outcome of an invocation.
-/

namespace Taskboard

open Query

/-! ## Checks -/

/-- Something that an action looks at before it writes. -/
inductive Check where
  | preset (id : String)
  | settings
  | query (choice : QueryChoice)
  | items
  deriving DecidableEq, Repr

/-- The failure of a query with a fault: the message of the fault and its position. -/
def queryFailure (e : ParseError) : Failure :=
  ⟨.queryMalformed, e.fault.message ++ " (at position " ++ toString e.position ++ ")", none⟩

/-- The failure of a query, which is parsed without the blanks around it. -/
def queryFailure? (text : String) : Option Failure :=
  match Expr.parse (Text.trim text) with
  | .ok _ => none
  | .error e => some (queryFailure e)

/-- The failure of a check, in a workspace with a file of items at a path. -/
def Check.failure? (w : Workspace) (path : String) : Check → Option Failure
  | .preset id =>
    if (Preset.find? id).isSome then none
    else some ⟨.presetUnknown, "no preset named '" ++ id ++ "'", none⟩
  | .settings => w.settingsFailure?
  | .query choice => (choice.text w).toOption.bind queryFailure?
  | .items => w.itemsFailure? path

/-- What an action looks at, in its order. -/
def Action.checks : Action → List Check
  | .filter (.query text) => [.query (.query text), .items]
  | .filter (.preset id) => [.preset id, .query (.preset id), .items]
  | .filter .configured => [.settings, .query .configured, .items]
  | .validate text => [.query (.query text)]
  | .presets => []
  | .triage _ => [.settings, .items]

/-- The failure of the first check that fails. -/
def Invocation.failure? (i : Invocation) (w : Workspace) : Option Failure :=
  i.action.checks.findSome? (Check.failure? w i.items)

/-! ## Output -/

/-- Whether an item satisfies a query. The empty query has no tree and asks for nothing. -/
def satisfies (read : Option Expr) (item : WorkItem) : Bool :=
  read.all fun e => e.holds item

/-- A view of exactly the items of a board that satisfy a query, in their order, with the number of
them and the number of all items. -/
structure FilterView.Selects (v : FilterView) (text : String) (read : Option Expr) (board : Board) :
    Prop where
  query   : v.query = Text.trim text
  parsed  : Expr.parse (Text.trim text) = .ok read
  items   : v.items = board.filter (satisfies read)
  matched : v.toJson.member? "matched" = some (.ofNat (board.countP (satisfies read)))
  total   : v.total = board.length ∧ v.toJson.member? "total" = some (.ofNat board.length)

/-- The complete output of an invocation in a mode. -/
def Invocation.Shows (i : Invocation) (w : Workspace) (mode : OutputMode) (output : String) :
    Prop :=
  match i.action with
  | .filter choice => ∃ text read board, ∃ view : FilterView,
      choice.Chooses w text ∧ w.Holds board ∧ view.Selects text read board ∧
      output = view.render mode ∧ view.Prints output mode
  | .validate text => output = renderValid text mode ∧ PrintsValid text output mode
  | .presets => output = renderPresets Query.presets mode ∧ PrintsPresets Query.presets output mode
  | .triage limit => ∃ settings board, ∃ view : TriageView, w.Sets settings ∧ w.Holds board ∧
      view = TriageView.of board (Report.compute (.computed settings.triage.toConfig.ranking)
        settings.triage.toConfig board) limit ∧
      output = view.render mode ∧ view.Prints output mode

/-! ## Success and failure -/

/-- The mode that an invocation writes in: the first one that is asked for, by a format on the
command line, by the flag for JSON, by the variable, by the preferences. If none is, it depends on
where the output goes. -/
def Invocation.resolvedMode (i : Invocation) (w : Workspace) (terminal : Bool) : OutputMode :=
  let asked := [i.format, if i.json then some .json else none,
    w.formatVariable.bind OutputMode.ofText?, w.preferredOutput.bind OutputMode.ofText?]
  (asked.findSome? id).getD (if terminal then .pretty else .text)

/-- An invocation that succeeds. Every check passes; its status is 0, its output is complete, and
the standard error has nothing but the log. -/
structure Invocation.Succeeds (i : Invocation) (w : Workspace) (terminal : Bool) : Prop where
  passes  : ∀ c ∈ i.action.checks, c.failure? w i.items = none
  outcome : ∃ output, i.Shows w (i.resolvedMode w terminal) output ∧
    execute i w terminal = ⟨0, output, ""⟩
  log     : ∀ log, i.standardError log w terminal = log (i.notices w)

/-- An invocation that fails. The failure is that of the first check that does not pass; its status
is 1, it has no output, and the standard error has the log, where ignored preferences are the only
thing to be warned of, and behind it the failure. -/
structure Invocation.FailsWith (i : Invocation) (w : Workspace) (terminal : Bool) (f : Failure) :
    Prop where
  first   : ∃ passed c rest, i.action.checks = passed ++ c :: rest ∧
    (∀ p ∈ passed, p.failure? w i.items = none) ∧ c.failure? w i.items = some f
  outcome : ∃ errors, f.Reports (i.resolvedMode w terminal) errors ∧
    execute i w terminal = ⟨1, "", errors⟩ ∧
    ∀ log, i.standardError log w terminal = log w.preferenceNotices ++ errors

/-! ## The first failure -/

theorem findSome?_failure (w : Workspace) (path : String) (c : Check) (cs : List Check) :
    (c :: cs).findSome? (Check.failure? w path) =
      (c.failure? w path).or (cs.findSome? (Check.failure? w path)) := by
  rw [List.findSome?_cons]
  cases c.failure? w path <;> rfl

/-! ## Queries -/

theorem compileStrict_of_ok {text : String} {read : Option Expr}
    (h : Expr.parse (Text.trim text) = .ok read) :
    compileStrict text = .ok ⟨Text.trim text, .ok read⟩ := by
  simp only [compileStrict, Filter.compile, Filter.error?, h]

theorem compileStrict_of_error {text : String} {e : ParseError}
    (h : Expr.parse (Text.trim text) = .error e) :
    compileStrict text = .error (queryFailure e) := by
  simp only [compileStrict, Filter.compile, Filter.error?, h, queryFailure, ParseError.render]

theorem failureOf_compileStrict (text : String) :
    failureOf (compileStrict text) = queryFailure? text := by
  unfold queryFailure?
  cases h : Expr.parse (Text.trim text) with
  | ok read => rw [compileStrict_of_ok h, failureOf_ok]
  | error e => rw [compileStrict_of_error h, failureOf_error]

/-- **A filter without a fault** selects the items that satisfy its query. -/
theorem selects_of_parse {text : String} {read : Option Expr}
    (h : Expr.parse (Text.trim text) = .ok read) (board : Board) :
    (FilterView.of ⟨Text.trim text, .ok read⟩ board).Selects text read board := by
  have hAccepts : Filter.accepts ⟨Text.trim text, .ok read⟩ = satisfies read := by
    funext item
    cases read <;> rfl
  have hItems : (FilterView.of ⟨Text.trim text, .ok read⟩ board).items =
      board.filter (satisfies read) := by
    rw [FilterView.of, Filter.select_eq_filter, hAccepts]
  refine ⟨rfl, h, hItems, ?_, rfl, rfl⟩
  rw [List.countP_eq_length_filter, ← hItems]
  rfl

/-! ## Runs -/

theorem failureOf_preset (w : Workspace) (path id : String) :
    failureOf ((QueryChoice.preset id).text w) = Check.failure? w path (.preset id) := by
  rw [QueryChoice.text, Check.failure?]
  cases Preset.find? id <;> rfl

theorem failureOf_configured (w : Workspace) (path : String) :
    failureOf (QueryChoice.configured.text w) = Check.failure? w path .settings := by
  rw [QueryChoice.text, failureOf_map, w.loads_settings.failureOf_eq, Check.failure?]

namespace Invocation

variable {i : Invocation} {w : Workspace} {mode : OutputMode}

theorem failureOf_filter {choice : QueryChoice} (hAction : i.action = .filter choice) :
    failureOf (i.run w mode) = (failureOf (choice.text w)).or
      ([.query choice, .items].findSome? (Check.failure? w i.items)) := by
  rw [run, hAction]
  refine failureOf_bind fun text hText => ?_
  have hQuery : Check.failure? w i.items (.query choice) = failureOf (compileStrict text) := by
    rw [Check.failure?, hText, failureOf_compileStrict]
    rfl
  rw [findSome?_failure, findSome?_failure, List.findSome?_nil, Option.or_none, hQuery,
    Check.failure?, ← (w.loads_board i.items).failureOf_eq]
  exact failureOf_bind fun filter _ => failureOf_map _ _

theorem failureOf_validate {query : String} (hAction : i.action = .validate query) :
    failureOf (i.run w mode) = queryFailure? query := by
  rw [run, hAction, queryFailure?]
  cases h : Expr.parse (Text.trim query) with
  | ok read => simp only [validate, h, failureOf_ok]
  | error e =>
    -- the fault and its position, looked up one after the other, are those of one error
    simp only [validate, Filter.compile, Filter.error?, h, Option.map_some, Option.getD_some,
      failureOf_error, queryFailure, ParseError.render]

/-- **A run fails with the first check that fails.** -/
theorem failureOf_run (i : Invocation) (w : Workspace) (mode : OutputMode) :
    failureOf (i.run w mode) = i.failure? w := by
  cases hAction : i.action with
  | filter choice =>
    rw [failureOf_filter hAction, failure?, hAction]
    cases choice with
    | query text => rfl
    | preset id => rw [failureOf_preset w i.items, Action.checks, ← findSome?_failure]
    | configured => rw [failureOf_configured w i.items, Action.checks, ← findSome?_failure]
  | validate query =>
    rw [failureOf_validate hAction, failure?, hAction, Action.checks, findSome?_failure]
    exact Option.or_none.symm
  | presets => rw [run, failure?, hAction]; rfl
  | triage limit =>
    rw [run, failure?, hAction, Action.checks, findSome?_failure, findSome?_failure,
      List.findSome?_nil, Option.or_none, Check.failure?, Check.failure?,
      ← w.loads_settings.failureOf_eq, ← (w.loads_board i.items).failureOf_eq]
    exact failureOf_bind fun settings _ => failureOf_map _ _

/-- **A run without a failure** shows everything. -/
theorem shows_of_run {output : String} (h : i.run w mode = .ok output) : i.Shows w mode output := by
  rw [run] at h
  rw [Shows]
  cases hAction : i.action with
  | filter choice =>
    rw [hAction] at h
    obtain ⟨text, hText, h⟩ := ok_of_bind h
    obtain ⟨filter, hFilter, h⟩ := ok_of_bind h
    obtain ⟨board, hBoard, h⟩ := ok_of_bind h
    cases hRead : Expr.parse (Text.trim text) with
    | error e =>
      rw [compileStrict_of_error hRead] at hFilter
      cases hFilter
    | ok read =>
      rw [compileStrict_of_ok hRead, Except.ok.injEq] at hFilter
      subst hFilter
      obtain rfl := Except.ok.inj h
      exact ⟨text, read, board, _, QueryChoice.chooses_of_text hText,
        (w.loads_board i.items).of_ok hBoard, selects_of_parse hRead board, rfl,
        FilterView.prints_render _ mode⟩
  | validate query =>
    simp only [hAction] at h
    cases hFault : validate query with
    | none =>
      rw [hFault] at h
      obtain rfl := Except.ok.inj h
      exact ⟨rfl, printsValid_renderValid query mode⟩
    | some fault =>
      rw [hFault] at h
      cases h
  | presets =>
    rw [hAction] at h
    obtain rfl := Except.ok.inj h
    exact ⟨rfl, printsPresets_renderPresets Query.presets mode⟩
  | triage limit =>
    rw [hAction] at h
    obtain ⟨settings, hSettings, h⟩ := ok_of_bind h
    obtain ⟨board, hBoard, h⟩ := ok_of_bind h
    obtain rfl := Except.ok.inj h
    exact ⟨settings, board, _, w.loads_settings.of_ok hSettings,
      (w.loads_board i.items).of_ok hBoard, rfl, rfl, TriageView.prints_render _ mode⟩

theorem resolvedMode_eq (i : Invocation) (w : Workspace) (terminal : Bool) :
    i.resolvedMode w terminal = i.mode w terminal := by
  rw [resolvedMode, mode, OutputMode.resolve]
  cases i.format with
  | some format => rfl
  | none =>
    cases i.json with
    | true => rfl
    | false =>
      cases w.formatVariable.bind OutputMode.ofText? with
      | some format => rfl
      | none => cases w.preferredOutput.bind OutputMode.ofText? <;> rfl

theorem run_eq_error_iff {f : Failure} : i.run w mode = .error f ↔ i.failure? w = some f := by
  rw [← failureOf_run i w mode, failureOf_eq_some_iff]

/-- A run that fails has given notice of ignored preferences at most. -/
theorem notices_of_failure {f : Failure} (h : i.failure? w = some f) :
    i.notices w = w.preferenceNotices := by
  rw [notices]
  cases hAction : i.action with
  | triage limit =>
    rw [failure?, hAction, Action.checks, findSome?_failure, findSome?_failure, List.findSome?_nil,
      Option.or_none, Check.failure?, Check.failure?, ← w.loads_settings.failureOf_eq,
      ← (w.loads_board i.items).failureOf_eq] at h
    cases hSettings : w.loadSettings with
    | error g => exact List.append_nil _
    | ok settings =>
      cases hBoard : w.loadBoard i.items with
      | error g => exact List.append_nil _
      | ok board =>
        -- a pass over the board warns of more, but then nothing has failed
        rw [hSettings, hBoard] at h
        cases h
  | _ => exact List.append_nil _

theorem execute_of_failure {f : Failure} (h : i.failure? w = some f) (terminal : Bool) :
    execute i w terminal = ⟨1, "", f.render (i.mode w terminal) ++ f.lastLine⟩ := by
  rw [execute, run_eq_error_iff.mpr h]
  rfl

/-- **A failing check** is reported if none fails before it. -/
theorem failsWith_of_failure {f : Failure} (h : i.failure? w = some f) (terminal : Bool) :
    i.FailsWith w terminal f := by
  obtain ⟨passed, c, rest, hChecks, hFails, hPassed⟩ := List.findSome?_eq_some_iff.mp h
  refine ⟨⟨passed, c, rest, hChecks, hPassed, hFails⟩, _, f.reports_render _, ?_, fun log => ?_⟩
  · rw [resolvedMode_eq, execute_of_failure h]
  · rw [standardError, notices_of_failure h, execute_of_failure h, resolvedMode_eq]

/-- **Without a failing check** all output is written. -/
theorem succeeds_of_no_failure (h : i.failure? w = none) (terminal : Bool) :
    i.Succeeds w terminal := by
  cases hRun : i.run w (i.mode w terminal) with
  | ok output =>
    have hExecute : execute i w terminal = ⟨0, output, ""⟩ := by
      rw [execute, hRun]
      rfl
    have hShows := shows_of_run hRun
    rw [← resolvedMode_eq] at hShows
    refine ⟨List.findSome?_eq_none_iff.mp h, ⟨output, hShows, hExecute⟩, fun log => ?_⟩
    rw [standardError, hExecute, String.append_empty]
  | error f =>
    rw [run_eq_error_iff.mp hRun] at h
    cases h

/-- The failure that is reported is the first one. -/
theorem FailsWith.failure?_eq {f : Failure} {terminal : Bool} (h : i.FailsWith w terminal f) :
    i.failure? w = some f := by
  obtain ⟨passed, c, rest, hChecks, hPassed, hFails⟩ := h.first
  exact List.findSome?_eq_some_iff.mpr ⟨passed, c, rest, hChecks, hFails, hPassed⟩

/-- **Validating and filtering** find the same fault in a query. -/
theorem failure?_validate_filter {v g : Invocation} {query : String} (w : Workspace)
    (hValidate : v.action = .validate query) (hFilter : g.action = .filter (.query query)) :
    (validate query = none ∧ v.failure? w = none ∧
      ∀ f, g.failure? w = some f → f.code ≠ .queryMalformed) ∨
    ∃ e : ParseError, validate query = some e.fault ∧ (Filter.compile query).error? = some e ∧
      v.failure? w = some (queryFailure e) ∧ g.failure? w = some (queryFailure e) := by
  have hV : v.failure? w = queryFailure? query := by
    rw [failure?, hValidate, Action.checks, findSome?_failure]
    exact Option.or_none
  have hG : g.failure? w = (queryFailure? query).or (w.itemsFailure? g.items) := by
    rw [failure?, hFilter, Action.checks, findSome?_failure, findSome?_failure, List.findSome?_nil,
      Option.or_none]
    rfl
  rw [hV, hG, queryFailure?]
  cases h : Expr.parse (Text.trim query) with
  | ok read =>
    refine .inl ⟨by simp only [validate, h], rfl, fun f hf => ?_⟩
    rw [Option.none_or] at hf
    exact Workspace.code_of_itemsFailure? hf
  | error e =>
    exact .inr ⟨e, by simp only [validate, h], by simp only [Filter.compile, Filter.error?, h], rfl,
      rfl⟩

end Invocation

-- a fault of the query comes before items that are not there
example :
    Invocation.failure? { action := .filter (.query "AND") }
      ⟨none, "", none, "", none, .error .notFound, default⟩ =
    some ⟨.queryMalformed, "Unexpected operator 'AND', expected a term (at position 0)", none⟩ := by
  decide +kernel

end Taskboard
