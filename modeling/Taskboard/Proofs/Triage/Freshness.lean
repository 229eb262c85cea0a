import Taskboard.Proofs.Triage.Congruence
import Taskboard.Triage.Engine

/-!
# Taskboard — the report of an engine is never stale

An engine leaves a pass out when it knows the fingerprint of a board. That its report is right
all the same rests on two facts: boards with one fingerprint have one report
(`Report.compute_congr`), and the report always belongs to the fingerprint beside it
(`Engine.Coherent`), whatever operations have been called in whatever order.

An engine **reports** on a board when an operation answers with a report: a refresh does, and so
does a poll that finds something due. It **heeds** these operations and every notification, that
is, all but a poll that finds nothing due.

* `Engine.trace` — a run as the list of its steps, each with the engine it starts from;
* `Engine.call_eq` — all that one operation does to report, fingerprint and passes;
* `Engine.run_reports_compute` — every report that a run answers with is the one of a pass at that
  moment, and passes are run exactly when the fingerprint changes;
* `Engine.report_eq_compute_of_not_isPending` — an engine in which nothing waits reports on the
  last board that it heeded.
-/

namespace Taskboard

/-- The board that an operation is about. -/
def Call.board : Call → Board
  | .refresh board => board
  | .notify board _ => board
  | .poll board _ => board

namespace Engine

variable {R : Type} [Scalar R]

/-! ## Runs -/

/-- Whether an operation answers with a report: a refresh, or a poll that finds something due. -/
def reports (e : Engine R) : Call → Bool
  | .refresh _ => true
  | .notify _ _ => false
  | .poll board now => (e.poll board now).1

/-- Whether an operation is heeded: one that answers with a report, or a notification. -/
def heeds (e : Engine R) : Call → Bool
  | .notify _ _ => true
  | c => e.reports c

/-- The steps of a run: each operation with the engine that it is called on. -/
def trace (e : Engine R) : List Call → List (Engine R × Call)
  | [] => []
  | c :: calls => (e, c) :: (e.call c).2.trace calls

/-- The boards of those steps of a run that satisfy a test, in order. -/
def boardsWhere (test : Engine R → Call → Bool) (e : Engine R) (calls : List Call) : List Board :=
  ((e.trace calls).filter fun step => test step.1 step.2).map fun step => step.2.board

/-- How many boards of a list have another fingerprint than the one before, which for the first of
them is `last`. -/
def changes (last : Option String) : List Board → Nat
  | [] => 0
  | board :: boards =>
    (if last = some (Taskboard.fingerprint board) then 0 else 1) +
      changes (some (Taskboard.fingerprint board)) boards

theorem run_cons (e : Engine R) (c : Call) (calls : List Call) :
    e.run (c :: calls) = (e.call c).2.run calls := by
  rw [run, List.foldl_cons, run]

theorem run_concat (e : Engine R) (calls : List Call) (c : Call) :
    e.run (calls ++ [c]) = ((e.run calls).call c).2 := by
  rw [run, List.foldl_append, List.foldl_cons, List.foldl_nil, run]

theorem trace_concat (e : Engine R) (calls : List Call) (c : Call) :
    e.trace (calls ++ [c]) = e.trace calls ++ [(e.run calls, c)] := by
  induction calls generalizing e with
  | nil => rfl
  | cons d rest ih => rw [List.cons_append, trace, trace, ih, run_cons, List.cons_append]

/-- The steps of a run are its operations, each called on the engine after those before. -/
theorem mem_trace_iff {e e' : Engine R} {c : Call} {calls : List Call} :
    (e', c) ∈ e.trace calls ↔ ∃ before after, calls = before ++ c :: after ∧ e' = e.run before := by
  induction calls generalizing e with
  | nil => simp [trace]
  | cons d rest ih =>
    rw [trace, List.mem_cons, ih]
    constructor
    · rintro (h | ⟨before, after, rfl, rfl⟩)
      · obtain ⟨rfl, rfl⟩ := Prod.mk.inj h
        exact ⟨[], rest, rfl, rfl⟩
      · exact ⟨d :: before, after, rfl, (run_cons e d before).symm⟩
    · rintro ⟨before, after, hCalls, rfl⟩
      cases before with
      | nil =>
        rw [List.nil_append, List.cons.injEq] at hCalls
        exact Or.inl (by rw [hCalls.1]; rfl)
      | cons x before =>
        rw [List.cons_append, List.cons.injEq] at hCalls
        exact Or.inr ⟨before, after, hCalls.2, by rw [run_cons, hCalls.1]⟩

theorem boardsWhere_cons (test : Engine R → Call → Bool) (e : Engine R) (c : Call)
    (calls : List Call) :
    boardsWhere test e (c :: calls) =
      (if test e c then [c.board] else []) ++ boardsWhere test (e.call c).2 calls := by
  rw [boardsWhere, trace, List.filter_cons, boardsWhere]
  split <;> rfl

theorem boardsWhere_concat (test : Engine R → Call → Bool) (e : Engine R) (calls : List Call)
    (c : Call) :
    boardsWhere test e (calls ++ [c]) =
      boardsWhere test e calls ++ if test (e.run calls) c then [c.board] else [] := by
  rw [boardsWhere, trace_concat, List.filter_append, List.map_append, boardsWhere, List.filter_cons]
  split <;> rfl

/-! ## One operation -/

omit [Scalar R] in
theorem knows_iff {e : Engine R} {board : Board} :
    e.knows board = true ↔ e.fingerprint = some (Taskboard.fingerprint board) := by
  rw [knows, beq_iff_eq]

theorem fingerprint_refresh (e : Engine R) (board : Board) :
    (e.refresh board).fingerprint = some (Taskboard.fingerprint board) := by
  rw [refresh]
  split
  · rename_i hKnows
    exact knows_iff.mp hKnows
  · rfl

theorem passes_refresh (e : Engine R) (board : Board) :
    (e.refresh board).passes =
      e.passes + if e.fingerprint = some (Taskboard.fingerprint board) then 0 else 1 := by
  rw [refresh]
  by_cases hKnows : e.knows board = true
  · rw [if_pos hKnows, if_pos (knows_iff.mp hKnows), Nat.add_zero]
  · rw [if_neg hKnows, if_neg (mt knows_iff.mpr hKnows), pass]

/-- A poll refreshes when something is due, and else does nothing. -/
theorem poll_eq (e : Engine R) (board : Board) (now : Nat) :
    e.poll board now =
      if e.debouncer.isDue now then
        (true, ({ e with debouncer := e.debouncer.cancel } : Engine R).refresh board)
      else (false, e) := by
  by_cases hDue : e.debouncer.isDue now = true
  · simp only [poll, Debouncer.takeDue, hDue, if_true]
  · simp only [poll, Debouncer.takeDue, hDue, if_false, Bool.false_eq_true]

/-- **All that an operation does.** If it answers with a report it refreshes, and else it leaves
report, fingerprint and passes alone. Only what waits may change besides. -/
theorem call_eq (e : Engine R) (c : Call) :
    ∃ d, (e.call c).2 =
      if e.reports c then ({ e with debouncer := d } : Engine R).refresh c.board
      else { e with debouncer := d } := by
  cases c with
  | refresh board => exact ⟨e.debouncer, rfl⟩
  | notify board now =>
    show ∃ d, (e.notify board now).2 = { e with debouncer := d }
    unfold notify
    split
    · exact ⟨e.debouncer.cancel, rfl⟩
    · exact ⟨e.debouncer.request now, rfl⟩
  | poll board now =>
    rw [call, reports, poll_eq]
    split
    · exact ⟨e.debouncer.cancel, rfl⟩
    · exact ⟨e.debouncer, rfl⟩

/-- An operation that is not heeded leaves the engine as it is. -/
theorem call_of_not_heeds {e : Engine R} {c : Call} (h : e.heeds c = false) : (e.call c).2 = e := by
  cases c with
  | refresh board => cases h
  | notify board now => cases h
  | poll board now =>
    have hNotDue : (e.poll board now).1 = false := h
    rw [poll_eq] at hNotDue
    rw [call, poll_eq]
    split at hNotDue
    · cases hNotDue
    · rename_i hDue
      rw [if_neg hDue]

/-- A heeded operation leaves its board known, or else something waits. -/
theorem isPending_or_knows_of_heeds {e : Engine R} {c : Call} (h : e.heeds c = true) :
    (e.call c).2.isPending = true ∨ (e.call c).2.knows c.board = true := by
  by_cases hReports : e.reports c = true
  · obtain ⟨d, hCall⟩ := call_eq e c
    rw [hCall, if_pos hReports]
    exact Or.inr (knows_iff.mpr (fingerprint_refresh _ _))
  · cases c with
    | refresh board => exact absurd rfl hReports
    | poll board now => exact absurd h hReports
    | notify board now =>
      show (e.notify board now).2.isPending = true ∨ (e.notify board now).2.knows board = true
      unfold notify
      split
      · -- a known board: what waited is cancelled, and nothing else changes
        rename_i hKnows
        exact Or.inr hKnows
      · exact Or.inl rfl

/-! ## The invariant -/

/-- The report of an engine is the one of a pass over any board with the fingerprint beside it. -/
structure Coherent (provider : Provider R) (config : TriageConfig R) (e : Engine R) : Prop where
  provider_eq : e.provider = provider
  config_eq   : e.config = config
  report_eq   : ∀ board, e.knows board = true → e.report = .compute provider config board

variable {provider : Provider R} {config : TriageConfig R}

theorem coherent_new (provider : Provider R) (config : TriageConfig R) :
    Coherent provider config (new provider config) where
  provider_eq := rfl
  config_eq := rfl
  report_eq := by
    intro board hKnows
    cases hKnows

theorem Coherent.refresh {e : Engine R} (h : Coherent provider config e) (board : Board) :
    Coherent provider config (e.refresh board) := by
  rw [Engine.refresh]
  split
  · exact h
  · refine ⟨h.provider_eq, h.config_eq, ?_⟩
    intro other hKnows
    -- a board that is known after the pass has the fingerprint of the one that was passed over
    have hSame : Taskboard.fingerprint board = Taskboard.fingerprint other :=
      Option.some.inj (knows_iff.mp hKnows)
    show Report.compute e.provider e.config board = Report.compute provider config other
    rw [h.provider_eq, h.config_eq, Report.compute_congr provider config hSame]

/-- **One operation keeps the invariant.** -/
theorem Coherent.call {e : Engine R} (h : Coherent provider config e) (c : Call) :
    Coherent provider config (e.call c).2 := by
  obtain ⟨d, hCall⟩ := call_eq e c
  have hOther : Coherent provider config ({ e with debouncer := d } : Engine R) :=
    ⟨h.provider_eq, h.config_eq, h.report_eq⟩
  rw [hCall]
  split
  · exact hOther.refresh c.board
  · exact hOther

/-- **A run keeps the invariant.** -/
theorem Coherent.run {e : Engine R} (h : Coherent provider config e) (calls : List Call) :
    Coherent provider config (e.run calls) := by
  induction calls generalizing e with
  | nil => exact h
  | cons c rest ih =>
    rw [run_cons]
    exact ih (h.call c)

/-! ## Reports -/

theorem Coherent.report_of_reports {e : Engine R} (h : Coherent provider config e) {c : Call}
    (hReports : e.reports c = true) :
    (e.call c).2.report = .compute provider config c.board := by
  refine (h.call c).report_eq c.board ?_
  obtain ⟨d, hCall⟩ := call_eq e c
  rw [hCall, if_pos hReports]
  exact knows_iff.mpr (fingerprint_refresh _ _)

theorem passes_run (e : Engine R) (calls : List Call) :
    (e.run calls).passes = e.passes + changes e.fingerprint (boardsWhere reports e calls) := by
  induction calls generalizing e with
  | nil => rfl
  | cons c rest ih =>
    obtain ⟨d, hCall⟩ := call_eq e c
    rw [run_cons, ih, boardsWhere_cons]
    by_cases hReports : e.reports c = true
    · rw [if_pos hReports] at hCall
      -- what counts as a change is decided by the fingerprint before, and then that of the board
      rw [hCall, if_pos hReports, passes_refresh, fingerprint_refresh, List.singleton_append,
        changes, Nat.add_assoc]
    · rw [if_neg hReports] at hCall
      -- report, fingerprint and passes stay, and the board is not among the counted
      rw [hCall, if_neg hReports, List.nil_append]

/--
**Every report is the one of a fresh pass.** Whatever operations are called on a new engine, with
whatever boards and times: an operation that answers with a report answers with what a pass over
its board computes at that moment, although passes are left out; and the passes are as many as the
answers on a board with another fingerprint than the one before.
-/
theorem run_reports_compute (provider : Provider R) (config : TriageConfig R)
    (calls : List Call) :
    (∀ step ∈ (new provider config).trace calls, step.1.reports step.2 = true →
      (step.1.call step.2).2.report = .compute provider config step.2.board) ∧
    ((new provider config).run calls).passes =
      changes none (boardsWhere reports (new provider config) calls) := by
  constructor
  · rintro ⟨e, c⟩ hStep hReports
    -- the engine of a step has been reached by the operations before, so it is coherent
    obtain ⟨before, after, -, rfl⟩ := mem_trace_iff.mp hStep
    exact ((coherent_new provider config).run before).report_of_reports hReports
  · rw [passes_run]
    exact Nat.zero_add _

/-! ## Nothing is lost -/

/-- After a run, the last board that was heeded is known, or else something waits. -/
theorem isPending_or_knows_of_getLast? {e : Engine R} {calls : List Call} {board : Board}
    (hLast : (boardsWhere heeds e calls).getLast? = some board) :
    (e.run calls).isPending = true ∨ (e.run calls).knows board = true := by
  induction calls using List.reverseRecOn generalizing board with
  | nil => cases hLast
  | append_singleton calls c ih =>
    rw [boardsWhere_concat] at hLast
    rw [run_concat]
    -- the last heeded board is that of the last operation, or the one before stays it
    by_cases hHeeds : (e.run calls).heeds c = true
    · rw [if_pos hHeeds, List.getLast?_concat, Option.some.injEq] at hLast
      subst hLast
      exact isPending_or_knows_of_heeds hHeeds
    · rw [Bool.not_eq_true] at hHeeds
      rw [hHeeds, if_neg (by decide), List.append_nil] at hLast
      rw [call_of_not_heeds hHeeds]
      exact ih hLast

/--
**No structural change is lost.** Whatever operations are called on a new engine, at whatever
times: when nothing waits, the report is what a pass over the last heeded board computes.
-/
theorem report_eq_compute_of_not_isPending (provider : Provider R) (config : TriageConfig R)
    (calls : List Call) (board : Board)
    (hLast : (boardsWhere heeds (new provider config) calls).getLast? = some board)
    (hIdle : ((new provider config).run calls).isPending = false) :
    ((new provider config).run calls).report = .compute provider config board := by
  rcases isPending_or_knows_of_getLast? hLast with hPending | hKnows
  · rw [hIdle] at hPending
    cases hPending
  · exact ((coherent_new provider config).run calls).report_eq board hKnows

/-- A wait that began with another board and was cancelled: the report is on the board that was
heeded last. -/
theorem report_after_cancelled_wait :
    let start : Engine Rat := new (.computed .standard) { ranking := .standard }
    let board : Board := [{ id := "a", blocking := some ["b"] }, { id := "b" }]
    let calls := [Call.notify [] 0, .refresh board, .notify board 10]
    (boardsWhere heeds start calls).getLast? = some board ∧ (start.run calls).isPending = false ∧
      (start.run calls).report = .compute (.computed .standard) { ranking := .standard } board := by
  intro start board calls
  have hLast : (boardsWhere heeds start calls).getLast? = some board := rfl
  have hIdle : (start.run calls).isPending = false := by
    have hKnown := knows_iff.mpr (fingerprint_refresh (start.notify [] 0).2 board)
    show (((start.notify [] 0).2.refresh board).notify board 10).2.isPending = false
    rw [notify, if_pos hKnown]
    rfl
  exact ⟨hLast, hIdle, report_eq_compute_of_not_isPending _ _ calls board hLast hIdle⟩

end Engine

end Taskboard
