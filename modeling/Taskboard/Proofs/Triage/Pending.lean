import Taskboard.Proofs.Triage.Waiting

/-!
# Taskboard — what a waiting request is about

A request is made when a board differs from the one that the report was computed from, and a later
notification or poll that brings the two into agreement drops it. A refresh brings them into
agreement too, but it has no say in what waits. So while something waits the report is behind the
board that was heeded last, unless that board came with a refresh: then the report is up to date,
and the request goes on waiting with nothing left to compute.

* `Engine.runsPass`, `Engine.computedFrom` — the board that the report was computed from;
* `Engine.lastHeeded` — the operation that was heeded last;
* `Engine.knows_run_iff`, `Engine.report_run` — what is known, and what is reported, is that board;
* `Engine.isPending_call_iff` — what waits after one operation;
* `Engine.lastHeeded_of_isPending` — what was heeded last while something waits;
* `Engine.waitsSince_append_iff` — a request outlives the operations that do not end its wait;
* `Engine.pending_differs_or_refreshed` — what waits after a run, and after a refresh behind it.
-/

namespace Taskboard

namespace Engine

variable {R : Type} [Scalar R]

/-- Whether an operation runs a pass: it answers with a report on a board that is not known. -/
def runsPass (e : Engine R) (c : Call) : Bool :=
  e.reports c && !e.knows c.board

/-- The board that the report after a run was computed from: that of the last pass. -/
def computedFrom (e : Engine R) (calls : List Call) : Option Board :=
  (boardsWhere runsPass e calls).getLast?

/-- The last operation of a run that was heeded. -/
def lastHeeded (e : Engine R) (calls : List Call) : Option Call :=
  (((e.trace calls).filter fun step => step.1.heeds step.2).map (·.2)).getLast?

theorem computedFrom_concat (e : Engine R) (calls : List Call) (c : Call) :
    e.computedFrom (calls ++ [c]) =
      if (e.run calls).runsPass c then some c.board else e.computedFrom calls := by
  rw [computedFrom, boardsWhere_concat]
  split
  · rw [List.getLast?_concat]
  · rw [List.append_nil, computedFrom]

theorem lastHeeded_concat (e : Engine R) (calls : List Call) (c : Call) :
    e.lastHeeded (calls ++ [c]) =
      if (e.run calls).heeds c then some c else e.lastHeeded calls := by
  rw [lastHeeded, trace_concat, List.filter_append, List.map_append, List.filter_cons]
  split
  · rw [List.filter_nil, List.map_singleton, List.getLast?_concat]
  · rw [List.filter_nil, List.map_nil, List.append_nil, lastHeeded]

/-! ## The board of the report -/

/-- **All that an operation does, by its pass.** It runs one over its board, or leaves report,
fingerprint and passes alone. Only what waits may change besides. -/
theorem call_eq_pass (e : Engine R) (c : Call) :
    ∃ d, (e.call c).2 =
      if e.runsPass c then ({ e with debouncer := d } : Engine R).pass c.board
      else { e with debouncer := d } := by
  obtain ⟨d, hCall⟩ := call_eq e c
  refine ⟨d, ?_⟩
  rw [hCall, runsPass]
  by_cases hReports : e.reports c = true
  · -- what waits has no say in what is known
    have hKnows : ({ e with debouncer := d } : Engine R).knows c.board = e.knows c.board := rfl
    rw [if_pos hReports, refresh, hKnows, hReports, Bool.true_and]
    cases e.knows c.board <;> rfl
  · rw [if_neg hReports, Bool.eq_false_of_not_eq_true hReports, Bool.false_and, if_neg (by decide)]

variable (provider : Provider R) (config : TriageConfig R)

/-- **What an engine knows is the board that its report was computed from.** -/
theorem knows_run_iff (calls : List Call) (board : Board) :
    ((new provider config).run calls).knows board = true ↔
      ((new provider config).computedFrom calls).map Taskboard.fingerprint =
        some (Taskboard.fingerprint board) := by
  have hFingerprint : ((new provider config).run calls).fingerprint =
      ((new provider config).computedFrom calls).map Taskboard.fingerprint := by
    induction calls using List.reverseRecOn with
    | nil => rfl
    | append_singleton calls c ih =>
      obtain ⟨d, hCall⟩ := call_eq_pass ((new provider config).run calls) c
      rw [run_concat, hCall, computedFrom_concat]
      split
      · rfl
      · exact ih
  rw [knows_iff, hFingerprint]

theorem report_run {calls : List Call} {board : Board}
    (h : (new provider config).computedFrom calls = some board) :
    ((new provider config).run calls).report = .compute provider config board :=
  ((coherent_new provider config).run calls).report_eq board
    ((knows_run_iff provider config calls board).mpr (by rw [h, Option.map_some]))

/-! ## What waits -/

omit [Scalar R] in
theorem isPending_iff {e : Engine R} :
    e.isPending = true ↔ ∃ deadline, e.debouncer.deadline = some deadline :=
  Option.isSome_iff_exists

theorem isPending_refresh (e : Engine R) (board : Board) :
    (e.refresh board).isPending = e.isPending := by
  rw [isPending, debouncer_refresh, isPending]

omit [Scalar R] in
theorem notify_fst (e : Engine R) (board : Board) (now : Nat) :
    (e.notify board now).1 = !e.knows board := by
  rw [notify]
  cases e.knows board <;> rfl

/-- **What waits after one operation**: a request that it made, or what waited before if the
operation did not end the wait. -/
theorem isPending_call_iff {e : Engine R} {c : Call} :
    (e.call c).2.isPending = true ↔
      c.isNotify = true ∧ e.knows c.board = false ∨ e.endsWait c = false ∧ e.isPending = true := by
  simp only [isPending_iff, deadline_call_iff]
  constructor
  · rintro ⟨deadline, ⟨board, asked, rfl, hAsked, -⟩ | ⟨hEnds, hDeadline⟩⟩
    · rw [notify_fst, Bool.not_eq_true'] at hAsked
      exact Or.inl ⟨rfl, hAsked⟩
    · exact Or.inr ⟨hEnds, deadline, hDeadline⟩
  · rintro (⟨hNotify, hKnows⟩ | ⟨hEnds, deadline, hDeadline⟩)
    · cases c with
      | refresh board => cases hNotify
      | poll board now => cases hNotify
      | notify board now =>
        have hAsked : (e.notify board now).1 = true := by
          rw [notify_fst, Bool.not_eq_true']
          exact hKnows
        exact ⟨_, Or.inl ⟨board, now, rfl, hAsked, rfl⟩⟩
    · exact ⟨deadline, Or.inr ⟨hEnds, hDeadline⟩⟩

/-- **What was heeded last while something waits**: a notification of a board that is not known, or
a refresh. -/
theorem lastHeeded_of_isPending {e : Engine R} (hIdle : e.isPending = false) {calls : List Call}
    (h : (e.run calls).isPending = true) :
    ∃ c, e.lastHeeded calls = some c ∧
      (c.isNotify = true ∧ (e.run calls).knows c.board = false ∨
        c.isRefresh = true ∧ (e.run calls).knows c.board = true) := by
  induction calls using List.reverseRecOn with
  | nil => exact absurd h (Bool.eq_false_iff.mp hIdle)
  | append_singleton calls c ih =>
    rw [run_concat] at h ⊢
    rw [lastHeeded_concat]
    cases c with
    | refresh board =>
      exact ⟨.refresh board, rfl, Or.inr ⟨rfl, knows_iff.mpr (fingerprint_refresh _ _)⟩⟩
    | notify board now =>
      rcases isPending_call_iff.mp h with ⟨-, hKnows⟩ | ⟨hEnds, -⟩
      · have hCall : ((e.run calls).call (.notify board now)).2.knows board = false := by
          have hNotKnows : ¬ (e.run calls).knows board = true := Bool.eq_false_iff.mp hKnows
          rw [call, notify_of_not_knows hNotKnows]
          exact hKnows
        exact ⟨.notify board now, rfl, Or.inl ⟨rfl, hCall⟩⟩
      · cases hEnds
    | poll board now =>
      rcases isPending_call_iff.mp h with ⟨hNotify, -⟩ | ⟨hEnds, hPending⟩
      · cases hNotify
      · -- a poll that does not end the wait is not heeded, and changes nothing
        have hHeeds : (e.run calls).heeds (.poll board now) = false := hEnds
        rw [hHeeds, if_neg (by decide), call_of_not_heeds hHeeds]
        exact ih hPending

/-- A request outlives the operations that do not end its wait, and no others. -/
theorem waitsSince_append_iff {e : Engine R} {calls after : List Call} {asked : Nat}
    (hAfter : ∀ c ∈ after, c.isNotify = false) :
    e.WaitsSince (calls ++ after) asked ↔
      e.WaitsSince calls asked ∧
        ∀ step ∈ (e.run calls).trace after, step.1.endsWait step.2 = false := by
  induction after using List.reverseRecOn with
  | nil => simp [trace]
  | append_singleton after c ih =>
    have hLast : c.isNotify = false := hAfter c (by simp)
    have hBefore : ∀ c ∈ after, c.isNotify = false :=
      fun c hc => hAfter c (List.mem_append_left _ hc)
    rw [← List.append_assoc, waitsSince_concat, ih hBefore, trace_concat, run_append]
    constructor
    · rintro (⟨board, rfl, -⟩ | ⟨hEnds, hWaits, hSteps⟩)
      · cases hLast
      · refine ⟨hWaits, fun step hStep => ?_⟩
        rcases List.mem_append.mp hStep with hStep | hStep
        · exact hSteps step hStep
        · rw [List.mem_singleton.mp hStep]
          exact hEnds
    · rintro ⟨hWaits, hSteps⟩
      exact Or.inr ⟨hSteps _ (List.mem_append_right _ List.mem_cons_self), hWaits,
        fun step hStep => hSteps step (List.mem_append_left _ hStep)⟩

theorem poll_fst_iff {e : Engine R} {board : Board} {now : Nat} :
    (e.poll board now).1 = true ↔
      ∃ deadline, e.debouncer.deadline = some deadline ∧ deadline ≤ now := by
  rw [poll_fst, Debouncer.isDue, Option.any_eq_true]
  simp only [decide_eq_true_eq]

/-- **A poll after a refresh, with no notification in between**, answers the request that waited
before the refresh. -/
theorem poll_after_refresh_iff (calls : List Call) (board : Board) {between : List Call}
    (hBetween : ∀ c ∈ between, c.isNotify = false) (polled : Board) (now : Nat) :
    let start := new provider config
    let refreshed := (start.run calls).refresh board
    ((refreshed.run between).poll polled now).1 = true ↔
      (∃ asked, start.WaitsSince calls asked ∧ asked + config.quiet ≤ now) ∧
        ∀ step ∈ refreshed.trace between, step.1.endsWait step.2 = false := by
  intro start refreshed
  have hRun : refreshed.run between = start.run (calls ++ .refresh board :: between) := by
    rw [run_append, run_cons]
    rfl
  have hNone : ∀ c ∈ Call.refresh board :: between, c.isNotify = false :=
    List.forall_mem_cons.mpr ⟨rfl, hBetween⟩
  -- the refresh is a step of its own, which ends no wait
  have hTrace : (∀ step ∈ (start.run calls).trace (.refresh board :: between),
      step.1.endsWait step.2 = false) ↔
      ∀ step ∈ refreshed.trace between, step.1.endsWait step.2 = false := by
    rw [trace, List.forall_mem_cons]
    exact and_iff_right rfl
  rw [hRun, poll_fst_iff, ← hTrace]
  simp only [start, deadline_run_iff, waitsSince_append_iff hNone]
  constructor
  · rintro ⟨deadline, ⟨asked, ⟨hWaits, hSteps⟩, rfl⟩, hDue⟩
    exact ⟨⟨asked, hWaits, hDue⟩, hSteps⟩
  · rintro ⟨⟨asked, hWaits, hDue⟩, hSteps⟩
    exact ⟨asked + config.quiet, ⟨asked, ⟨hWaits, hSteps⟩, rfl⟩, hDue⟩

/--
**While something waits the report is behind, or a refresh has overtaken the request.** Whatever
operations are called on a new engine, at whatever times: if something waits, the operation heeded
last is a notification of a board with another fingerprint than the one that the report was computed
from, or it is a refresh and the fingerprints agree. What waits after a refresh is what waited
before it; and a poll that follows, with no notification in between, answers exactly if a request
from before the refresh still waits, the quiet time has gone by since, and no poll in between has
found it due.
-/
theorem pending_differs_or_refreshed (calls : List Call) :
    let start := new provider config
    let e := start.run calls
    (∀ board, start.computedFrom calls = some board → e.report = .compute provider config board) ∧
    (e.isPending = true → ∃ c, start.lastHeeded calls = some c ∧
      (c.isNotify = true ∧ (start.computedFrom calls).map Taskboard.fingerprint ≠
          some (Taskboard.fingerprint c.board) ∨
        c.isRefresh = true ∧ (start.computedFrom calls).map Taskboard.fingerprint =
          some (Taskboard.fingerprint c.board))) ∧
    (∀ board, (e.refresh board).isPending = e.isPending) ∧
    ∀ board between, (∀ c ∈ between, c.isNotify = false) → ∀ polled now,
      ((((e.refresh board).run between).poll polled now).1 = true ↔
        (∃ asked, start.WaitsSince calls asked ∧ asked + config.quiet ≤ now) ∧
          ∀ step ∈ (e.refresh board).trace between, step.1.endsWait step.2 = false) := by
  intro start e
  refine ⟨fun board hFrom => report_run provider config hFrom, fun hPending => ?_,
    isPending_refresh e, fun board between hBetween =>
      poll_after_refresh_iff provider config calls board hBetween⟩
  obtain ⟨c, hLast, hCases⟩ := lastHeeded_of_isPending rfl hPending
  refine ⟨c, hLast, ?_⟩
  rcases hCases with ⟨hNotify, hKnows⟩ | ⟨hRefresh, hKnows⟩
  · refine Or.inl ⟨hNotify, fun hSame => ?_⟩
    rw [(knows_run_iff provider config calls c.board).mpr hSame] at hKnows
    cases hKnows
  · exact Or.inr ⟨hRefresh, (knows_run_iff provider config calls c.board).mp hKnows⟩

/-- A request for a board that differs from the reported one outlives a refresh with that board and
a poll that comes too early. -/
theorem pending_after_empty_board :
    let start : Engine Rat := new (.computed .standard) { ranking := .standard }
    let board : Board := [{ id := "a", blocking := some ["b"] }, { id := "b" }]
    let calls := [Call.refresh [], .notify board 0]
    let e := start.run calls
    start.computedFrom calls = some [] ∧
      e.report = .compute (.computed .standard) { ranking := .standard } [] ∧
      e.isPending = true ∧ start.lastHeeded calls = some (.notify board 0) ∧
      (start.computedFrom calls).map Taskboard.fingerprint ≠ some (Taskboard.fingerprint board) ∧
      (e.refresh board).isPending = true ∧
      (((e.refresh board).run [.poll board 299]).poll board 300).1 = true := by
  intro start board calls e
  have hKnows : ¬ (start.refresh []).knows board = true := by
    rw [knows_iff, fingerprint_refresh]
    decide
  have hNotify : e = { start.refresh [] with debouncer := (start.refresh []).debouncer.request 0 } :=
    congrArg Prod.snd (notify_of_not_knows hKnows)
  have hPending : e.isPending = true := by rw [hNotify]; rfl
  obtain ⟨hReport, hLast, hRefresh, hPoll⟩ :=
    pending_differs_or_refreshed start.provider start.config calls
  obtain ⟨c, hc, hCases⟩ := hLast hPending
  obtain rfl : Call.notify board 0 = c := Option.some.inj hc
  have hDiffers : (start.computedFrom calls).map Taskboard.fingerprint ≠
      some (Taskboard.fingerprint board) := by
    rcases hCases with ⟨-, hDiffers⟩ | ⟨hNoRefresh, -⟩
    · exact hDiffers
    · cases hNoRefresh
  have hWaits : start.WaitsSince calls 0 :=
    ⟨[.refresh []], board, [], rfl, congrArg Prod.fst (notify_of_not_knows hKnows), by simp [trace]⟩
  have hEarly : ((e.refresh board).poll board 299).1 = false := by
    rw [poll_fst, debouncer_refresh, hNotify]
    rfl
  have hSteps : ∀ step ∈ (e.refresh board).trace [.poll board 299],
      step.1.endsWait step.2 = false := by simpa [trace, endsWait] using hEarly
  have hAnswers := (hPoll board [.poll board 299] (by simp [Call.isNotify]) board 300).mpr
    ⟨⟨0, hWaits, by decide⟩, hSteps⟩
  exact ⟨rfl, hReport [] rfl, hPending, hc, hDiffers, (hRefresh board).trans hPending, hAnswers⟩

/-- A board that is notified and then refreshed: the request still waits, and a poll of the same
board answers it, though the report is on that board already. -/
theorem pending_of_refreshed_board :
    let start : Engine Rat := new (.computed .standard) { ranking := .standard }
    let board : Board := [{ id := "a", blocking := some ["b"] }, { id := "b" }]
    let calls := [Call.notify board 0, .refresh board]
    (start.run calls).isPending = true ∧ start.lastHeeded calls = some (.refresh board) ∧
      start.computedFrom calls = some board ∧ ((start.run calls).poll board 300).1 = true := by
  intro start board calls
  have hDeadline : (start.run calls).debouncer = (start.notify board 0).2.debouncer :=
    debouncer_refresh (start.notify board 0).2 board
  refine ⟨?_, rfl, rfl, ?_⟩
  · rw [isPending, hDeadline]
    rfl
  · rw [poll_fst, hDeadline]
    rfl

end Engine

end Taskboard
