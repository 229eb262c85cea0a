import Taskboard.Proofs.Triage.Freshness

/-!
# Taskboard — when a wait is over

A debouncer keeps one deadline and no history. That this is enough is a statement about histories:
a poll finds something due exactly if the last notification asked for a pass, the quiet time has
gone by since, and no poll has used the request up. Neither refreshes nor the order of times have a
say in it.

* `Engine.endsWait` — the operations that a request does not outlive;
* `Engine.WaitsSince` — a run whose last request still waits, said of its operations;
* `Engine.deadline_call_iff` — the deadline after one operation;
* `Engine.deadline_run_iff` — the deadline after a run is that of the request that still waits;
* `Engine.poll_answers_iff_waitsSince` — when a poll answers, and what polls and notifications leave
  alone.
-/

namespace Taskboard

/-- Whether an operation is a refresh. -/
def Call.isRefresh : Call → Bool
  | .refresh _ => true
  | _ => false

/-- Whether an operation is a notification. -/
def Call.isNotify : Call → Bool
  | .notify _ _ => true
  | _ => false

namespace Engine

variable {R : Type} [Scalar R]

/-- Whether an operation ends the wait that an earlier notification began: another notification,
whatever it returns, or a poll that finds something due. -/
def endsWait (e : Engine R) : Call → Bool
  | .refresh _ => false
  | .notify _ _ => true
  | .poll board now => (e.poll board now).1

/-- A request from the time `asked` still waits after some operations: a notification at that time
returned true, and nothing has ended its wait since. -/
def WaitsSince (e : Engine R) (calls : List Call) (asked : Nat) : Prop :=
  ∃ before board after, calls = before ++ .notify board asked :: after ∧
    ((e.run before).notify board asked).1 = true ∧
    ∀ step ∈ (e.run (before ++ [.notify board asked])).trace after,
      step.1.endsWait step.2 = false

/-! ## One operation -/

theorem debouncer_refresh (e : Engine R) (board : Board) :
    (e.refresh board).debouncer = e.debouncer := by
  rw [refresh]
  split <;> rfl

omit [Scalar R] in
theorem notify_of_knows {e : Engine R} {board : Board} {now : Nat} (h : e.knows board = true) :
    e.notify board now = (false, { e with debouncer := e.debouncer.cancel }) := by
  rw [notify, if_pos h]

omit [Scalar R] in
theorem notify_of_not_knows {e : Engine R} {board : Board} {now : Nat}
    (h : ¬ e.knows board = true) :
    e.notify board now = (true, { e with debouncer := e.debouncer.request now }) := by
  rw [notify, if_neg h]

theorem poll_fst (e : Engine R) (board : Board) (now : Nat) :
    (e.poll board now).1 = e.debouncer.isDue now := by
  rw [poll_eq]
  cases e.debouncer.isDue now <;> rfl

theorem debouncer_poll (e : Engine R) (board : Board) (now : Nat) :
    (e.poll board now).2.debouncer = (e.debouncer.takeDue now).2 := by
  rw [poll_eq, Debouncer.takeDue]
  by_cases hDue : e.debouncer.isDue now = true
  · rw [if_pos hDue, if_pos hDue, debouncer_refresh]
  · rw [if_neg hDue, if_neg hDue]

theorem delay_call (e : Engine R) (c : Call) :
    (e.call c).2.debouncer.delay = e.debouncer.delay := by
  cases c with
  | refresh board => rw [call, debouncer_refresh]
  | notify board now =>
    rw [call, notify]
    split <;> rfl
  | poll board now =>
    rw [call, debouncer_poll, Debouncer.takeDue]
    split <;> rfl

/-- **The deadline after one operation**: that of a request which it made, or the one before if the
operation did not end the wait. -/
theorem deadline_call_iff {e : Engine R} {c : Call} {deadline : Nat} :
    (e.call c).2.debouncer.deadline = some deadline ↔
      (∃ board asked, c = .notify board asked ∧ (e.notify board asked).1 = true ∧
        deadline = asked + e.debouncer.delay) ∨
      (e.endsWait c = false ∧ e.debouncer.deadline = some deadline) := by
  cases c with
  | refresh board =>
    rw [call, debouncer_refresh]
    simp [endsWait]
  | notify board now =>
    rw [call]
    by_cases hKnows : e.knows board = true
    · rw [notify_of_knows hKnows, Debouncer.cancel]
      simp [endsWait, notify_of_knows hKnows]
    · rw [notify_of_not_knows hKnows, Debouncer.request]
      simp only [endsWait, Option.some.injEq, Call.notify.injEq, Bool.true_eq_false, false_and,
        or_false]
      constructor
      · rintro rfl
        exact ⟨board, now, ⟨rfl, rfl⟩, by rw [notify_of_not_knows hKnows], rfl⟩
      · rintro ⟨_, _, ⟨rfl, rfl⟩, -, rfl⟩
        rfl
  | poll board now =>
    rw [call, debouncer_poll, endsWait, poll_fst, Debouncer.takeDue]
    by_cases hDue : e.debouncer.isDue now = true
    · simp [hDue, Debouncer.cancel]
    · simp [hDue]

/-! ## Runs -/

theorem run_append (e : Engine R) (before after : List Call) :
    e.run (before ++ after) = (e.run before).run after := by
  rw [run, List.foldl_append, run, run]

theorem delay_run (e : Engine R) (calls : List Call) :
    (e.run calls).debouncer.delay = e.debouncer.delay := by
  induction calls generalizing e with
  | nil => rfl
  | cons c rest ih => rw [run_cons, ih, delay_call]

/-- After one more operation a request waits if it was made by that operation, or waited before and
was not ended by it. -/
theorem waitsSince_concat {e : Engine R} {calls : List Call} {c : Call} {asked : Nat} :
    e.WaitsSince (calls ++ [c]) asked ↔
      (∃ board, c = .notify board asked ∧ ((e.run calls).notify board asked).1 = true) ∨
      ((e.run calls).endsWait c = false ∧ e.WaitsSince calls asked) := by
  constructor
  · rintro ⟨before, board, after, hCalls, hAsked, hWaits⟩
    -- the request is the last operation, or another one came behind it
    rcases List.eq_nil_or_concat after with rfl | ⟨after, d, rfl⟩
    · obtain ⟨rfl, hLast⟩ := List.append_inj' hCalls rfl
      exact Or.inl ⟨board, (List.cons.inj hLast).1, hAsked⟩
    · rw [List.concat_eq_append, ← List.cons_append, ← List.append_assoc] at hCalls
      obtain ⟨rfl, hLast⟩ := List.append_inj' hCalls rfl
      obtain rfl : c = d := (List.cons.inj hLast).1
      rw [List.concat_eq_append, trace_concat, ← run_append, List.append_assoc,
        List.singleton_append] at hWaits
      have hOutlived := hWaits _ (List.mem_append_right _ List.mem_cons_self)
      refine Or.inr ⟨hOutlived, before, board, after, rfl, hAsked, ?_⟩
      intro step hStep
      exact hWaits step (List.mem_append_left _ hStep)
  · rintro (⟨board, rfl, hAsked⟩ | ⟨hLast, before, board, after, rfl, hAsked, hWaits⟩)
    · exact ⟨calls, board, [], rfl, hAsked, by simp [trace]⟩
    · refine ⟨before, board, after ++ [c], by simp, hAsked, ?_⟩
      intro step hStep
      rw [trace_concat, ← run_append, List.append_assoc, List.singleton_append, List.mem_append,
        List.mem_singleton] at hStep
      rcases hStep with hStep | rfl
      · exact hWaits step hStep
      · exact hLast

/-- **The deadline after a run is that of the request that still waits.** -/
theorem deadline_run_iff (provider : Provider R) (config : TriageConfig R) (calls : List Call)
    (deadline : Nat) :
    ((new provider config).run calls).debouncer.deadline = some deadline ↔
      ∃ asked, (new provider config).WaitsSince calls asked ∧ deadline = asked + config.quiet := by
  -- the last operation decides: either it made the request or it let an earlier one wait on
  induction calls using List.reverseRecOn with
  | nil => simp [run, new, WaitsSince]
  | append_singleton calls c ih =>
    have hDelay : ((new provider config).run calls).debouncer.delay = config.quiet := delay_run _ _
    rw [run_concat, deadline_call_iff, ih, hDelay]
    simp only [waitsSince_concat]
    constructor
    · rintro (⟨board, asked, rfl, hAsked, rfl⟩ | ⟨hEnds, asked, hWaits, rfl⟩)
      · exact ⟨asked, Or.inl ⟨board, rfl, hAsked⟩, rfl⟩
      · exact ⟨asked, Or.inr ⟨hEnds, hWaits⟩, rfl⟩
    · rintro ⟨asked, ⟨board, rfl, hAsked⟩ | ⟨hEnds, hWaits⟩, rfl⟩
      · exact Or.inl ⟨board, asked, rfl, hAsked, rfl⟩
      · exact Or.inr ⟨hEnds, asked, hWaits, rfl⟩

/-- Refreshes do not move the deadline, as long as no notification asks whether their board is
known. -/
theorem debouncer_run_filter {e e' : Engine R} (h : e.debouncer = e'.debouncer) {calls : List Call}
    (hCalls : ∀ c ∈ calls, c.isNotify = false) :
    (e.run calls).debouncer = (e'.run (calls.filter fun c => !c.isRefresh)).debouncer := by
  -- the engines may part in all but their debouncers, for the refreshes are made on one side only
  induction calls generalizing e e' with
  | nil => exact h
  | cons c rest ih =>
    have hRest : ∀ c ∈ rest, c.isNotify = false :=
      fun c hMem => hCalls c (List.mem_cons_of_mem _ hMem)
    cases c with
    | refresh board =>
      have hSame : (e.refresh board).debouncer = e'.debouncer := (debouncer_refresh e board).trans h
      exact ih hSame hRest
    | notify board now => exact absurd (hCalls _ List.mem_cons_self) (by simp [Call.isNotify])
    | poll board now =>
      have hSame : (e.poll board now).2.debouncer = (e'.poll board now).2.debouncer := by
        rw [debouncer_poll, debouncer_poll, h]
      exact ih hSame hRest

/--
**Trailing edge.** Whatever operations are called on a new engine, at whatever times: a poll finds
something due exactly if an earlier notification returned true, the quiet time has gone by since,
and since then no other notification has come and no poll has found something due. Refreshes on the
way make no difference. A poll that finds nothing due leaves the engine as it is, and a notification
leaves report, fingerprint and passes as they are.
-/
theorem poll_answers_iff_waitsSince (provider : Provider R) (config : TriageConfig R)
    (calls : List Call) :
    let start := new provider config
    let e := start.run calls
    (∀ board now, (e.poll board now).1 = true ↔
      ∃ asked, start.WaitsSince calls asked ∧ asked + config.quiet ≤ now) ∧
    (∀ between, (∀ c ∈ between, c.isNotify = false) → ∀ board now,
      ((e.run between).poll board now).1 =
        ((e.run (between.filter fun c => !c.isRefresh)).poll board now).1) ∧
    (∀ board now, (e.poll board now).1 = false → (e.poll board now).2 = e) ∧
    (∀ board now, (e.notify board now).2.report = e.report ∧
      (e.notify board now).2.fingerprint = e.fingerprint ∧
      (e.notify board now).2.passes = e.passes) := by
  intro start e
  refine ⟨fun board now => ?_, fun between hBetween board now => ?_, fun board now hNone => ?_,
    fun board now => ?_⟩
  · rw [poll_fst, Debouncer.isDue, Option.any_eq_true]
    constructor
    · rintro ⟨deadline, hDeadline, hDue⟩
      obtain ⟨asked, hWaits, rfl⟩ := (deadline_run_iff provider config calls deadline).mp hDeadline
      exact ⟨asked, hWaits, of_decide_eq_true hDue⟩
    · rintro ⟨asked, hWaits, hDue⟩
      have hDeadline := (deadline_run_iff provider config calls _).mpr ⟨asked, hWaits, rfl⟩
      exact ⟨asked + config.quiet, hDeadline, decide_eq_true hDue⟩
  · -- whether a poll answers is decided by the debouncer alone
    rw [poll_fst, poll_fst, debouncer_run_filter rfl hBetween]
  · exact call_of_not_heeds (c := .poll board now) hNone
  · rw [notify]
    split <;> exact ⟨rfl, rfl, rfl⟩

/-- A request outlives a refresh and a poll that comes too early, and is found when its time has
come. -/
theorem poll_answers_at_deadline :
    let start : Engine Rat := new (.computed .standard) { ranking := .standard }
    let board : Board := [{ id := "a", blocking := some ["b"] }, { id := "b" }]
    let calls := [Call.notify [] 0, .refresh board, .poll board 299]
    start.WaitsSince calls 0 ∧ ((start.run calls).poll board 300).1 = true := by
  intro start board calls
  have hEarly : (((start.notify [] 0).2.refresh board).poll board 299).1 = false := by
    rw [poll_fst, debouncer_refresh]
    rfl
  have hWaits : start.WaitsSince calls 0 := by
    refine ⟨[], [], [.refresh board, .poll board 299], rfl, rfl, ?_⟩
    intro step hStep
    rcases List.mem_cons.mp hStep with rfl | hStep
    · rfl
    · obtain rfl := List.mem_singleton.mp hStep
      exact hEarly
  have hAnswers := (poll_answers_iff_waitsSince start.provider start.config calls).1 board 300
  exact ⟨hWaits, hAnswers.mpr ⟨0, hWaits, by decide⟩⟩

end Engine

end Taskboard
