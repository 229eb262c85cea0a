/-!
# Taskboard — waiting for rest

A burst of changes should lead to one pass, at the end of the burst. A debouncer waits until no
request has come for some time. It has no clock of its own; times are milliseconds and need not
grow.

* `Debouncer` — the time to wait, and the deadline of a request;
* `Debouncer.request`, `Debouncer.cancel` — set and clear the deadline;
* `Debouncer.isDue`, `Debouncer.takeDue` — look at it, and use it up.
-/

namespace Taskboard

/-- A time to wait, and the deadline if something waits. -/
structure Debouncer where
  delay    : Nat
  deadline : Option Nat := none
  deriving DecidableEq, Repr

namespace Debouncer

/-- Something shall happen a delay after now; an earlier request is forgotten. -/
def request (d : Debouncer) (now : Nat) : Debouncer :=
  { d with deadline := some (now + d.delay) }

/-- Nothing waits any more. -/
def cancel (d : Debouncer) : Debouncer :=
  { d with deadline := none }

/-- Whether something waits. -/
def isPending (d : Debouncer) : Bool :=
  d.deadline.isSome

/-- Whether something waits and its deadline is there. -/
def isDue (d : Debouncer) (now : Nat) : Bool :=
  d.deadline.any fun deadline => deadline ≤ now

/-- Whether something is due, and the debouncer without it. What is not due goes on waiting. -/
def takeDue (d : Debouncer) (now : Nat) : Bool × Debouncer :=
  if d.isDue now then (true, d.cancel) else (false, d)

end Debouncer

end Taskboard
