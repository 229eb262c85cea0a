import Taskboard.Triage.Debouncer
import Taskboard.Triage.Report

/-!
# Taskboard — the triage engine

An engine keeps the report on a board that changes. It runs a pass only when the fingerprint of
the board is not the one of the last pass, so that changes of titles or labels cost nothing.

* `Engine` — the last report and what it was made of;
* `Engine.refresh` — brings the report up to date at once;
* `Engine.notify` — tells of a change that can wait;
* `Engine.poll` — brings the report up to date if the wait is over;
* `Call`, `Engine.call`, `Engine.run` — the three operations as data.
-/

namespace Taskboard

/-- A report and what it was made of. -/
structure Engine (R : Type) where
  provider    : Provider R
  config      : TriageConfig R
  debouncer   : Debouncer
  fingerprint : Option String
  report      : Report R
  passes      : Nat

namespace Engine

variable {R : Type} [Scalar R]

/-- An engine that has seen no board. -/
def new (provider : Provider R) (config : TriageConfig R) : Engine R where
  provider := provider
  config := config
  debouncer := ⟨config.quiet, none⟩
  fingerprint := none
  report := .empty
  passes := 0

/-- Whether a change waits to be looked at. -/
def isPending (e : Engine R) : Bool :=
  e.debouncer.isPending

/-- Whether the last pass was over a board of the same structure. -/
def knows (e : Engine R) (board : Board) : Bool :=
  e.fingerprint == some (Taskboard.fingerprint board)

/-- Runs a pass. -/
def pass (e : Engine R) (board : Board) : Engine R :=
  { e with
    report := .compute e.provider e.config board
    fingerprint := some (Taskboard.fingerprint board)
    passes := e.passes + 1 }

/-- Runs a pass if the structure of the board has changed. What waits goes on waiting. -/
def refresh (e : Engine R) (board : Board) : Engine R :=
  if e.knows board then e else e.pass board

/-- Tells of a board. If its structure has changed a pass is requested, or else what waits is
cancelled. Returns whether it has changed. -/
def notify (e : Engine R) (board : Board) (now : Nat) : Bool × Engine R :=
  if e.knows board then (false, { e with debouncer := e.debouncer.cancel })
  else (true, { e with debouncer := e.debouncer.request now })

/-- Refreshes if a request is due. Returns whether one was. -/
def poll (e : Engine R) (board : Board) (now : Nat) : Bool × Engine R :=
  let taken := e.debouncer.takeDue now
  -- a request is used up even if the board turns out to be known
  if taken.1 then (true, { e with debouncer := taken.2 }.refresh board) else (false, e)

end Engine

/-- An operation on an engine. -/
inductive Call where
  | refresh (board : Board)
  | notify (board : Board) (now : Nat)
  | poll (board : Board) (now : Nat)

namespace Engine

variable {R : Type} [Scalar R]

/-- An operation, and what it returns. A refresh always succeeds. -/
def call (e : Engine R) : Call → Bool × Engine R
  | .refresh board => (true, e.refresh board)
  | .notify board now => e.notify board now
  | .poll board now => e.poll board now

/-- The engine after some operations. -/
def run (e : Engine R) (calls : List Call) : Engine R :=
  calls.foldl (fun e c => (e.call c).2) e

end Engine

end Taskboard
