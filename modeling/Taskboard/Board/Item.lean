import Taskboard.Board.Priority
import Taskboard.Board.Properties
import Taskboard.Text.Blank

/-!
# Taskboard — work items

* `AgentSession`, `PullRequest` — what may be attached to an item;
* `WorkItem` — one item as a board supplies it;
* `WorkItem.blockers`, `WorkItem.blockedItems` — its links, absent lists read as empty;
* `WorkItem.shownStatus` — its status, derived when none is set.
-/

namespace Taskboard

/-- The stages of an agent session. -/
inductive AgentState where
  | idle
  | running
  | completed
  | failed
  deriving DecidableEq, Repr, Inhabited

/-- The name of a stage. -/
def AgentState.name : AgentState → String
  | .idle => "idle"
  | .running => "running"
  | .completed => "completed"
  | .failed => "failed"

/-- The stage with a name. -/
def AgentState.ofName? (name : String) : Option AgentState :=
  [.idle, .running, .completed, .failed].find? fun s => s.name == name

/-- The review states of a pull request. -/
inductive PrState where
  | opened
  | draft
  | merged
  | closed
  deriving DecidableEq, Repr, Inhabited

/-- The name of a review state. -/
def PrState.name : PrState → String
  | .opened => "open"
  | .draft => "draft"
  | .merged => "merged"
  | .closed => "closed"

/-- The review state with a name. -/
def PrState.ofName? (name : String) : Option PrState :=
  [.opened, .draft, .merged, .closed].find? fun s => s.name == name

/-- An agent that works, or has worked, on an item. -/
structure AgentSession where
  name  : String := ""
  state : AgentState := .idle
  deriving DecidableEq, Repr

/-- A pull request linked to an item. Its number has 64 bits. -/
structure PullRequest where
  number : UInt64 := 0
  url    : Option String := none
  state  : PrState := .opened
  deriving DecidableEq, Repr

/-- A work item. `ready` and `criticalPath` are data that came with it; triage judges for
itself. -/
structure WorkItem where
  id           : String := ""
  title        : String := ""
  description  : Option String := none
  status       : Option String := none
  priority     : Priority := .medium
  labels       : List String := []
  blockedBy    : Option (List String) := none
  blocking     : Option (List String) := none
  assignee     : Option String := none
  branch       : Option String := none
  pullRequest  : Option PullRequest := none
  agent        : Option AgentSession := none
  ready        : Bool := false
  criticalPath : Bool := false
  extra        : Properties := .empty

/-- The items of a board, in the order in which they were supplied. An id may occur more than
once. -/
abbrev Board := List WorkItem

/-- Ids in ascending order, repeated ones kept. -/
def sortIds (ids : List String) : List String :=
  ids.mergeSort fun a b => decide (a ≤ b)

namespace WorkItem

/-- The ids of the items that block this one. -/
def blockers (item : WorkItem) : List String :=
  item.blockedBy.getD []

/-- The ids of the items that this one blocks. -/
def blockedItems (item : WorkItem) : List String :=
  item.blocking.getD []

/-- Whether the item lists a blocker. -/
def isBlocked (item : WorkItem) : Bool :=
  !item.blockers.isEmpty

/-- Whether an agent is running on the item. -/
def hasRunningAgent (item : WorkItem) : Bool :=
  item.agent.any fun a => a.state == .running

/-- The status as a board shows it: the one that is set, if it is not empty, or else what follows
from the agent and the blockers. -/
def shownStatus (item : WorkItem) : String :=
  match item.status.filter fun s => s != "" with
  | some s => s
  | none =>
    if item.hasRunningAgent then "in_progress"
    else if item.isBlocked then "blocked"
    else "open"

end WorkItem

end Taskboard
