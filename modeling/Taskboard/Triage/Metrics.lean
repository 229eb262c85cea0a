import Taskboard.Board.Priority
import Taskboard.Centrality.Scalar

/-!
# Taskboard — the metrics of an item

* `Metrics` — what is known of an item's place on its board;
* `Metrics.criticalScore`, `Metrics.impactScore` — the scores that follow from it;
* `ImpactLevel` — four ranges of the impact score;
* `Standing.compare` — the order of items by impact;
* `unblockBadge` — a short text for the number of items that wait.
-/

namespace Taskboard

open Scalar

/-- The place of an item on its board. -/
structure Metrics (R : Type) where
  pageRank     : R
  betweenness  : R
  inDegree     : Nat
  outDegree    : Nat
  unblockCount : Nat
  depth        : Nat
  weight       : Nat

/-! ## Scores -/

/-- The least weight, that of high priority, with which an item can be critical. -/
def criticalWeight : Nat := 3

namespace Metrics

variable {R : Type} [Scalar R]

/-- The links on both sides. -/
def degree (m : Metrics R) : Nat :=
  m.inDegree + m.outDegree

/-- Whether nothing blocks the item. -/
def isReady (m : Metrics R) : Bool :=
  m.inDegree == 0

/-- Whether the item is urgent or high and blocks something. -/
def isCritical (m : Metrics R) : Bool :=
  criticalWeight ≤ m.weight && 0 < m.outDegree

/-- `weight * (1 + out) * (1 + unblock / 2)`. -/
def criticalScore (m : Metrics R) : R :=
  natural m.weight * (natural 1 + natural m.outDegree) *
    (natural 1 + natural m.unblockCount * ratio 1 2)

/-- A count at some points each, never above a hundred. -/
def capped (points count : Nat) : R :=
  natural (min (points * count) 100)

/-- The blend of page rank, betweenness, blocked items and unblocked items, each on a scale from 0
to 100. -/
def impactScore (m : Metrics R) : R :=
  ratio 3 10 * (clamp m.pageRank * natural 100) +
    ratio 1 5 * (clamp m.betweenness * natural 100) +
    ratio 1 4 * capped 10 m.outDegree +
    ratio 1 4 * capped 5 m.unblockCount

end Metrics

/-! ## Impact -/

/-- A range of the impact score. -/
inductive ImpactLevel where
  | low
  | medium
  | high
  | critical
  deriving DecidableEq, Repr

namespace ImpactLevel

/-- The name of a level. -/
def name : ImpactLevel → String
  | .low => "low"
  | .medium => "medium"
  | .high => "high"
  | .critical => "critical"

/-- The level with a name. -/
def ofName? (name : String) : Option ImpactLevel :=
  [.low, .medium, .high, .critical].find? fun l => l.name == name

/-- The place of a level, the lowest first. -/
def rank : ImpactLevel → Nat
  | .low => 0
  | .medium => 1
  | .high => 2
  | .critical => 3

/-- The level of a score. What compares with no number is low. -/
def ofScore {R : Type} [Scalar R] (score : R) : ImpactLevel :=
  if atMost (natural 50) score then .critical
  else if atMost (natural 25) score then .high
  else if atMost (natural 10) score then .medium
  else .low

end ImpactLevel

/-- What decides the place of an item in the ranking. -/
structure Standing (R : Type) where
  impact       : R
  unblockCount : Nat
  critical     : Bool

namespace Standing

variable {R : Type} [Scalar R]

/-- The standing of an item without metrics. -/
def zero : Standing R :=
  ⟨natural 0, 0, false⟩

/-- The standing that metrics give. -/
def ofMetrics (m : Metrics R) : Standing R :=
  ⟨m.impactScore, m.unblockCount, m.isCritical⟩

/-- Higher impact first, then more unblocked items, then critical items. -/
def compare (a b : Standing R) : Ordering :=
  -- the second operand first: what is greater stands in front
  (Scalar.order b.impact a.impact).then <|
    (Ord.compare b.unblockCount a.unblockCount).then (Ord.compare b.critical a.critical)

/-- Whether the first of two need not stand behind the second. -/
def le (a b : Standing R) : Bool :=
  a.compare b != .gt

end Standing

/-- A list by standing; what is equal keeps its order. -/
def sortByImpact {R α : Type} [Scalar R] (standing : α → Standing R) (xs : List α) : List α :=
  xs.mergeSort fun a b => (standing a).le (standing b)

/-- The badge for a number of items that wait for one. -/
def unblockBadge : Nat → Option String
  | 0 => none
  | 1 => some "Unblocks 1 item"
  | count => some ("Unblocks " ++ toString count ++ " items")

end Taskboard
