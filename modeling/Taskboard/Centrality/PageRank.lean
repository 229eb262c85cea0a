import Taskboard.Centrality.Scalar
import Taskboard.Graph.Digraph

/-!
# Taskboard — page rank

Rank flows along the edges. In each round a node keeps a base share, receives an equal part of the
damped rank of every node in front of it, and an equal part of what the nodes without outgoing
edges hold.

```text
rank' v = (1 - d) / n + d * Σ rank u / out u + d * (Σ rank of dead ends) / n
```

* `RankConfig` — damping, tolerance and the most rounds;
* `Flow` — what the rounds need to know of a graph;
* `Flow.round` — one round;
* `Flow.iterate` — rounds until the change falls below the tolerance;
* `Digraph.pageRank` — the ranks of a graph. Without edges all of them are zero.
-/

namespace Taskboard

open Scalar

/-- How page rank is computed. -/
structure RankConfig (R : Type) where
  damping       : R
  tolerance     : R
  maxIterations : Nat

/-- Damping 0.85, tolerance 10^-6, a hundred rounds. -/
def RankConfig.standard {R : Type} [Scalar R] : RankConfig R :=
  { damping := ratio 85 100
    tolerance := ratio 1 1000000
    maxIterations := 100 }

/-- Ranks, and how they were reached. -/
structure Ranking (R : Type) (n : Nat) where
  ranks      : Vector R n
  iterations : Nat
  converged  : Bool

/-- The sources of each node in ascending order, and the number of edges that leave each node. -/
structure Flow (n : Nat) where
  sources : Vector (List (Fin n)) n
  out     : Vector Nat n

namespace Flow

variable {R : Type} [Scalar R] {n : Nat}

/-- The flow along the edges of a graph. -/
def ofGraph (g : Digraph n) : Flow n where
  sources := Vector.ofFn fun v => (List.finRange n).filter fun u => (g.prev v).contains u
  out := Vector.ofFn fun u => (g.next u).length

/-- The rank of the nodes that no edge leaves. -/
def dangling (flow : Flow n) (ranks : Vector R n) : R :=
  Scalar.sum (((List.finRange n).filter fun u => flow.out.get u = 0).map ranks.get)

/-- One round. The shares of a node are added in the order of its sources. -/
def round (flow : Flow n) (damping : R) (ranks : Vector R n) : Vector R n :=
  let size : R := natural n
  let base := (natural 1 - damping) / size
  let spread := damping * flow.dangling ranks / size
  let shares : Vector R n := Vector.ofFn fun u => damping * ranks.get u / natural (flow.out.get u)
  Vector.ofFn fun v => (flow.sources.get v).foldl (fun acc u => acc + shares.get u) base + spread

/-- How much two rankings differ. -/
def change (old new : Vector R n) : R :=
  Scalar.sum ((List.finRange n).map fun v => magnitude (old.get v - new.get v))

/-- Rounds until one changes less than the tolerance, at most `rounds` of them. `done` rounds came
before. -/
def iterate (flow : Flow n) (config : RankConfig R) : (rounds done : Nat) → Vector R n → Ranking R n
  | 0, done, ranks => ⟨ranks, done, false⟩
  | rounds + 1, done, ranks =>
    let new := flow.round config.damping ranks
    if less (change ranks new) config.tolerance then ⟨new, done + 1, true⟩
    else iterate flow config rounds (done + 1) new

end Flow

/-- The page ranks of a graph. -/
def Digraph.pageRank {R : Type} [Scalar R] {n : Nat} (g : Digraph n) (config : RankConfig R) :
    Ranking R n :=
  if g.edgeCount = 0 then ⟨Vector.replicate n (natural 0), 0, true⟩
  else
    (Flow.ofGraph g).iterate config config.maxIterations 0 (Vector.replicate n (ratio 1 n))

end Taskboard
