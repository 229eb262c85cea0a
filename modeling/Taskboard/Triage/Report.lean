import Taskboard.Board.Fingerprint
import Taskboard.Centrality.Provider
import Taskboard.Graph.Depth
import Taskboard.Triage.Metrics

/-!
# Taskboard — triage reports

* `TriageConfig` — how triage is done;
* `Report` — what one pass finds out about a board;
* `Report.compute` — one pass.

The lists of a report follow the order of the board, except for the ranking.
-/

namespace Taskboard

/-- How triage is done. The quiet time, in milliseconds, is how long a board must rest before it
is looked at again. -/
structure TriageConfig (R : Type) where
  ranking        : RankConfig R
  quiet          : Nat := 300
  highImpactFrom : ImpactLevel := .high

/-- The result of one pass. Metrics are listed by id, the ids in the order of the board. -/
structure Report (R : Type) where
  metrics      : List (String × Metrics R)
  ranked       : List String
  ready        : List String
  blocked      : List String
  criticalPath : List String
  highImpact   : List String
  cycles       : List (List String)
  fingerprint  : String
  contentHash  : String

namespace Report

variable {R : Type} [Scalar R]

/-- The report of no pass at all. -/
def empty : Report R where
  metrics := []
  ranked := []
  ready := []
  blocked := []
  criticalPath := []
  highImpact := []
  cycles := []
  fingerprint := ""
  contentHash := ""

/-- The number of other items that can be reached from each. -/
def unblockCounts {n : Nat} (g : Digraph n) : Vector Nat n :=
  Vector.ofFn fun v => (g.reach v).length - 1

/-- The priority of the first item with an id. -/
def priorityOf (board : Board) (id : String) : Priority :=
  ((board.find? fun item => item.id == id).map WorkItem.priority).getD .medium

/-- The metrics of all items of a board, each id once. -/
def metricsOf (provider : Provider R) (board : Board) (graph : DependencyGraph) :
    List (String × Metrics R) :=
  let digraph := graph.digraph
  let pageRanks := provider.pageRank graph
  let betweennesses := provider.betweenness graph
  let degrees := provider.degrees graph
  let unblocked := unblockCounts digraph
  let depths := digraph.depths
  (List.finRange graph.size).map fun v =>
    let id := graph.id v
    (id,
     { pageRank := (pageRanks.lookup id).getD (Scalar.natural 0)
       betweenness := (betweennesses.lookup id).getD (Scalar.natural 0)
       inDegree := (degrees.inward.lookup id).getD 0
       outDegree := (degrees.outward.lookup id).getD 0
       unblockCount := unblocked[v]
       depth := depths[v]
       weight := (priorityOf board id).weight })

/-- The ids whose metrics satisfy a test. -/
def idsWhere (metrics : List (String × Metrics R)) (keep : Metrics R → Bool) : List String :=
  (metrics.filter fun entry => keep entry.2).map Prod.fst

/-- The ids by impact. -/
def rank (metrics : List (String × Metrics R)) : List String :=
  let standings := metrics.map fun entry => (entry.1, Standing.ofMetrics entry.2)
  (sortByImpact Prod.snd standings).map Prod.fst

/-- One pass over a board. -/
def compute (provider : Provider R) (config : TriageConfig R) (board : Board) : Report R :=
  let graph := DependencyGraph.ofBoard board
  let metrics := metricsOf provider board graph
  { metrics
    ranked := rank metrics
    ready := idsWhere metrics Metrics.isReady
    blocked := idsWhere metrics fun m => !m.isReady
    criticalPath := idsWhere metrics Metrics.isCritical
    highImpact := idsWhere metrics fun m =>
      config.highImpactFrom.rank ≤ (ImpactLevel.ofScore m.impactScore).rank
    cycles := graph.cycles
    fingerprint := Taskboard.fingerprint board
    contentHash := graph.contentHash }

end Report

end Taskboard
