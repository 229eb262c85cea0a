import Taskboard.Json.Value
import Taskboard.Triage.Report

/-!
# Taskboard — reports as JSON

* `Metrics.toJson` — the metrics of an item with the scores that follow from them;
* `Report.toJson` — a report with the lengths of its lists.

Numbers that are not finite become `null`.
-/

namespace Taskboard

/-- Metrics as a value. -/
def Metrics.toJson (m : Metrics Score) : Json :=
  .object
    [("pageRank", .ofFloat m.pageRank.value),
     ("betweenness", .ofFloat m.betweenness.value),
     ("inDegree", .ofNat m.inDegree),
     ("outDegree", .ofNat m.outDegree),
     ("degree", .ofNat m.degree),
     ("unblockCount", .ofNat m.unblockCount),
     ("depth", .ofNat m.depth),
     ("priorityWeight", .ofNat m.weight),
     ("isCriticalPath", .bool m.isCritical),
     ("criticalScore", .ofFloat m.criticalScore.value),
     ("impactScore", .ofFloat m.impactScore.value)]

/-- A report as a value. -/
def Report.toJson (r : Report Score) : Json :=
  .object
    [("metrics", .object (r.metrics.map fun entry => (entry.1, entry.2.toJson))),
     ("ranked", .ofStrings r.ranked),
     ("ready", .ofStrings r.ready),
     ("blocked", .ofStrings r.blocked),
     ("criticalPath", .ofStrings r.criticalPath),
     ("highImpact", .ofStrings r.highImpact),
     ("readyCount", .ofNat r.ready.length),
     ("blockedCount", .ofNat r.blocked.length),
     ("criticalPathCount", .ofNat r.criticalPath.length),
     ("highImpactCount", .ofNat r.highImpact.length),
     ("cycles", .array (r.cycles.map .ofStrings)),
     ("fingerprint", .string r.fingerprint),
     ("contentHash", .string r.contentHash)]

end Taskboard
