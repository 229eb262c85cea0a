import Mathlib
import Taskboard.Proofs.Graph.Parts
import Taskboard.Proofs.Triage.Classification

/-!
# Taskboard — unrelated boards do not influence each other

A pass over two boards together numbers the items of the second behind those of the first, lists
the links of both in one order, and searches one graph. If the boards are unrelated, the graph of
the second is none the less a part that no search enters or leaves, and so is that of the first.
What is counted along links is then what each board gives alone; depths are too, on a cycle as
well. Page ranks and betweennesses are not, as both are relative to the size of the whole graph;
impact and ranking follow them and may change.

* `Metrics.SameCounts` — metrics that agree in all that is counted along links;
* `Report.metricsAt_place` — the metrics of an item of a part;
* `Report.Combines` — what a report on two boards has in common with a report on each;
* `Report.compute_append` — a pass over unrelated boards combines the passes over each.
-/

namespace Taskboard

/-- Metrics that agree in all that is counted along links, and in what follows from the counts. -/
structure Metrics.SameCounts {R : Type} [Scalar R] (a b : Metrics R) : Prop where
  inDegree      : b.inDegree = a.inDegree
  outDegree     : b.outDegree = a.outDegree
  unblockCount  : b.unblockCount = a.unblockCount
  depth         : b.depth = a.depth
  isCritical    : b.isCritical = a.isCritical
  criticalScore : b.criticalScore = a.criticalScore

namespace Report

variable {R : Type} [Scalar R] {ranking : RankConfig R} {xs ys : Board}

/-! ## Priorities -/

theorem priorityOf_append_left {id : String} (hId : id ∈ xs.map WorkItem.id) :
    priorityOf (xs ++ ys) id = priorityOf xs id := by
  obtain ⟨item, hFirst, rfl⟩ := Board.exists_first hId
  -- the search ends before it comes to the second board
  rw [priorityOf, priorityOf, List.find?_append, Board.first_iff.mp hFirst]
  rfl

theorem priorityOf_append_right {id : String} (hId : id ∉ xs.map WorkItem.id) :
    priorityOf (xs ++ ys) id = priorityOf ys id := by
  have hNone : (xs.find? fun item => item.id == id) = none := by
    rw [List.find?_eq_none]
    intro item hItem hSame
    exact hId (beq_iff_eq.mp hSame ▸ List.mem_map_of_mem hItem)
  rw [priorityOf, priorityOf, List.find?_append, hNone]
  rfl

/-! ## Metrics -/

section Places

variable {g h : DependencyGraph} {v : Fin g.size}

/-- **The metrics of an item of a part** are those that the part alone gives it, page rank and
betweenness apart. -/
theorem metricsAt_place (hPart : g.IsPart h)
    (hDepth : h.digraph.depths.get (hPart.place v) = g.digraph.depths.get v)
    (hPriority : priorityOf ys (g.id v) = priorityOf xs (g.id v)) :
    metricsAt (.computed ranking) ys h (hPart.place v) =
      { metricsAt (.computed ranking) xs g v with
        pageRank := (h.digraph.pageRank ranking).ranks.get (hPart.place v)
        betweenness := h.digraph.betweenness.get (hPart.place v) } := by
  -- neighbours and what is reached are counted, so it does not matter that they have other places
  rw [metricsAt_computed, metricsAt_computed, hPart.embeds.prev, hPart.embeds.next,
    (hPart.embeds.perm_reach v).length_eq, hDepth, hPart.id_place, hPriority]
  simp only [List.length_map]

/-- The entries of two tables for one item, of a part in the first and of the whole in the
second. -/
theorem exists_sameCounts_place (hPart : g.IsPart h)
    (hDepth : h.digraph.depths.get (hPart.place v) = g.digraph.depths.get v)
    (hPriority : priorityOf ys (g.id v) = priorityOf xs (g.id v)) :
    ∃ a b, (metricsOf (.computed ranking) xs g).lookup (g.id v) = some a ∧
      (metricsOf (.computed ranking) ys h).lookup (g.id v) = some b ∧ a.SameCounts b := by
  refine ⟨_, _, lookup_metricsOf v, hPart.id_place v ▸ lookup_metricsOf (hPart.place v), ?_⟩
  -- no count reads page rank or betweenness
  rw [metricsAt_place hPart hDepth hPriority]
  constructor <;> rfl

end Places

/-! ## Reports -/

/-- Two reports of which the second counts for each id of a board what the first counts for it. -/
def KeepsCounts (board : Board) (old new : Report R) : Prop :=
  ∀ id ∈ board.map WorkItem.id, ∃ a b, old.metrics.lookup id = some a ∧
    new.metrics.lookup id = some b ∧ a.SameCounts b

/-- What a report on two boards, `both`, has in common with the reports on each of them. -/
structure Combines (xs ys : Board) (left right both : Report R) : Prop where
  leftCounts   : KeepsCounts xs left both
  rightCounts  : KeepsCounts ys right both
  ready        : both.ready = left.ready ++ right.ready
  blocked      : both.blocked = left.blocked ++ right.blocked
  criticalPath : both.criticalPath = left.criticalPath ++ right.criticalPath
  cycles       : both.cycles = left.cycles.merge right.cycles fun a b => decide (a ≤ b)

variable {config : TriageConfig R}

theorem keepsCounts_left (hU : xs.Unrelated ys) :
    KeepsCounts xs (compute (.computed ranking) config xs)
      (compute (.computed ranking) config (xs ++ ys)) := by
  intro id hId
  obtain ⟨v, rfl⟩ := DependencyGraph.exists_id_eq (DependencyGraph.mem_ids_ofBoard.mpr hId)
  have hBoth := DependencyGraph.consistsOf_append hU
  exact exists_sameCounts_place hBoth.left (hBoth.joins.depths_left v)
    (priorityOf_append_left hId)

theorem keepsCounts_right (hU : xs.Unrelated ys) :
    KeepsCounts ys (compute (.computed ranking) config ys)
      (compute (.computed ranking) config (xs ++ ys)) := by
  intro id hId
  obtain ⟨v, rfl⟩ := DependencyGraph.exists_id_eq (DependencyGraph.mem_ids_ofBoard.mpr hId)
  have hBoth := DependencyGraph.consistsOf_append hU
  -- no item of the first board has the id, so the priority comes from the second
  exact exists_sameCounts_place hBoth.right (hBoth.joins.depths_right v)
    (priorityOf_append_right (hU.symm.ids _ hId))

/-- A test that reads counts only selects the same ids of a board by both reports. -/
theorem KeepsCounts.filter_eq {board : Board} {old new : Report R}
    (hKeeps : KeepsCounts board old new) {keep : Metrics R → Bool}
    (hKeep : ∀ a b, a.SameCounts b → keep b = keep a) :
    ((DependencyGraph.ofBoard board).ids.filter fun id => (new.metrics.lookup id).any keep) =
      (DependencyGraph.ofBoard board).ids.filter fun id => (old.metrics.lookup id).any keep := by
  refine List.filter_congr ?_
  intro id hId
  obtain ⟨a, b, hOld, hNew, hSame⟩ := hKeeps id (DependencyGraph.mem_ids_ofBoard.mp hId)
  rw [hOld, hNew]
  exact hKeep a b hSame

/-- The ids of a board that pass a test, as a report lists them. -/
theorem idsWhere_compute (provider : Provider R) (config : TriageConfig R) (board : Board)
    (keep : Metrics R → Bool) :
    idsWhere (compute provider config board).metrics keep =
      (DependencyGraph.ofBoard board).ids.filter fun id =>
        ((compute provider config board).metrics.lookup id).any keep :=
  idsWhere_metricsOf keep

/-- **A list of a report on unrelated boards** is the list for the one, and then that for the
other. -/
theorem idsWhere_append (config : TriageConfig R) (hU : xs.Unrelated ys) (keep : Metrics R → Bool)
    (hKeep : ∀ a b, a.SameCounts b → keep b = keep a) :
    idsWhere (compute (.computed ranking) config (xs ++ ys)).metrics keep =
      idsWhere (compute (.computed ranking) config xs).metrics keep ++
        idsWhere (compute (.computed ranking) config ys).metrics keep := by
  rw [idsWhere_compute, idsWhere_compute, idsWhere_compute, DependencyGraph.ids_append hU,
    List.filter_append, (keepsCounts_left hU).filter_eq hKeep,
    (keepsCounts_right hU).filter_eq hKeep]

/--
**Unrelated boards do not influence each other.** If two boards share no id, and neither mentions
an id of the other, a pass over both together counts for each item what a pass over its own board
counts: its links on either side, the items that it unblocks, its depth, whether it is critical,
and its critical score. Items may be repeated and may wait for one another in cycles. What is
ready, blocked and critical is listed for the one board and then for the other, and the cycles of
both stand in one ascending list.
-/
theorem compute_append (ranking : RankConfig R) (config : TriageConfig R)
    (hU : xs.Unrelated ys) :
    Combines xs ys (compute (.computed ranking) config xs) (compute (.computed ranking) config ys)
      (compute (.computed ranking) config (xs ++ ys)) := by
  have hReady : ∀ a b : Metrics R, a.SameCounts b → b.isReady = a.isReady := by
    intro a b hSame
    rw [Metrics.isReady, Metrics.isReady, hSame.inDegree]
  constructor
  case leftCounts => exact keepsCounts_left hU
  case rightCounts => exact keepsCounts_right hU
  -- the tests of these lists read the links in front, and those behind with the weight
  case ready => exact idsWhere_append config hU Metrics.isReady hReady
  case blocked =>
    refine idsWhere_append config hU (fun m => !m.isReady) ?_
    intro a b hSame
    rw [hReady a b hSame]
  case criticalPath =>
    exact idsWhere_append config hU Metrics.isCritical fun a b hSame => hSame.isCritical
  case cycles => exact (DependencyGraph.consistsOf_append hU).cycles_eq

/-- Two boards with a cycle each. The first repeats an id, the second a link. -/
theorem combines_cycles :
    let xs : Board := [{ id := "d", priority := .high, blockedBy := some ["a"] },
      { id := "a", blockedBy := some ["d"] }, { id := "d", blocking := some ["b"] }]
    let ys : Board := [{ id := "c", priority := .urgent, blocking := some ["e", "e"] },
      { id := "e", blocking := some ["c", "f"] }]
    let config : TriageConfig Score := { ranking := .standard }
    xs.Unrelated ys ∧
      Combines xs ys (compute (.computed .standard) config xs)
        (compute (.computed .standard) config ys)
        (compute (.computed .standard) config (xs ++ ys)) := by
  intro xs ys config
  have hU : xs.Unrelated ys := ⟨by decide, by decide, by decide⟩
  exact ⟨hU, compute_append .standard config hU⟩

end Report

end Taskboard
