import Mathlib
import Taskboard.Proofs.Centrality.RankFlow
import Taskboard.Proofs.Decimal.Exact
import Taskboard.Proofs.Triage.Metrics
import Taskboard.Settings

/-!
# Taskboard — page ranks are a distribution

Page ranks add up to one: the rounds begin with equal ranks that do, and each of them keeps the
total. No rank falls below the base share that every round gives to every node, so none is
negative, and none exceeds the total. This holds after any number of rounds, so it does not matter
whether the ranks have settled when the rounds end.

The statements are about exact arithmetic. What they assume of a configuration is what the check of
settings asks for, with the doubles of the settings read as the numbers that they stand for.

* `RankConfig.Accepted`, `TriageSettings.accepted_ranking` — configurations that pass the check;
* `Flow.Distributed` — ranks as a distribution;
* `Flow.distributed_ranksAfter` — the ranks after any number of rounds are one;
* `DependencyGraph.pageRank_is_distribution` — the page ranks of a graph.
-/

namespace Taskboard

open Scalar

/-! ## Configurations -/

/-- The bounds within which page rank is computed. -/
structure RankConfig.Accepted (config : RankConfig Rat) : Prop where
  damping_pos       : 0 < config.damping
  damping_lt_one    : config.damping < 1
  tolerance_pos     : 0 < config.tolerance
  maxIterations_pos : 0 < config.maxIterations

/-- The configuration that settings ask for, in exact numbers. -/
def TriageSettings.ranking (s : TriageSettings) : RankConfig Rat :=
  ⟨Decimal.toRat s.damping, Decimal.toRat s.tolerance, s.maxIterations⟩

/-- **Settings that pass the check** ask for a configuration within the bounds. -/
theorem TriageSettings.accepted_ranking {s : TriageSettings} (h : s.check = none) :
    s.ranking.Accepted := by
  have hDamping : 0 < s.damping ∧ s.damping < 1 := by
    by_contra hNot
    simp [check, not_and_or.mp hNot] at h
  have hTolerance : Json.isFinite s.tolerance = true ∧ 0 < s.tolerance := by
    by_contra hNot
    rw [not_and_or, Bool.not_eq_true] at hNot
    simp [check, hDamping, hNot] at h
  have hRounds : s.maxIterations ≠ 0 := by
    intro hZero
    simp [check, hDamping, hTolerance, hZero] at h
  exact ⟨Decimal.toRat_pos hDamping.1 (Decimal.toRat_lt_one hDamping.1 hDamping.2).1,
    (Decimal.toRat_lt_one hDamping.1 hDamping.2).2,
    Decimal.toRat_pos hTolerance.2 hTolerance.1, Nat.pos_of_ne_zero hRounds⟩

/-- So do the settings that a project has when it does not say otherwise. -/
theorem TriageSettings.accepted_plain : ({} : TriageSettings).ranking.Accepted :=
  accepted_ranking (Option.isNone_iff_eq_none.mp (by decide))

/-! ## Distributions -/

namespace Flow

variable {n : Nat} {damping : Rat} {ranks : Vector Rat n}

/-- Ranks that add up to one, each of them between the base share and one. -/
structure Distributed (damping : Rat) (ranks : Vector Rat n) : Prop where
  total : ∑ v, ranks.get v = 1
  least : ∀ v, (1 - damping) / n ≤ ranks.get v
  most  : ∀ v, ranks.get v ≤ 1

/-- Of ranks that are not negative none exceeds the total. -/
theorem distributed_of_total (hDamping : damping ≤ 1) (hTotal : ∑ v, ranks.get v = 1)
    (hLeast : ∀ v, (1 - damping) / n ≤ ranks.get v) : Distributed damping ranks := by
  have hBase : 0 ≤ (1 - damping) / n := div_nonneg (sub_nonneg.mpr hDamping) (Nat.cast_nonneg n)
  refine ⟨hTotal, hLeast, fun v => ?_⟩
  rw [← hTotal]
  exact Finset.single_le_sum (fun u _ => hBase.trans (hLeast u)) (Finset.mem_univ v)

/-- Ranks begin with equal parts. -/
theorem get_start (v : Fin n) : (Vector.replicate n (ratio 1 n : Rat)).get v = 1 / n := by
  simp [Vector.get_eq_getElem, ratio, natural]

/-- Equal ranks are a distribution. -/
theorem distributed_start (hSome : 0 < n) (hPos : 0 ≤ damping) (hDamping : damping ≤ 1) :
    Distributed damping (Vector.replicate n (ratio 1 n : Rat)) := by
  refine distributed_of_total hDamping ?_ fun v => ?_
  · simp only [get_start]
    exact sum_equal_parts hSome 1
  · rw [get_start]
    have hBase : 1 - damping ≤ 1 := sub_le_self 1 hPos
    gcongr

/-- **A round keeps a distribution**, if each edge is listed once. -/
theorem Distributed.round {g : Digraph n} (hNodup : ∀ u, (g.next u).Nodup) (hSome : 0 < n)
    (hPos : 0 ≤ damping) (hDamping : damping ≤ 1) (h : Distributed damping ranks) :
    Distributed damping ((ofGraph g).round damping ranks) := by
  have hBase : 0 ≤ (1 - damping) / n := div_nonneg (sub_nonneg.mpr hDamping) (Nat.cast_nonneg n)
  refine distributed_of_total hDamping ?_ fun v => ?_
  · -- the base shares are what the damping takes away
    simp only [Digraph.get_round]
    rw [Finset.sum_add_distrib, sum_equal_parts hSome, ← Finset.mul_sum,
      Digraph.sum_moved hNodup, h.total]
    ring
  · have hMoved : 0 ≤ ∑ u, g.portion v u * ranks.get u :=
      Finset.sum_nonneg fun u _ => mul_nonneg (g.portion_nonneg v u) (hBase.trans (h.least u))
    rw [Digraph.get_round]
    exact le_add_of_nonneg_right (mul_nonneg hPos hMoved)

/-- **After any number of rounds** the ranks are a distribution. -/
theorem distributed_ranksAfter {g : Digraph n} (hNodup : ∀ u, (g.next u).Nodup) (hSome : 0 < n)
    (hPos : 0 ≤ damping) (hDamping : damping ≤ 1) (k : Nat) :
    Distributed damping ((ofGraph g).ranksAfter damping k) := by
  induction k with
  | zero => exact distributed_start hSome hPos hDamping
  | succ k ih =>
    rw [ranksAfter_succ]
    exact ih.round hNodup hSome hPos hDamping

end Flow

/-! ## Page ranks -/

namespace DependencyGraph

variable {g : DependencyGraph} {config : RankConfig Rat}

theorem size_pos (hLinks : g.links ≠ []) : 0 < g.size := by
  obtain ⟨l, hl⟩ := List.exists_mem_of_ne_nil _ hLinks
  exact List.length_pos_of_mem (g.known l hl).1

/-- The page ranks of a graph with links come from rounds. -/
theorem ended_pageRank (hLinks : g.links ≠ []) :
    (Flow.ofGraph g.digraph).Ended config config.maxIterations 0 (g.digraph.pageRank config) := by
  have hEdges : g.digraph.edgeCount ≠ 0 := by
    rw [edgeCount_digraph]
    exact fun h => hLinks (List.length_eq_zero_iff.mp h)
  rw [Digraph.pageRank, if_neg hEdges]
  exact Flow.ended_iterate config.maxIterations 0

theorem pageRank_of_links_eq_nil (hLinks : g.links = []) :
    g.digraph.pageRank config = ⟨Vector.replicate g.size (natural 0), 0, true⟩ := by
  have hEdges : g.digraph.edgeCount = 0 := by
    rw [edgeCount_digraph, hLinks, List.length_nil]
  rw [Digraph.pageRank, if_pos hEdges]

/--
**Page ranks are a distribution.** In exact arithmetic, with a configuration within the bounds, the
table of a graph has one entry for each id. If there is some link, the ranks add up to one, and
each is at least the base share and at most one; there was at least one round, and there were no
more than are allowed. The same holds after every single round, and the ranks in the table are
those after the last one. Without links every rank is zero.
-/
theorem pageRank_is_distribution (graph : DependencyGraph) (hAccepted : config.Accepted) :
    let flow := Flow.ofGraph graph.digraph
    let result : Ranking Rat graph.size := graph.digraph.pageRank config
    let table := (Provider.computed config).pageRank graph
    table.map Prod.fst = graph.ids ∧
    (graph.links ≠ [] →
      (table.map Prod.snd).sum = 1 ∧
      (∀ entry ∈ table, (1 - config.damping) / graph.size ≤ entry.2 ∧ entry.2 ≤ 1) ∧
      1 ≤ result.iterations ∧ result.iterations ≤ config.maxIterations ∧
      table = graph.byId (flow.ranksAfter config.damping result.iterations) ∧
      ∀ k, Flow.Distributed config.damping (flow.ranksAfter config.damping k)) ∧
    (graph.links = [] → ∀ entry ∈ table, entry.2 = 0) := by
  intro flow result table
  have hTable : table = (List.finRange graph.size).map fun v => (graph.id v, result.ranks.get v) :=
    byId_eq result.ranks
  refine ⟨?_, fun hLinks => ?_, fun hLinks => ?_⟩
  · rw [hTable, List.map_map]
    exact map_id_finRange graph
  · have hEnded : flow.Ended config config.maxIterations 0 result := ended_pageRank hLinks
    have hAll : ∀ k, Flow.Distributed config.damping (flow.ranksAfter config.damping k) :=
      Flow.distributed_ranksAfter nodup_next (size_pos hLinks) hAccepted.damping_pos.le
        hAccepted.damping_lt_one.le
    have hResult : Flow.Distributed config.damping result.ranks := by
      rw [hEnded.ranks]
      exact hAll result.iterations
    refine ⟨?_, ?_, hEnded.atLeast.2 hAccepted.maxIterations_pos, ?_, ?_, hAll⟩
    · rw [hTable, List.map_map, ← hResult.total, ← List.sum_ofFn, List.ofFn_eq_map]
      rfl
    · intro entry hEntry
      rw [hTable] at hEntry
      obtain ⟨v, -, rfl⟩ := List.mem_map.mp hEntry
      exact ⟨hResult.least v, hResult.most v⟩
    · simpa using hEnded.atMost
    · rw [← hEnded.ranks]
      rfl
  · intro entry hEntry
    rw [hTable] at hEntry
    obtain ⟨v, -, rfl⟩ := List.mem_map.mp hEntry
    show (graph.digraph.pageRank config).ranks.get v = 0
    rw [pageRank_of_links_eq_nil hLinks]
    simp [Vector.get_eq_getElem, natural]

/-- One item blocks another and a third stands alone. With the settings that a project has when it
does not say otherwise, their ranks add up to one. -/
theorem pageRank_of_plain_settings :
    let graph := ofBoard [{ id := "a", blocking := some ["b"] }, { id := "b" }, { id := "c" }]
    let config := ({} : TriageSettings).ranking
    let table := (Provider.computed config).pageRank graph
    config.Accepted ∧ graph.links ≠ [] ∧ table.map Prod.fst = graph.ids ∧
      (table.map Prod.snd).sum = 1 ∧
      (∀ entry ∈ table, (1 - config.damping) / graph.size ≤ entry.2 ∧ entry.2 ≤ 1) := by
  intro graph config table
  have hAccepted : config.Accepted := TriageSettings.accepted_plain
  have hLinks : graph.links ≠ [] := by decide +kernel
  obtain ⟨hIds, hSome, -⟩ := pageRank_is_distribution graph hAccepted
  obtain ⟨hTotal, hBounds, -⟩ := hSome hLinks
  exact ⟨hAccepted, hLinks, hIds, hTotal, hBounds⟩

end DependencyGraph

end Taskboard
