import Mathlib
import Taskboard.Proofs.Centrality.ShortestPaths
import Taskboard.Proofs.Graph.Relation

/-!
# Taskboard — rounds of page rank

In exact arithmetic a round of page rank is an affine map. It hands out the rank of each node in
portions, those of one node adding up to one: equal ones to the nodes behind it or, where there are
none, to all nodes. What is handed out is damped, and each node gets a base share on top.

From the portions come the two facts on which the rest is built. A round keeps the total, since it
only moves rank; and it brings two rankings closer together, by the factor of the damping, since
moving rank makes no difference greater.

* `Digraph.portion` — the part of the rank of one node that another one gets;
* `Digraph.get_round` — a round by its portions;
* `Digraph.sum_moved`, `Digraph.sum_abs_moved_le` — totals and differences when rank is moved;
* `Flow.Ended`, `Flow.ended_iterate` — what the rounds come to, by induction on their number.
-/

namespace Taskboard

open Scalar

variable {n : Nat}

/-! ## Sums -/

/-- A sum from the left that begins with some number. -/
theorem foldl_add_eq_add_sum (f : Fin n → Rat) (nodes : List (Fin n)) (start : Rat) :
    nodes.foldl (fun acc v => acc + f v) start = start + (nodes.map f).sum := by
  induction nodes generalizing start with
  | nil => simp
  | cons v nodes ih => rw [List.foldl_cons, ih, List.map_cons, List.sum_cons, add_assoc]

/-- A sum over some nodes that begins with some number. -/
theorem foldl_filter_eq_add_sum (start : Rat) (keep : Fin n → Bool) (f : Fin n → Rat) :
    ((List.finRange n).filter keep).foldl (fun acc v => acc + f v) start =
      start + ∑ v, if keep v = true then f v else 0 := by
  have hSum := foldl_filter_eq_sum (List.nodup_finRange n) keep f
  simp only [List.mem_finRange, true_and] at hSum
  rw [← hSum, foldl_add_eq_add_sum, foldl_add_eq_add_sum, zero_add]

/-- What all nodes get in equal parts. -/
theorem sum_equal_parts (hSome : 0 < n) (total : Rat) : ∑ _v : Fin n, total / n = total := by
  rw [Finset.sum_const, Finset.card_univ, Fintype.card_fin, nsmul_eq_mul]
  exact mul_div_cancel₀ total (Nat.cast_ne_zero.mpr hSome.ne')

/-- How much two rankings differ is a sum over the nodes. -/
theorem Flow.change_eq (old new : Vector Rat n) :
    Flow.change old new = ∑ v, |old.get v - new.get v| := by
  have hMagnitude : ∀ x : Rat, magnitude x = |x| := by
    intro x
    show (if x < 0 then -x else x) = |x|
    split
    · rename_i hNeg
      exact (abs_of_neg hNeg).symm
    · rename_i hNonneg
      exact (abs_of_nonneg (not_lt.mp hNonneg)).symm
  have hSum := foldl_filter_eq_add_sum (n := n) 0 (fun _ => true) fun v => |old.get v - new.get v|
  rw [List.filter_true] at hSum
  simp only [Flow.change, Scalar.sum, List.foldl_map, hMagnitude]
  simpa [natural] using hSum

/-! ## Portions -/

namespace Digraph

variable {g : Digraph n}

/-- The part of the rank of `u` that `v` gets. What no edge leaves gives to all nodes alike. -/
def portion (g : Digraph n) (v u : Fin n) : Rat :=
  if g.next u = [] then 1 / n
  else if (g.next u).contains v then 1 / (g.next u).length
  else 0

theorem portion_nonneg (v u : Fin n) : 0 ≤ g.portion v u := by
  rw [portion]
  split
  · positivity
  · split
    · positivity
    · exact le_refl 0

/-- **The portions of a node add up to one**, if each edge is listed once. -/
theorem sum_portion {u : Fin n} (hNodup : (g.next u).Nodup) : ∑ v, g.portion v u = 1 := by
  by_cases hEnd : g.next u = []
  · simp only [portion, if_pos hEnd]
    exact sum_equal_parts (Fin.pos u) 1
  · have hSome : ((g.next u).length : Rat) ≠ 0 :=
      Nat.cast_ne_zero.mpr (List.length_pos_iff.mpr hEnd).ne'
    have hNext : (Finset.univ.filter fun v => v ∈ g.next u) = (g.next u).toFinset := by
      ext v
      simp
    simp only [portion, if_neg hEnd, List.contains_iff_mem]
    rw [← Finset.sum_filter, hNext, Finset.sum_const, List.toFinset_card_of_nodup hNodup,
      nsmul_eq_mul, mul_one_div, div_self hSome]

/-- **A round by its portions.** -/
theorem get_round (damping : Rat) (ranks : Vector Rat n) (v : Fin n) :
    ((Flow.ofGraph g).round damping ranks).get v =
      (1 - damping) / n + damping * ∑ u, g.portion v u * ranks.get u := by
  have hDangling : (Flow.ofGraph g).dangling ranks =
      ∑ u, if g.next u = [] then ranks.get u else 0 := by
    have hSum := foldl_filter_eq_add_sum 0 (fun u => decide ((Flow.ofGraph g).out.get u = 0))
      ranks.get
    simp only [Flow.dangling, Scalar.sum, List.foldl_map]
    refine hSum.trans ?_
    simp [Flow.ofGraph]
  have hShares := foldl_filter_eq_add_sum ((1 - damping) / n) (fun u => (g.prev v).contains u)
    fun u => damping * ranks.get u / (g.next u).length
  -- the shares of the nodes in front, then the part of what the dead ends hold
  have hRound : ((Flow.ofGraph g).round damping ranks).get v =
      (1 - damping) / n +
        (∑ u, if (g.prev v).contains u then damping * ranks.get u / (g.next u).length else 0) +
        damping * (∑ u, if g.next u = [] then ranks.get u else 0) / n := by
    rw [← hShares, ← hDangling]
    simp only [Flow.round, get_ofFn]
    simp only [Flow.ofGraph, get_ofFn]
    rfl
  rw [hRound, add_assoc, Finset.mul_sum, Finset.mul_sum, Finset.sum_div, ← Finset.sum_add_distrib]
  congr 1
  refine Finset.sum_congr rfl fun u _ => ?_
  simp only [List.contains_iff_mem, ← g.mem_next_iff_mem_prev, portion]
  by_cases hEnd : g.next u = []
  · have hNot : v ∉ g.next u := by simp [hEnd]
    rw [if_pos hEnd, if_pos hEnd, if_neg hNot]
    ring
  · rw [if_neg hEnd, if_neg hEnd]
    split <;> ring

/-! ## Rank that is moved -/

variable (hNodup : ∀ u, (g.next u).Nodup)

include hNodup

/-- **Moving rank keeps the total.** Each node is counted with its portions. -/
theorem sum_moved (f : Fin n → Rat) : ∑ v, ∑ u, g.portion v u * f u = ∑ u, f u := by
  rw [Finset.sum_comm]
  refine Finset.sum_congr rfl fun u _ => ?_
  rw [← Finset.sum_mul, sum_portion (hNodup u), one_mul]

/-- **Moving rank makes no difference greater.** -/
theorem sum_abs_moved_le (f : Fin n → Rat) :
    ∑ v, |∑ u, g.portion v u * f u| ≤ ∑ u, |f u| := by
  calc ∑ v, |∑ u, g.portion v u * f u|
      ≤ ∑ v, ∑ u, |g.portion v u * f u| :=
        Finset.sum_le_sum fun v _ => Finset.abs_sum_le_sum_abs _ _
    _ = ∑ v, ∑ u, g.portion v u * |f u| := by
        simp only [abs_mul, abs_of_nonneg (portion_nonneg _ _)]
    _ = ∑ u, |f u| := sum_moved hNodup fun u => |f u|

end Digraph

/-! ## Rounds in a row -/

namespace Flow

variable {flow : Flow n} {config : RankConfig Rat}

/-- The ranks after some rounds. They begin with equal ranks. -/
def ranksAfter (flow : Flow n) (damping : Rat) (k : Nat) : Vector Rat n :=
  (flow.round damping)^[k] (Vector.replicate n (ratio 1 n))

/-- How much a round changes the ranks if `k` rounds came before. -/
def changeAfter (flow : Flow n) (damping : Rat) (k : Nat) : Rat :=
  change (flow.ranksAfter damping k) (flow.ranksAfter damping (k + 1))

theorem ranksAfter_succ (flow : Flow n) (damping : Rat) (k : Nat) :
    flow.ranksAfter damping (k + 1) = flow.round damping (flow.ranksAfter damping k) :=
  Function.iterate_succ_apply' _ _ _

/-- What rounds come to: `rounds` of them were allowed, and `done` had been made before. They end
at the first one that changes less than the tolerance, or else when no more are allowed. -/
structure Ended (flow : Flow n) (config : RankConfig Rat) (rounds done : Nat)
    (result : Ranking Rat n) : Prop where
  ranks     : result.ranks = flow.ranksAfter config.damping result.iterations
  atLeast   : done ≤ result.iterations ∧ (0 < rounds → done < result.iterations)
  atMost    : result.iterations ≤ done + rounds
  converged : result.converged = true → ∃ k, result.iterations = k + 1 ∧
    flow.changeAfter config.damping k < config.tolerance
  allowed   : result.converged = false →
    ∀ k, done ≤ k → k < done + rounds → ¬ flow.changeAfter config.damping k < config.tolerance

/-- **What the rounds come to**, by induction on how many are allowed. -/
theorem ended_iterate (rounds done : Nat) : flow.Ended config rounds done
    (flow.iterate config rounds done (flow.ranksAfter config.damping done)) := by
  induction rounds generalizing done with
  | zero =>
    rw [iterate]
    exact ⟨rfl, ⟨Nat.le_refl _, fun h => absurd h (Nat.lt_irrefl 0)⟩, Nat.le_refl _,
      fun h => absurd h Bool.false_ne_true,
      fun _ k hFirst hLast => absurd hLast (Nat.not_lt.mpr hFirst)⟩
  | succ rounds ih =>
    rw [iterate]
    simp only [← ranksAfter_succ]
    split
    · rename_i hSmall
      have hChange : flow.changeAfter config.damping done < config.tolerance :=
        of_decide_eq_true hSmall
      exact ⟨rfl, ⟨Nat.le_succ _, fun _ => Nat.lt_succ_self _⟩,
        Nat.add_le_add_left (Nat.le_add_left 1 rounds) done, fun _ => ⟨done, rfl, hChange⟩,
        fun h => absurd h.symm Bool.false_ne_true⟩
    · rename_i hLarge
      have hChange : ¬ flow.changeAfter config.damping done < config.tolerance :=
        fun h => hLarge (decide_eq_true h)
      obtain ⟨hRanks, ⟨hLeast, -⟩, hMost, hConverged, hAllowed⟩ := ih (done + 1)
      refine ⟨hRanks, ⟨by omega, fun _ => by omega⟩, by omega, hConverged, ?_⟩
      intro hOver k hFirst hLast
      rcases Nat.eq_or_lt_of_le hFirst with rfl | hLater
      · exact hChange
      · exact hAllowed hOver k hLater (by omega)

end Flow

end Taskboard
