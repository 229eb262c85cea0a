import Mathlib
import Taskboard.Proofs.Centrality.PageRank

/-!
# Taskboard — page ranks settle

A round brings any two rankings closer together, by the factor of the damping: the base shares are
the same for both, and moving the rest makes no difference greater. Three things follow.

* What a round changes is at most the damping times what the round before it has changed, so after
  enough rounds it falls below any tolerance.
* At most one ranking is left alone by a round, since two of them would differ by less than they
  do. There is one, too: as many linear equations as unknowns have a solution if they have no more
  than one.
* The ranks that a round returns lie closer to that ranking than the ranks it was given, by a
  margin that can be read off what the round has changed.

The statements are about exact arithmetic.

* `Flow.change_round_le` — a round brings rankings together;
* `Flow.changeAfter_le` — what the rounds change;
* `Flow.kept`, `Flow.exists_settled` — the ranking that a round leaves alone, from linear equations;
* `Flow.change_settled_le` — how far from it ranks are;
* `DependencyGraph.pageRank_converges` — the page ranks of a graph.
-/

namespace Taskboard

open Scalar

namespace Flow

variable {n : Nat} {g : Digraph n} {damping : Rat}

/-! ## How much rankings differ -/

/-- From one ranking to another it is no farther than by way of a third. -/
theorem change_triangle (old mid new : Vector Rat n) :
    change old new ≤ change old mid + change mid new := by
  simp only [change_eq, ← Finset.sum_add_distrib]
  exact Finset.sum_le_sum fun v _ => abs_sub_le _ _ _

/-- What a round makes of a difference: it is moved and damped, and the base shares cancel. -/
theorem get_round_sub (old new : Vector Rat n) (v : Fin n) :
    ((ofGraph g).round damping old).get v - ((ofGraph g).round damping new).get v =
      damping * ∑ u, g.portion v u * (old.get u - new.get u) := by
  simp only [Digraph.get_round, mul_sub, Finset.sum_sub_distrib]
  ring

/-- What each node has on top of what is moved to it and damped. -/
def kept (g : Digraph n) (damping : Rat) : (Fin n → Rat) →ₗ[Rat] (Fin n → Rat) :=
  LinearMap.id - damping • (Matrix.of g.portion).mulVecLin

theorem kept_apply (f : Fin n → Rat) (v : Fin n) :
    kept g damping f v = f v - damping * ∑ u, g.portion v u * f u :=
  rfl

/-! ## Rounds -/

section Rounds

variable (hNodup : ∀ u, (g.next u).Nodup) (hPos : 0 ≤ damping)

include hNodup hPos

/-- **A round brings rankings together**, by the factor of the damping. -/
theorem change_round_le (old new : Vector Rat n) :
    change ((ofGraph g).round damping old) ((ofGraph g).round damping new) ≤
      damping * change old new := by
  simp only [change_eq, get_round_sub, abs_mul, abs_of_nonneg hPos, ← Finset.mul_sum]
  exact mul_le_mul_of_nonneg_left
    (Digraph.sum_abs_moved_le hNodup fun u => old.get u - new.get u) hPos

/-- A round changes at most the damping times what the one before it has changed. -/
theorem changeAfter_succ_le (k : Nat) :
    (ofGraph g).changeAfter damping (k + 1) ≤ damping * (ofGraph g).changeAfter damping k := by
  have hLe := change_round_le hNodup hPos ((ofGraph g).ranksAfter damping k)
    ((ofGraph g).ranksAfter damping (k + 1))
  rwa [← ranksAfter_succ, ← ranksAfter_succ] at hLe

/-- **The first round** changes at most twice the damping. The equal ranks consist of the base share
and of what the damping leaves of them, and the round only moves the latter. -/
theorem changeAfter_zero_le (hSome : 0 < n) :
    (ofGraph g).changeAfter damping 0 ≤ 2 * damping := by
  have hStart : ∑ _u : Fin n, |(1 / n : Rat)| = 1 := by
    rw [abs_of_nonneg (by positivity)]
    exact sum_equal_parts hSome 1
  have hMoved : ∀ v, ((ofGraph g).ranksAfter damping 0).get v -
      ((ofGraph g).ranksAfter damping 1).get v =
        damping * (1 / n - ∑ u, g.portion v u * (1 / n)) := by
    intro v
    have hEqual : ∀ u, ((ofGraph g).ranksAfter damping 0).get u = 1 / n := get_start
    simp only [ranksAfter_succ, Digraph.get_round, hEqual]
    ring
  calc (ofGraph g).changeAfter damping 0
      = ∑ v, damping * |1 / n - ∑ u, g.portion v u * (1 / n)| := by
        simp only [changeAfter, change_eq, hMoved, abs_mul, abs_of_nonneg hPos]
    _ ≤ ∑ v, damping * (|(1 / n : Rat)| + |∑ u, g.portion v u * (1 / n)|) :=
        Finset.sum_le_sum fun v _ => mul_le_mul_of_nonneg_left (abs_sub _ _) hPos
    _ = damping * (1 + ∑ v, |∑ u, g.portion v u * (1 / n)|) := by
        rw [← Finset.mul_sum, Finset.sum_add_distrib, hStart]
    _ ≤ damping * (1 + 1) := by
        have hLe := Digraph.sum_abs_moved_le hNodup fun _ => (1 / n : Rat)
        rw [hStart] at hLe
        gcongr
    _ = 2 * damping := by ring

/-- **What the rounds change**, by induction on their number. -/
theorem changeAfter_le (hSome : 0 < n) (k : Nat) :
    (ofGraph g).changeAfter damping k ≤ 2 * damping ^ (k + 1) := by
  induction k with
  | zero => simpa using changeAfter_zero_le hNodup hPos hSome
  | succ k ih =>
    calc (ofGraph g).changeAfter damping (k + 1)
        ≤ damping * (ofGraph g).changeAfter damping k := changeAfter_succ_le hNodup hPos k
      _ ≤ damping * (2 * damping ^ (k + 1)) := mul_le_mul_of_nonneg_left ih hPos
      _ = 2 * damping ^ (k + 1 + 1) := by ring

/-! ## The ranking that a round leaves alone -/

variable (hLess : damping < 1)

include hLess

/-- A difference that stays what it is when it is moved and damped is none. -/
theorem eq_zero_of_moved {f : Fin n → Rat}
    (hFixed : ∀ v, f v = damping * ∑ u, g.portion v u * f u) (v : Fin n) : f v = 0 := by
  have hLe : ∑ v, |f v| ≤ damping * ∑ v, |f v| := by
    calc ∑ v, |f v| = ∑ v, damping * |∑ u, g.portion v u * f u| :=
          Finset.sum_congr rfl fun v _ => (congrArg abs (hFixed v)).trans <| by
            rw [abs_mul, abs_of_nonneg hPos]
      _ = damping * ∑ v, |∑ u, g.portion v u * f u| := (Finset.mul_sum _ _ _).symm
      _ ≤ damping * ∑ v, |f v| :=
          mul_le_mul_of_nonneg_left (Digraph.sum_abs_moved_le hNodup f) hPos
  have hNone : ∑ v, |f v| ≤ 0 := by
    by_contra hSome
    exact absurd hLe (not_le.mpr (mul_lt_of_lt_one_left (not_le.mp hSome) hLess))
  have hAt : |f v| ≤ ∑ v, |f v| :=
    Finset.single_le_sum (fun u _ => abs_nonneg (f u)) (Finset.mem_univ v)
  exact abs_nonpos_iff.mp (hAt.trans hNone)

theorem kept_injective : Function.Injective (kept g damping) := by
  rw [← LinearMap.ker_eq_bot, LinearMap.ker_eq_bot']
  intro f hf
  refine funext (eq_zero_of_moved hNodup hPos hLess fun v => ?_)
  rw [← sub_eq_zero, ← kept_apply, hf, Pi.zero_apply]

/-- **There is a ranking that a round leaves alone.** It is the one in which each node has the base
share on top of what is moved to it. With as many of these linear equations as there are unknowns,
it is enough that they have at most one solution. -/
theorem exists_settled : ∃ ranks : Vector Rat n, (ofGraph g).round damping ranks = ranks := by
  have hOnto : Function.Surjective (kept g damping) :=
    LinearMap.injective_iff_surjective.mp (kept_injective hNodup hPos hLess)
  obtain ⟨f, hf⟩ := hOnto fun _ => (1 - damping) / n
  refine ⟨Vector.ofFn f, Vector.ext fun i hi => ?_⟩
  have hBase : f ⟨i, hi⟩ - damping * ∑ u, g.portion ⟨i, hi⟩ u * f u = (1 - damping) / n := by
    rw [← kept_apply, hf]
  show ((ofGraph g).round damping (Vector.ofFn f)).get ⟨i, hi⟩ = (Vector.ofFn f).get ⟨i, hi⟩
  simp only [Digraph.get_round, get_ofFn]
  rw [← hBase, sub_add_cancel]

/-- Two rankings that a round leaves alone are the same. -/
theorem eq_of_settled {a b : Vector Rat n} (ha : (ofGraph g).round damping a = a)
    (hb : (ofGraph g).round damping b = b) : a = b := by
  refine Vector.ext fun i hi => sub_eq_zero.mp ?_
  refine eq_zero_of_moved (f := fun v => a.get v - b.get v) hNodup hPos hLess (fun v => ?_) ⟨i, hi⟩
  rw [← get_round_sub, ha, hb]

/-- **How far from that ranking ranks are**, if the last round has changed less than some
tolerance. -/
theorem change_settled_le {fixed ranks : Vector Rat n} {tolerance : Rat}
    (hFixed : (ofGraph g).round damping fixed = fixed)
    (hSmall : change ranks ((ofGraph g).round damping ranks) < tolerance) :
    change ((ofGraph g).round damping ranks) fixed ≤ tolerance * damping / (1 - damping) := by
  have hCloser := change_round_le hNodup hPos ranks fixed
  rw [hFixed] at hCloser
  have hWay := change_triangle ranks ((ofGraph g).round damping ranks) fixed
  rw [le_div_iff₀ (sub_pos.mpr hLess), mul_one_sub]
  -- what is left of the distance is damped, and what it has lost is what the round has changed
  calc _ ≤ damping * change ranks fixed -
        change ((ofGraph g).round damping ranks) fixed * damping := sub_le_sub_right hCloser _
    _ = (change ranks fixed - change ((ofGraph g).round damping ranks) fixed) * damping := by ring
    _ ≤ tolerance * damping := mul_le_mul_of_nonneg_right (by linarith) hPos

end Rounds

end Flow

/-! ## Page ranks -/

namespace DependencyGraph

variable {g : DependencyGraph} {config : RankConfig Rat}

/-- Rounds end with ranks that have settled just if one that is allowed changes little enough. -/
theorem converged_pageRank_iff (hLinks : g.links ≠ []) :
    (g.digraph.pageRank config).converged = true ↔ ∃ k < config.maxIterations,
      (Flow.ofGraph g.digraph).changeAfter config.damping k < config.tolerance := by
  have hEnded : (Flow.ofGraph g.digraph).Ended config config.maxIterations 0
      (g.digraph.pageRank config) := ended_pageRank hLinks
  constructor
  · intro hConverged
    obtain ⟨k, hRounds, hSmall⟩ := hEnded.converged hConverged
    have hMost := hEnded.atMost
    exact ⟨k, by omega, hSmall⟩
  · rintro ⟨k, hAllowed, hSmall⟩
    by_contra hOver
    exact hEnded.allowed (Bool.eq_false_of_not_eq_true hOver) k (Nat.zero_le k) (by omega) hSmall

/-- **Ranks settle** if the damping makes up for the tolerance in the rounds that are allowed. -/
theorem converged_pageRank (hAccepted : config.Accepted)
    (hRounds : 2 * config.damping ^ config.maxIterations < config.tolerance) :
    (g.digraph.pageRank config).converged = true := by
  by_cases hLinks : g.links = []
  · rw [pageRank_of_links_eq_nil hLinks]
  · have hLast : config.maxIterations - 1 + 1 = config.maxIterations :=
      Nat.sub_add_cancel hAccepted.maxIterations_pos
    refine (converged_pageRank_iff hLinks).mpr ⟨config.maxIterations - 1, by omega, ?_⟩
    refine lt_of_le_of_lt ?_ hRounds
    conv_rhs => rw [← hLast]
    exact Flow.changeAfter_le nodup_next hAccepted.damping_pos.le (size_pos hLinks) _

/-- The standard configuration is within the bounds. -/
theorem accepted_standard : (RankConfig.standard : RankConfig Rat).Accepted := by
  constructor <;> norm_num [RankConfig.standard, ratio, natural]

/--
**Page ranks settle.** In exact arithmetic, with a configuration within the bounds, let a graph have
some link. The first round changes the ranks by at most twice the damping, and each round after it
by at most the damping times what the one before it has changed. The ranks of the graph are those
after some rounds; they count as settled just if one of the rounds that are allowed changes less
than the tolerance. A round leaves exactly one ranking alone, and ranks that count as settled differ
from that one by at most `tolerance * damping / (1 - damping)`.

Hence the ranks of every graph settle if `2 * damping ^ maxIterations` is below the tolerance. That
is so for the standard configuration, and for the settings that a project has when it does not say
otherwise, whose doubles are not exactly these numbers.
-/
theorem pageRank_converges (graph : DependencyGraph) (hAccepted : config.Accepted) :
    let flow := Flow.ofGraph graph.digraph
    let result : Ranking Rat graph.size := graph.digraph.pageRank config
    (graph.links ≠ [] →
      flow.changeAfter config.damping 0 ≤ 2 * config.damping ∧
      (∀ k, flow.changeAfter config.damping (k + 1) ≤
        config.damping * flow.changeAfter config.damping k) ∧
      result.ranks = flow.ranksAfter config.damping result.iterations ∧
      (result.converged = true ↔ ∃ k < config.maxIterations,
        flow.changeAfter config.damping k < config.tolerance) ∧
      ∃ fixed : Vector Rat graph.size,
        (∀ ranks, flow.round config.damping ranks = ranks ↔ ranks = fixed) ∧
        (result.converged = true → Flow.change result.ranks fixed ≤
          config.tolerance * config.damping / (1 - config.damping))) ∧
    (2 * config.damping ^ config.maxIterations < config.tolerance → result.converged = true) ∧
    (graph.digraph.pageRank (RankConfig.standard : RankConfig Rat)).converged = true ∧
    (graph.digraph.pageRank ({} : TriageSettings).ranking).converged = true := by
  intro flow result
  have hPos : 0 ≤ config.damping := hAccepted.damping_pos.le
  refine ⟨fun hLinks => ?_, converged_pageRank hAccepted, ?_, ?_⟩
  · have hEnded : flow.Ended config config.maxIterations 0 result := ended_pageRank hLinks
    obtain ⟨fixed, hFixed⟩ :=
      Flow.exists_settled (g := graph.digraph) nodup_next hPos hAccepted.damping_lt_one
    refine ⟨Flow.changeAfter_zero_le nodup_next hPos (size_pos hLinks),
      Flow.changeAfter_succ_le nodup_next hPos, hEnded.ranks, converged_pageRank_iff hLinks,
      fixed, fun ranks => ⟨fun hRanks => ?_, fun hEq => hEq ▸ hFixed⟩, fun hConverged => ?_⟩
    · exact Flow.eq_of_settled nodup_next hPos hAccepted.damping_lt_one hRanks hFixed
    · obtain ⟨k, hRounds, hSmall⟩ := hEnded.converged hConverged
      rw [hEnded.ranks, hRounds, Flow.ranksAfter_succ]
      rw [Flow.changeAfter, Flow.ranksAfter_succ] at hSmall
      exact Flow.change_settled_le nodup_next hPos hAccepted.damping_lt_one hFixed hSmall
  · refine converged_pageRank accepted_standard ?_
    norm_num [RankConfig.standard, ratio, natural]
  · exact converged_pageRank TriageSettings.accepted_plain (by decide +kernel)

/-- Two items that block each other and a third that both of them block, with a damping of a half
and rounds that stop at a change below one thousandth: twelve rounds are enough, and the ranks are
then within one thousandth of those that a round leaves alone. -/
theorem pageRank_of_half_damping :
    let graph := ofBoard [{ id := "a", blocking := some ["b", "c"] },
      { id := "b", blocking := some ["a", "c"] }, { id := "c" }]
    let config : RankConfig Rat := ⟨1 / 2, 1 / 1000, 12⟩
    let result : Ranking Rat graph.size := graph.digraph.pageRank config
    config.Accepted ∧ graph.links ≠ [] ∧
      2 * config.damping ^ config.maxIterations < config.tolerance ∧ result.converged = true ∧
      ∃ fixed : Vector Rat graph.size,
        (Flow.ofGraph graph.digraph).round config.damping fixed = fixed ∧
        Flow.change result.ranks fixed ≤ 1 / 1000 := by
  intro graph config result
  have hAccepted : config.Accepted := by constructor <;> norm_num [config]
  have hSize : graph.links.length = 4 := by cbv
  have hLinks : graph.links ≠ [] := List.ne_nil_of_length_eq_add_one hSize
  have hRounds : 2 * config.damping ^ config.maxIterations < config.tolerance := by
    norm_num [config]
  obtain ⟨hSome, hSettle, -⟩ := pageRank_converges graph hAccepted
  obtain ⟨-, -, -, -, fixed, hFixed, hNear⟩ := hSome hLinks
  refine ⟨hAccepted, hLinks, hRounds, hSettle hRounds, fixed, (hFixed fixed).mpr rfl, ?_⟩
  refine (hNear (hSettle hRounds)).trans_eq ?_
  norm_num [config]

end DependencyGraph

end Taskboard
