import Mathlib
import Taskboard.Centrality.Provider
import Taskboard.Proofs.Graph.Renumbering

/-!
# Taskboard — centrality under new numbers

Renumbering the nodes of a graph carries its page ranks and its betweenness along. Walks along
neighbours come out in the same order (`Digraph.Renumbers`), so only the sums over all nodes are
taken in another order. With exact arithmetic that makes no difference; with doubles it may, in
the last digits.

* `Carried` — a table that is another one under new numbers;
* `Digraph.Renumbers.pageRank` — the ranks are carried along, and so is the number of rounds;
* `Digraph.Renumbers.betweenness` — and so is betweenness.
-/

namespace Taskboard

open Scalar

variable {n m : Nat} {σ : Fin n ≃ Fin m} {g : Digraph n} {h : Digraph m}

/-- The values of `ys` are those of `xs`, found at the new numbers. -/
def Carried {α : Type} (σ : Fin n ≃ Fin m) (xs : Vector α n) (ys : Vector α m) : Prop :=
  ∀ v, ys.get (σ v) = xs.get v

theorem carried_replicate {α : Type} (x : α) :
    Carried σ (Vector.replicate n x) (Vector.replicate m x) := by
  intro v
  simp [Vector.get_eq_getElem]

/-! ## Sums in another order -/

/-- With exact arithmetic a sum does not depend on its order. -/
theorem sum_perm {xs ys : List Rat} (hPerm : xs.Perm ys) : Scalar.sum xs = Scalar.sum ys := by
  rw [Scalar.sum, Scalar.sum]
  show xs.foldl (fun a b : Rat => a + b) _ = ys.foldl (fun a b : Rat => a + b) _
  exact hPerm.foldl_eq _

theorem sum_filter_renumbered (σ : Fin n ≃ Fin m) {p : Fin n → Bool} {q : Fin m → Bool}
    {f : Fin n → Rat} {f' : Fin m → Rat} (hKeep : ∀ v, q (σ v) = p v)
    (hValue : ∀ v, f' (σ v) = f v) :
    Scalar.sum (((List.finRange m).filter q).map f') =
      Scalar.sum (((List.finRange n).filter p).map f) := by
  have hPerm := ((Digraph.perm_finRange σ).filter q).map f'
  rw [sum_perm hPerm, List.filter_map, List.map_map]
  have hKeep' : q ∘ σ = p := funext hKeep
  have hValue' : f' ∘ σ = f := funext hValue
  rw [hKeep', hValue']

theorem sum_renumbered (σ : Fin n ≃ Fin m) {f : Fin n → Rat} {f' : Fin m → Rat}
    (hValue : ∀ v, f' (σ v) = f v) :
    Scalar.sum ((List.finRange m).map f') = Scalar.sum ((List.finRange n).map f) := by
  have hSum := sum_filter_renumbered σ (p := fun _ => true) (q := fun _ => true) (fun _ => rfl)
    hValue
  rwa [List.filter_true, List.filter_true] at hSum

namespace Digraph.Renumbers

/-! ## Page rank -/

theorem out (hR : Renumbers σ g h) : Carried σ (Flow.ofGraph g).out (Flow.ofGraph h).out := by
  intro u
  simp only [Flow.ofGraph, get_ofFn, hR.next, List.length_map]

theorem sources_perm (hR : Renumbers σ g h) (v : Fin n) :
    ((Flow.ofGraph h).sources.get (σ v)).Perm (((Flow.ofGraph g).sources.get v).map σ) := by
  simp only [Flow.ofGraph, get_ofFn]
  refine ((perm_finRange σ).filter _).trans ?_
  rw [List.filter_map]
  simp only [Function.comp_def, hR.contains_prev]
  exact List.Perm.refl _

theorem dangling (hR : Renumbers σ g h) {xs : Vector Rat n} {ys : Vector Rat m}
    (hCarried : Carried σ xs ys) :
    (Flow.ofGraph h).dangling ys = (Flow.ofGraph g).dangling xs := by
  rw [Flow.dangling, Flow.dangling]
  refine sum_filter_renumbered σ ?_ hCarried
  intro v
  rw [hR.out v]

theorem round (hR : Renumbers σ g h) (damping : Rat) {xs : Vector Rat n} {ys : Vector Rat m}
    (hCarried : Carried σ xs ys) :
    Carried σ ((Flow.ofGraph g).round damping xs) ((Flow.ofGraph h).round damping ys) := by
  -- the number of nodes stands in the formula itself
  obtain rfl : n = m := Fin.equiv_iff_eq.mp ⟨σ⟩
  intro v
  simp only [Flow.round, get_ofFn]
  rw [hR.dangling hCarried]
  -- the shares are added in another order
  have hShares : RightCommutative fun (acc : Rat) (u : Fin n) =>
      acc + damping * ys.get u / natural ((Flow.ofGraph h).out.get u) :=
    ⟨fun a b c => add_right_comm a _ _⟩
  have hFold := (hR.sources_perm v).foldl_eq
    (f := fun (acc : Rat) (u : Fin n) =>
      acc + damping * ys.get u / natural ((Flow.ofGraph h).out.get u))
  rw [hFold, List.foldl_map]
  simp only [hCarried _, hR.out _]

theorem change {xs new : Vector Rat n} {ys new' : Vector Rat m} (hCarried : Carried σ xs ys)
    (hNew : Carried σ new new') : Flow.change ys new' = Flow.change xs new := by
  rw [Flow.change, Flow.change]
  refine sum_renumbered σ ?_
  intro v
  rw [hCarried v, hNew v]

/-- The rounds go on together and end together. -/
theorem iterate (hR : Renumbers σ g h) (config : RankConfig Rat) (rounds done : Nat)
    {xs : Vector Rat n} {ys : Vector Rat m} (hCarried : Carried σ xs ys) :
    Carried σ ((Flow.ofGraph g).iterate config rounds done xs).ranks
      ((Flow.ofGraph h).iterate config rounds done ys).ranks := by
  induction rounds generalizing done xs ys with
  | zero => exact hCarried
  | succ rounds ih =>
    have hNew := hR.round config.damping hCarried
    rw [Flow.iterate, Flow.iterate]
    -- the change is the same, so both stop or both go on
    simp only [change hCarried hNew]
    split
    · exact hNew
    · exact ih (done + 1) hNew

/-- **Page ranks are carried along.** -/
theorem pageRank (hR : Renumbers σ g h) (config : RankConfig Rat) :
    Carried σ (g.pageRank config).ranks (h.pageRank config).ranks := by
  obtain rfl : n = m := Fin.equiv_iff_eq.mp ⟨σ⟩
  rw [Digraph.pageRank, Digraph.pageRank, hR.edgeCount]
  split
  · exact carried_replicate _
  · exact hR.iterate config _ _ (carried_replicate _)

/-! ## Betweenness -/

variable {R : Type} [Scalar R]

/-- A path count at the new number of its node. -/
def moved (σ : Fin n ≃ Fin m) (c : Counted R n) : Counted R m :=
  ⟨σ c.node, c.paths⟩

/-- A dependency at the new number of its node. -/
def movedWeight (σ : Fin n ≃ Fin m) (w : Weighed R n) : Weighed R m :=
  ⟨moved σ w.toCounted, w.dependency⟩

theorem pathsInto (hR : Renumbers σ g h) (level : List (Counted R n)) (w : Fin n) :
    Taskboard.pathsInto h (level.map (moved σ)) (σ w) = Taskboard.pathsInto g level w := by
  rw [Taskboard.pathsInto, Taskboard.pathsInto, List.filter_map, List.foldl_map]
  simp only [Function.comp_def, moved, hR.contains_prev]

theorem pathCountsFrom (hR : Renumbers σ g h) (level : List (Counted R n))
    (further : List (List (Fin n))) :
    Taskboard.pathCountsFrom h (level.map (moved σ)) (further.map (List.map σ)) =
      (Taskboard.pathCountsFrom g level further).map (List.map (moved σ)) := by
  induction further generalizing level with
  | nil => rfl
  | cons nodes further ih =>
    have hCounted : (nodes.map σ).map
        (fun w => (⟨w, Taskboard.pathsInto h (level.map (moved σ)) w⟩ : Counted R m)) =
        (nodes.map fun w => (⟨w, Taskboard.pathsInto g level w⟩ : Counted R n)).map (moved σ) := by
      rw [List.map_map, List.map_map]
      refine List.map_congr_left fun w _ => ?_
      simp only [Function.comp_apply, moved, hR.pathsInto]
    simp only [List.map_cons, Taskboard.pathCountsFrom, hCounted, ih]

theorem pathCounts (hR : Renumbers σ g h) (s : Fin n) :
    (Taskboard.pathCounts h (σ s) : List (List (Counted R m))) =
      (Taskboard.pathCounts g s).map (List.map (moved σ)) := by
  rw [Taskboard.pathCounts, Taskboard.pathCounts, hR.levels]
  cases g.levels s with
  | nil => rfl
  | cons nodes further =>
    have hCounted : (nodes.map σ).map (fun v => (⟨v, natural 1⟩ : Counted R m)) =
        (nodes.map fun v => (⟨v, natural 1⟩ : Counted R n)).map (moved σ) := by
      rw [List.map_map, List.map_map]
      rfl
    simp only [List.map_cons, hCounted, hR.pathCountsFrom]

theorem gain (hR : Renumbers σ g h) (behind : List (Weighed R n)) (v : Counted R n) :
    Taskboard.gain h (behind.map (movedWeight σ)) (moved σ v) = Taskboard.gain g behind v := by
  rw [Taskboard.gain, Taskboard.gain, ← List.map_reverse, List.filter_map, List.foldl_map]
  simp only [Function.comp_def, movedWeight, moved, hR.contains_next]

theorem dependencies (hR : Renumbers σ g h) (levels : List (List (Counted R n))) :
    Taskboard.dependencies h (levels.map (List.map (moved σ))) =
      (Taskboard.dependencies g levels).map (List.map (movedWeight σ)) := by
  induction levels with
  | nil => rfl
  | cons level further ih =>
    rw [List.map_cons, Taskboard.dependencies, Taskboard.dependencies, ih]
    have hBehind : (((Taskboard.dependencies g further).map
          (List.map (movedWeight σ))).head?.getD []) =
        ((Taskboard.dependencies g further).head?.getD []).map (movedWeight σ) := by
      cases Taskboard.dependencies g further <;> rfl
    simp only [List.map_cons, hBehind, List.map_map]
    congr 1
    refine List.map_congr_left fun v _ => ?_
    simp only [Function.comp_apply, hR.gain, movedWeight]

omit [Scalar R] in
theorem carried_foldl_set (entries : List (Weighed R n)) {xs : Vector R n} {ys : Vector R m}
    (hCarried : Carried σ xs ys) :
    Carried σ (entries.foldl (fun table w => table.set w.node w.dependency) xs)
      ((entries.map (movedWeight σ)).foldl (fun table w => table.set w.node w.dependency) ys) := by
  induction entries generalizing xs ys with
  | nil => exact hCarried
  | cons w entries ih =>
    rw [List.map_cons, List.foldl_cons, List.foldl_cons]
    refine ih ?_
    intro v
    rw [get_set, get_set]
    simp only [movedWeight, moved, σ.injective.eq_iff, hCarried v]

theorem dependenciesOn (hR : Renumbers σ g h) (s : Fin n) :
    Carried σ (Taskboard.dependenciesOn g s : Vector R n) (Taskboard.dependenciesOn h (σ s)) := by
  rw [Taskboard.dependenciesOn, Taskboard.dependenciesOn, hR.pathCounts, hR.dependencies,
    ← List.map_drop, ← List.map_flatten]
  exact carried_foldl_set _ (carried_replicate _)

/-- **Betweenness is carried along.** -/
theorem betweenness (hR : Renumbers σ g h) :
    Carried σ (g.betweenness : Vector Rat n) h.betweenness := by
  obtain rfl : n = m := Fin.equiv_iff_eq.mp ⟨σ⟩
  rw [Digraph.betweenness, Digraph.betweenness, hR.edgeCount]
  split
  · exact carried_replicate _
  · intro v
    simp only [get_ofFn, List.map_map]
    refine congrArg (fun total : Rat => total / _) (sum_renumbered σ ?_)
    intro s
    exact hR.dependenciesOn s v

end Digraph.Renumbers

end Taskboard
