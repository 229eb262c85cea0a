import Mathlib
import Taskboard.Proofs.Triage.Metrics

/-!
# Taskboard — the order of the ranking

Standings are compared by three keys, the greatest first. Where numbers are in a total order, so
are standings. A list sorted by impact is then the one arrangement of its members in which no
standing precedes a greater one, up to an exchange of members with equal standings.

* `Standing.compare` is a total order if `Scalar.order` is one;
* `pairwise_sortByImpact` — no standing in a sorted list precedes a greater one;
* `map_sortByImpact_eq` — the standings along it do not depend on the order before;
* `Report.ranked_compute` — the ranking of a report: its ids, sorted by their standings.
-/

namespace Taskboard

/-! ## Exact numbers -/

theorem Scalar.order_eq_compare : (Scalar.order : Rat → Rat → Ordering) = Ord.compare := by
  funext x y
  exact (LinearOrder.compare_eq_compareOfLessAndEq x y).symm

instance : Std.TransCmp (Scalar.order : Rat → Rat → Ordering) := by
  rw [Scalar.order_eq_compare]
  infer_instance

instance : Std.LawfulEqCmp (Scalar.order : Rat → Rat → Ordering) := by
  rw [Scalar.order_eq_compare]
  infer_instance

/-! ## Standings -/

/-- A comparison by one key, the greatest first. -/
theorem transCmp_descending {α β : Type} (key : α → β) (cmp : β → β → Ordering)
    [Std.TransCmp cmp] : Std.TransCmp fun a b => cmp (key b) (key a) where
  eq_swap := Std.OrientedCmp.eq_swap
  isLE_trans hab hbc := Std.TransCmp.isLE_trans hbc hab

namespace Standing

variable {R : Type} [Scalar R]

theorem compare_eq_compareLex : (compare : Standing R → Standing R → Ordering) =
    compareLex (fun a b => Scalar.order b.impact a.impact)
      (compareLex (fun a b => Ord.compare b.unblockCount a.unblockCount)
        (fun a b => Ord.compare b.critical a.critical)) :=
  rfl

theorem le_iff {a b : Standing R} : a.le b = true ↔ (a.compare b).isLE = true := by
  rw [le]
  cases a.compare b <;> simp

/-- Standings that compare equal are equal, if numbers are. -/
theorem eq_of_compare_eq [Std.LawfulEqCmp (Scalar.order : R → R → Ordering)] {a b : Standing R}
    (h : a.compare b = .eq) : a = b := by
  obtain ⟨impact, unblock, critical⟩ := a
  obtain ⟨impact', unblock', critical'⟩ := b
  simp only [compare, Ordering.then_eq_eq] at h
  obtain ⟨hImpact, hUnblock, hCritical⟩ := h
  obtain rfl := Std.LawfulEqCmp.eq_of_compare hImpact
  obtain rfl := Std.LawfulEqCmp.eq_of_compare hUnblock
  obtain rfl := Std.LawfulEqCmp.eq_of_compare hCritical
  rfl

section Order

variable [Std.TransCmp (Scalar.order : R → R → Ordering)]

instance : Std.TransCmp (compare : Standing R → Standing R → Ordering) := by
  have hImpact := transCmp_descending (impact : Standing R → R) Scalar.order
  have hUnblock := transCmp_descending (unblockCount : Standing R → Nat) Ord.compare
  have hCritical := transCmp_descending (critical : Standing R → Bool) Ord.compare
  rw [compare_eq_compareLex]
  infer_instance

theorem le_trans {a b c : Standing R} (hab : a.le b = true) (hbc : b.le c = true) :
    a.le c = true := by
  rw [le_iff] at *
  exact Std.TransCmp.isLE_trans hab hbc

theorem le_total (a b : Standing R) : (a.le b || b.le a) = true := by
  have hSwap : b.compare a = (a.compare b).swap := Std.OrientedCmp.eq_swap
  rw [Bool.or_eq_true, le_iff, le_iff, hSwap]
  cases a.compare b <;> simp

theorem compare_eq_of_le_of_le {a b : Standing R} (hab : a.le b = true) (hba : b.le a = true) :
    a.compare b = .eq := by
  rw [le_iff] at *
  exact Std.OrientedCmp.isLE_antisymm hab hba

end Order

end Standing

/-! ## Sorted lists -/

section Sorted

variable {R α : Type} [Scalar R] {standing : α → Standing R} {xs ys : List α}

theorem sortByImpact_perm : (sortByImpact standing xs).Perm xs :=
  List.mergeSort_perm _ _

/-- A list with the standings beside its members, sorted by them. -/
theorem map_fst_sortByImpact :
    (sortByImpact Prod.snd (xs.map fun x => (x, standing x))).map Prod.fst =
      sortByImpact standing xs := by
  have hSort : (sortByImpact Prod.snd (xs.map fun x => (x, standing x))).map Prod.fst =
      sortByImpact standing ((xs.map fun x => (x, standing x)).map Prod.fst) := by
    refine List.map_mergeSort ?_
    intro a ha b hb
    obtain ⟨x, -, rfl⟩ := List.mem_map.mp ha
    obtain ⟨y, -, rfl⟩ := List.mem_map.mp hb
    rfl
  rw [hSort, List.map_map]
  simp [Function.comp_def]

variable [Std.TransCmp (Scalar.order : R → R → Ordering)]

/-- **No standing in a sorted list precedes a greater one.** -/
theorem pairwise_sortByImpact (standing : α → Standing R) (xs : List α) :
    (sortByImpact standing xs).Pairwise fun a b => (standing a).le (standing b) = true := by
  rw [sortByImpact]
  refine List.pairwise_mergeSort ?_ ?_ xs
  · intro a b c
    exact Standing.le_trans
  · intro a b
    exact Standing.le_total (standing a) (standing b)

variable [Std.LawfulEqCmp (Scalar.order : R → R → Ordering)]

/-- **The standings along a sorted list** do not depend on the order of the list before. -/
theorem map_sortByImpact_eq (hPerm : xs.Perm ys) :
    (sortByImpact standing xs).map standing = (sortByImpact standing ys).map standing := by
  have hSame : ((sortByImpact standing xs).map standing).Perm
      ((sortByImpact standing ys).map standing) :=
    ((sortByImpact_perm.trans hPerm).trans sortByImpact_perm.symm).map standing
  have hSorted : ∀ zs, ((sortByImpact standing zs).map standing).Pairwise
      fun a b => a.le b = true :=
    fun zs => List.pairwise_map.mpr (pairwise_sortByImpact standing zs)
  refine hSame.eq_of_pairwise ?_ (hSorted xs) (hSorted ys)
  intro a b _ _ hab hba
  exact Standing.eq_of_compare_eq (Standing.compare_eq_of_le_of_le hab hba)

/-- Two sortings of the same members differ by an exchange of members that compare equal. -/
theorem forall₂_sortByImpact (hPerm : xs.Perm ys) :
    List.Forall₂ (fun a b => (standing a).compare (standing b) = .eq)
      (sortByImpact standing xs) (sortByImpact standing ys) := by
  have hMapped : List.Forall₂ (fun a b => a = b) ((sortByImpact standing xs).map standing)
      ((sortByImpact standing ys).map standing) := by
    rw [List.forall₂_eq_eq_eq]
    exact map_sortByImpact_eq hPerm
  -- at each place the standings are the same, whichever members have them
  have hEq := List.forall₂_map_right_iff.mp (List.forall₂_map_left_iff.mp hMapped)
  refine hEq.imp ?_
  intro a b h
  rw [h]
  exact Std.ReflCmp.compare_self

end Sorted

/-! ## The ranking of a report -/

namespace Report

variable {R : Type} [Scalar R]

/-- The standing of an id in a report. -/
def standing (r : Report R) (id : String) : Standing R :=
  ((r.metrics.lookup id).map Standing.ofMetrics).getD .zero

theorem standing_compute (provider : Provider R) (config : TriageConfig R) (board : Board)
    (v : Fin (DependencyGraph.ofBoard board).size) :
    (compute provider config board).standing ((DependencyGraph.ofBoard board).id v) =
      .ofMetrics (metricsAt provider board (.ofBoard board) v) := by
  show (((metricsOf provider board _).lookup _).map Standing.ofMetrics).getD .zero = _
  rw [lookup_metricsOf, Option.map_some, Option.getD_some]

/-- **The ranking of a report**: the ids, sorted by their standings. -/
theorem ranked_compute (provider : Provider R) (config : TriageConfig R) (board : Board) :
    (compute provider config board).ranked =
      sortByImpact (compute provider config board).standing
        (DependencyGraph.ofBoard board).ids := by
  rw [← map_fst_sortByImpact, ← DependencyGraph.map_id_finRange, List.map_map]
  show rank (metricsOf provider board _) = _
  rw [rank, metricsOf_eq, List.map_map]
  congr 2
  refine List.map_congr_left fun v _ => ?_
  simp only [Function.comp_apply, standing_compute]

end Report

end Taskboard
