import Mathlib
import Taskboard.Proofs.Triage.Ranking

/-!
# Taskboard — there is one ranking of a board

A board may hold an id more than once, and a provider may give any scores, those that are no
numbers among them. The ranking is determined all the same: each id stands in it once, no standing
precedes a greater one, and where standings are equal the first occurrences on the board decide.

It does not matter whether repeated ids are dropped before the sort or after it. A stable sort
keeps each class of equal standings in its order, so in either case the first occurrence of an id
stands where the id belongs.

* `filter_sortByImpact` — a sort keeps each class of equal standings as it is;
* `IsRanking` — what a ranking of ids is;
* `isRanking_eraseDups_sortByImpact`, `IsRanking.unique` — there is one, and no other;
* `Report.ranked_is_the_ranking` — a report contains it.
-/

namespace Taskboard

/-! ## Doubles -/

/-- Doubles are in a total order, those that are no numbers among them. -/
instance : Std.TransCmp (Scalar.order : Score → Score → Ordering) :=
  inferInstanceAs (Std.TransCmp (compareOn Score.key))

/-- The order of metrics by impact. -/
def Metrics.compare {R : Type} [Scalar R] (a b : Metrics R) : Ordering :=
  (Standing.ofMetrics a).compare (.ofMetrics b)

instance {R : Type} [Scalar R] [Std.TransCmp (Scalar.order : R → R → Ordering)] :
    Std.TransCmp (Metrics.compare : Metrics R → Metrics R → Ordering) where
  eq_swap {a b} := by
    rw [Metrics.compare, Metrics.compare]
    exact Std.OrientedCmp.eq_swap
  isLE_trans {a b c} := by
    rw [Metrics.compare, Metrics.compare, Metrics.compare]
    exact Std.TransCmp.isLE_trans

/-! ## First occurrences -/

/-- To leave out other members does not change which of two occurs first. -/
theorem idxOf_filter_lt_iff {keep : String → Bool} {a b : String} (ha : keep a = true)
    (hb : keep b = true) (xs : List String) :
    (xs.filter keep).idxOf a < (xs.filter keep).idxOf b ↔ xs.idxOf a < xs.idxOf b := by
  induction xs with
  | nil => simp
  | cons x xs ih =>
    by_cases hx : keep x = true
    · rw [List.filter_cons_of_pos hx]
      simp only [List.idxOf_cons]
      -- at the head it is decided, and else behind it
      cases x == a <;> cases x == b <;> simp [ih]
    · have hxa : (x == a) = false := beq_eq_false_iff_ne.mpr fun h => hx (h ▸ ha)
      have hxb : (x == b) = false := beq_eq_false_iff_ne.mpr fun h => hx (h ▸ hb)
      rw [List.filter_cons_of_neg hx, ih, List.idxOf_cons, List.idxOf_cons, hxa, hxb]
      simp

/-! ## Rankings -/

/-- A list of ids that ranks the ids of another list, in which they may occur repeatedly. -/
structure IsRanking {R : Type} [Scalar R] (standing : String → Standing R)
    (occurrences ids : List String) : Prop where
  once    : ids.Nodup
  all     : ∀ id, id ∈ ids ↔ id ∈ occurrences
  ordered : ids.IsChain fun a b => (standing a).compare (standing b) ≠ .gt
  stable  : ids.Pairwise fun a b => (standing a).compare (standing b) = .eq →
    occurrences.idxOf a < occurrences.idxOf b

/-! ## Stability -/

section Order

variable {R : Type} [Scalar R] [Std.TransCmp (Scalar.order : R → R → Ordering)]

/-- **A sort keeps each class of equal standings as it is.** -/
theorem filter_sortByImpact {α : Type} {standing : α → Standing R} {keep : α → Bool}
    (hKeep : ∀ a b, keep a = true → keep b = true → (standing a).le (standing b) = true)
    (xs : List α) : (sortByImpact standing xs).filter keep = xs.filter keep := by
  have hSorted : (xs.filter keep).Pairwise fun a b => (standing a).le (standing b) = true := by
    refine List.pairwise_of_forall_mem_list ?_
    intro a ha b hb
    exact hKeep a b (List.mem_filter.mp ha).2 (List.mem_filter.mp hb).2
  -- the class is a sorted part of the list, so it is a part of the sorted list
  have hPart : (xs.filter keep).Sublist (sortByImpact standing xs) := by
    refine List.sublist_mergeSort ?_ ?_ hSorted List.filter_sublist
    · intro a b c
      exact Standing.le_trans
    · intro a b
      exact Standing.le_total (standing a) (standing b)
  have hClass := hPart.filter keep
  rw [List.filter_filter] at hClass
  simp only [Bool.and_self] at hClass
  exact (hClass.eq_of_length (sortByImpact_perm.filter keep).length_eq.symm).symm

variable {standing : String → Standing R} {occurrences : List String}

/-- What precedes in a list that is sorted stably, and is equal in standing, occurs earlier. -/
theorem idxOf_lt_of_sortByImpact {a b : String}
    (hEqual : (standing a).compare (standing b) = .eq)
    (hLt : (sortByImpact standing occurrences).idxOf a <
      (sortByImpact standing occurrences).idxOf b) :
    occurrences.idxOf a < occurrences.idxOf b := by
  let keep : String → Bool := fun id => (standing a).compare (standing id) == .eq
  have hKeep : ∀ c d, keep c = true → keep d = true →
      (standing c).le (standing d) = true := by
    intro c d hc hd
    rw [beq_iff_eq] at hc hd
    rw [Standing.le_iff, ← Std.TransCmp.congr_left hc, hd]
    rfl
  have ha : keep a = true := beq_iff_eq.mpr Std.ReflCmp.compare_self
  have hb : keep b = true := beq_iff_eq.mpr hEqual
  rw [← idxOf_filter_lt_iff ha hb, filter_sortByImpact hKeep, idxOf_filter_lt_iff ha hb] at hLt
  exact hLt

/-- **A sorted list without its repetitions is a ranking.** -/
theorem isRanking_eraseDups_sortByImpact (standing : String → Standing R)
    (occurrences : List String) :
    IsRanking standing occurrences (sortByImpact standing occurrences).eraseDups where
  once := DependencyGraph.nodup_eraseDups _ _ (Nat.le_refl _)
  all id := by rw [List.mem_eraseDups, sortByImpact_perm.mem_iff]
  ordered := by
    refine List.Pairwise.isChain ?_
    -- erasing leaves a part of the sorted list, and parts of it are sorted
    refine ((pairwise_sortByImpact standing occurrences).sublist
      (DependencyGraph.eraseDups_sublist _ _ (Nat.le_refl _))).imp ?_
    intro a b hLe
    simpa [Standing.le] using hLe
  stable := by
    refine (DependencyGraph.pairwise_idxOf_eraseDups _).imp ?_
    intro a b hLt hEqual
    exact idxOf_lt_of_sortByImpact hEqual hLt

/-- What precedes without the repetitions occurs earlier with them. -/
theorem idxOf_lt_of_eraseDups {a b : String} (ha : a ∈ occurrences) (hb : b ∈ occurrences)
    (hLt : occurrences.eraseDups.idxOf a < occurrences.eraseDups.idxOf b) :
    occurrences.idxOf a < occurrences.idxOf b := by
  have hOrder := List.pairwise_iff_getElem.mp (DependencyGraph.pairwise_idxOf_eraseDups occurrences)
  have hPlaces := hOrder _ _ (List.idxOf_lt_length_of_mem (List.mem_eraseDups.mpr ha))
    (List.idxOf_lt_length_of_mem (List.mem_eraseDups.mpr hb)) hLt
  rwa [List.getElem_idxOf, List.getElem_idxOf] at hPlaces

omit [Std.TransCmp (Scalar.order : R → R → Ordering)] in
/-- A ranking of the ids without their repetitions is one with them. -/
theorem IsRanking.of_eraseDups {ids : List String}
    (h : IsRanking standing occurrences.eraseDups ids) : IsRanking standing occurrences ids where
  once := h.once
  all id := by rw [h.all, List.mem_eraseDups]
  ordered := h.ordered
  stable := by
    refine h.stable.imp_of_mem ?_
    intro a b ha hb hEarlier hEqual
    rw [h.all, List.mem_eraseDups] at ha hb
    exact idxOf_lt_of_eraseDups ha hb (hEarlier hEqual)

omit [Std.TransCmp (Scalar.order : R → R → Ordering)] in
/-- A ranking has a member for each distinct id. -/
theorem IsRanking.length_eq {ids : List String} (h : IsRanking standing occurrences ids) :
    ids.length = occurrences.toFinset.card := by
  rw [← List.toFinset_card_of_nodup h.once]
  congr 1
  ext id
  rw [List.mem_toFinset, List.mem_toFinset]
  exact h.all id

/-- Along a ranking standings never rise, however far apart two ids are. -/
theorem IsRanking.pairwise {ids : List String} (h : IsRanking standing occurrences ids) :
    ids.Pairwise fun a b => (standing a).le (standing b) = true := by
  have hChain : ids.IsChain fun a b => (standing a).le (standing b) = true :=
    h.ordered.imp fun a b hNot => by simpa [Standing.le] using hNot
  have hTrans : IsTrans String fun a b => (standing a).le (standing b) = true :=
    ⟨fun a b c => Standing.le_trans⟩
  exact hChain.pairwise

/-- **There is no second ranking.** -/
theorem IsRanking.unique {ids ids' : List String} (h : IsRanking standing occurrences ids)
    (h' : IsRanking standing occurrences ids') : ids = ids' := by
  have hPerm : ids.Perm ids' := by
    rw [List.perm_ext_iff_of_nodup h.once h'.once]
    intro id
    rw [h.all, h'.all]
  refine hPerm.eq_of_pairwise ?_ (h.pairwise.and h.stable) (h'.pairwise.and h'.stable)
  rintro a b - - ⟨hab, hEarlier⟩ ⟨hba, hLater⟩
  -- equal standings are told apart by the first occurrences
  have hFirst := hEarlier (Standing.compare_eq_of_le_of_le hab hba)
  have hSecond := hLater (Standing.compare_eq_of_le_of_le hba hab)
  omega

end Order

/-! ## The ranking of a report -/

namespace Report

/-- The ranking of a report is a ranking of its board. -/
theorem isRanking_ranked {R : Type} [Scalar R] [Std.TransCmp (Scalar.order : R → R → Ordering)]
    (provider : Provider R) (config : TriageConfig R) (board : Board) :
    IsRanking (compute provider config board).standing (board.map WorkItem.id)
      (compute provider config board).ranked := by
  -- the report sorts what is left when repetitions are erased, and the sort adds none
  refine IsRanking.of_eraseDups ?_
  have hOnce : (compute provider config board).ranked.Nodup := by
    rw [ranked_compute, sortByImpact_perm.nodup_iff]
    exact (DependencyGraph.ofBoard board).distinct
  have hSorted := isRanking_eraseDups_sortByImpact (compute provider config board).standing
    (DependencyGraph.ofBoard board).ids
  rw [← ranked_compute, DependencyGraph.eraseDups_of_nodup hOnce] at hSorted
  exact hSorted

/--
**The ranking of a report is the one ranking of its board**, whatever scores a provider gives. The
order by impact is total on all metrics. Each id of the board has metrics and stands in the ranking
once, the metrics of consecutive ids are in order, and where metrics compare equal the id that
occurs first on the board precedes. No other list is like that; so it is what remains of the items
of the board, sorted with all their repetitions, when of each id only the first is kept.
-/
theorem ranked_is_the_ranking (provider : Provider Score) (config : TriageConfig Score)
    (board : Board) :
    let r := compute provider config board
    Std.TransCmp (Metrics.compare : Metrics Score → Metrics Score → Ordering) ∧
    (∀ id ∈ board.map WorkItem.id,
      ∃ m, r.metrics.lookup id = some m ∧ r.standing id = .ofMetrics m) ∧
    IsRanking r.standing (board.map WorkItem.id) r.ranked ∧
    (∀ ids, IsRanking r.standing (board.map WorkItem.id) ids → ids = r.ranked) ∧
    r.ranked =
      ((sortByImpact (fun item => r.standing item.id) board).map WorkItem.id).eraseDups := by
  intro r
  have hRanked : IsRanking r.standing (board.map WorkItem.id) r.ranked :=
    isRanking_ranked provider config board
  refine ⟨inferInstance, ?_, hRanked, fun ids hIds => hIds.unique hRanked, ?_⟩
  · intro id hId
    rw [← DependencyGraph.mem_ids_ofBoard] at hId
    obtain ⟨v, rfl⟩ := DependencyGraph.exists_id_eq hId
    exact ⟨_, lookup_metricsOf v, standing_compute provider config board v⟩
  · -- sorted items have sorted ids
    have hItems : (sortByImpact (fun item => r.standing item.id) board).map WorkItem.id =
        sortByImpact r.standing (board.map WorkItem.id) :=
      List.map_mergeSort fun a _ b _ => rfl
    rw [hItems]
    exact hRanked.unique (isRanking_eraseDups_sortByImpact r.standing _)

end Report

end Taskboard
