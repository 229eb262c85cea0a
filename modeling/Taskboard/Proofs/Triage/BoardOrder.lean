import Mathlib
import Taskboard.Proofs.Centrality.Renumbering
import Taskboard.Proofs.Triage.Ranking

/-!
# Taskboard — boards in another order

A board is a list, but nobody has put its items in that order for a reason. If each id stands on
it once, a report on the same items in another order says the same of each of them. Places change,
links do not; so the graph is renumbered, and all that is computed from it is carried along. What
follows the order of the board follows the new one.

Two things are left to the order. Items of equal standing may change places in the ranking, and
items on or behind a cycle may get another depth, since a depth-first search cuts a cycle where it
happens to enter it.

* `Report.metricsAt_places` — the metrics of an item do not depend on the order, its depth apart;
* `Report.Rearranged` — how two reports may differ that list the same items in another order;
* `Report.compute_perm` — reports on the same items differ in no other way.
-/

namespace Taskboard

variable {xs ys : Board}

/-! ## Graphs and priorities -/

namespace DependencyGraph

theorem ids_of_distinct (hDistinct : (xs.map WorkItem.id).Nodup) :
    (ofBoard xs).ids = xs.map WorkItem.id :=
  eraseDups_of_nodup hDistinct

end DependencyGraph

/-! ## Metrics -/

/-- Metrics that agree in what they count and in every score; depths may differ. -/
structure Metrics.SameScores {R : Type} [Scalar R] (a b : Metrics R) : Prop where
  pageRank      : b.pageRank = a.pageRank
  betweenness   : b.betweenness = a.betweenness
  inDegree      : b.inDegree = a.inDegree
  outDegree     : b.outDegree = a.outDegree
  unblockCount  : b.unblockCount = a.unblockCount
  isCritical    : b.isCritical = a.isCritical
  criticalScore : b.criticalScore = a.criticalScore
  impactScore   : b.impactScore = a.impactScore

namespace Report

/-- If ids are distinct, the item with an id is known from the id. -/
theorem find?_id_eq_some_iff (hDistinct : (xs.map WorkItem.id).Nodup) {id : String}
    {item : WorkItem} :
    (xs.find? fun item => item.id == id) = some item ↔ item ∈ xs ∧ item.id = id := by
  constructor
  · intro hFind
    exact ⟨List.mem_of_find?_eq_some hFind, by simpa using List.find?_some hFind⟩
  · rintro ⟨hMem, rfl⟩
    cases hFind : xs.find? fun other => other.id == item.id with
    | none =>
      have hNone := List.find?_eq_none.mp hFind item hMem
      simp at hNone
    | some other =>
      have hId : other.id = item.id := by simpa using List.find?_some hFind
      rw [List.inj_on_of_nodup_map hDistinct (List.mem_of_find?_eq_some hFind) hMem hId]

theorem priorityOf_perm (hPerm : xs.Perm ys) (hDistinct : (xs.map WorkItem.id).Nodup)
    (id : String) : priorityOf xs id = priorityOf ys id := by
  have hDistinct' : (ys.map WorkItem.id).Nodup := (hPerm.map _).nodup_iff.mp hDistinct
  have hFind : (xs.find? fun item => item.id == id) = ys.find? fun item => item.id == id := by
    ext item
    rw [find?_id_eq_some_iff hDistinct, find?_id_eq_some_iff hDistinct', hPerm.mem_iff]
  rw [priorityOf, priorityOf, hFind]

section Places

variable {g h : DependencyGraph} (hIds : ∀ id, id ∈ g.ids ↔ id ∈ h.ids)
  (hLinks : g.links = h.links) (ranking : RankConfig Rat)

include hIds hLinks

theorem depth_places (hAcyclic : g.cycles = []) (v : Fin g.size) :
    (metricsAt (.computed ranking) ys h (DependencyGraph.places hIds v)).depth =
      (metricsAt (.computed ranking) xs g v).depth :=
  (DependencyGraph.renumbers_places hIds hLinks).depths
    (DependencyGraph.cycles_eq_nil_iff.mp hAcyclic) DependencyGraph.notMem_prev v

variable (hPriority : ∀ id, priorityOf xs id = priorityOf ys id)

include hPriority

/-- **The metrics of an item** in a renumbered graph, its depth apart. -/
theorem metricsAt_places (v : Fin g.size) :
    metricsAt (.computed ranking) ys h (DependencyGraph.places hIds v) =
      { metricsAt (.computed ranking) xs g v with
        depth := h.digraph.depths.get (DependencyGraph.places hIds v) } := by
  have hRenumbers := DependencyGraph.renumbers_places hIds hLinks
  rw [metricsAt_computed, metricsAt_computed, hRenumbers.pageRank ranking v,
    hRenumbers.betweenness v, hRenumbers.prev, hRenumbers.next, hRenumbers.reach,
    DependencyGraph.id_places, hPriority]
  simp only [List.length_map]

theorem sameScores_places (v : Fin g.size) :
    (metricsAt (.computed ranking) xs g v).SameScores
      (metricsAt (.computed ranking) ys h (DependencyGraph.places hIds v)) := by
  -- no score reads the depth
  rw [metricsAt_places hIds hLinks ranking hPriority v]
  constructor <;> rfl

omit hLinks hPriority in
theorem lookup_places (v : Fin g.size) :
    (metricsOf (.computed ranking) ys h).lookup (g.id v) =
      some (metricsAt (.computed ranking) ys h (DependencyGraph.places hIds v)) := by
  rw [← DependencyGraph.id_places hIds v, lookup_metricsOf]

/-- What is said of an id before and after. An id that is not on the board has no metrics in
either report. -/
theorem rel_lookup_metricsOf (id : String) :
    Option.Rel Metrics.SameScores ((metricsOf (.computed ranking) xs g).lookup id)
      ((metricsOf (.computed ranking) ys h).lookup id) := by
  by_cases hId : id ∈ g.ids
  · obtain ⟨v, rfl⟩ := DependencyGraph.exists_id_eq hId
    rw [lookup_metricsOf, lookup_places hIds]
    exact Option.Rel.some (sameScores_places hIds hLinks ranking hPriority v)
  · rw [lookup_metricsOf_eq_none hId, lookup_metricsOf_eq_none ((hIds id).not.mp hId)]
    exact Option.Rel.none

end Places

/-! ## Lists and ranking -/

/-- A list of ids that holds the same ids as an old one, in the order of a board. -/
structure Relisted (board : Board) (old new : List String) : Prop where
  same    : new.Perm old
  inOrder : new.Sublist (board.map WorkItem.id)

section Tables

variable {old new : List (String × Metrics Rat)}
  (hRel : ∀ id, Option.Rel Metrics.SameScores (old.lookup id) (new.lookup id))

include hRel

/-- Tests that read nothing but scores have the same outcome. -/
theorem any_lookup_eq {keep : Metrics Rat → Bool} (hKeep : ∀ a b, a.SameScores b → keep b = keep a)
    (id : String) : (new.lookup id).any keep = (old.lookup id).any keep := by
  have hId := hRel id
  generalize old.lookup id = a at hId
  generalize new.lookup id = b at hId
  cases hId with
  | none => rfl
  | some hSame => exact hKeep _ _ hSame

theorem ofMetrics_lookup_eq (id : String) :
    ((new.lookup id).map Standing.ofMetrics).getD .zero =
      ((old.lookup id).map Standing.ofMetrics).getD .zero := by
  have hId := hRel id
  generalize old.lookup id = a at hId
  generalize new.lookup id = b at hId
  cases hId with
  | none => rfl
  | some hSame =>
    simp only [Option.map_some, Option.getD_some, Standing.ofMetrics, hSame.impactScore,
      hSame.unblockCount, hSame.isCritical]

end Tables

/-! ## Reports -/

/-- What a report on a board, `new`, has in common with a report on the same items in another
order, `old`. -/
structure Rearranged (board : Board) (old new : Report Rat) : Prop where
  contentHash  : new.contentHash = old.contentHash
  cycles       : new.cycles = old.cycles
  metrics      : ∀ id ∈ board.map WorkItem.id, ∃ a b, old.metrics.lookup id = some a ∧
    new.metrics.lookup id = some b ∧ a.SameScores b ∧ (old.cycles = [] → b.depth = a.depth)
  ready        : Relisted board old.ready new.ready
  blocked      : Relisted board old.blocked new.blocked
  criticalPath : Relisted board old.criticalPath new.criticalPath
  highImpact   : Relisted board old.highImpact new.highImpact
  ranked       : new.ranked.Perm old.ranked
  rankedEqual  : List.Forall₂ (fun a b => (old.standing a).compare (new.standing b) = .eq)
    old.ranked new.ranked

/--
**A report does not depend on the order of the board.** If each id stands on the board once, a
pass over the same items in another order finds the same links and cycles, and for each id the
same scores; without cycles also the same depths. Its lists hold the same ids, in the new order,
and in the ranking only ids of equal standing change places.
-/
theorem compute_perm (ranking : RankConfig Rat) (config : TriageConfig Rat) (hPerm : xs.Perm ys)
    (hDistinct : (xs.map WorkItem.id).Nodup) :
    Rearranged ys (compute (.computed ranking) config xs)
      (compute (.computed ranking) config ys) := by
  have hDistinct' : (ys.map WorkItem.id).Nodup := (hPerm.map _).nodup_iff.mp hDistinct
  have hOldIds := DependencyGraph.ids_of_distinct hDistinct
  have hNewIds := DependencyGraph.ids_of_distinct hDistinct'
  have hIdsPerm : (xs.map WorkItem.id).Perm (ys.map WorkItem.id) := hPerm.map _
  have hIds := DependencyGraph.mem_ids_perm hPerm
  have hLinks := DependencyGraph.links_perm hPerm
  have hPriority := priorityOf_perm hPerm hDistinct
  have hRel := rel_lookup_metricsOf hIds hLinks ranking hPriority
  -- the four lists are filtered ids, and their tests read scores only
  have hLists : ∀ keep : Metrics Rat → Bool, (∀ a b, a.SameScores b → keep b = keep a) →
      Relisted ys (idsWhere (metricsOf (.computed ranking) xs (.ofBoard xs)) keep)
        (idsWhere (metricsOf (.computed ranking) ys (.ofBoard ys)) keep) := by
    intro keep hKeep
    rw [idsWhere_metricsOf, idsWhere_metricsOf, hOldIds, hNewIds]
    simp only [any_lookup_eq hRel hKeep]
    exact ⟨(hIdsPerm.filter _).symm, List.filter_sublist⟩
  have hReady : ∀ a b : Metrics Rat, a.SameScores b → b.isReady = a.isReady := by
    intro a b hSame
    rw [Metrics.isReady, Metrics.isReady, hSame.inDegree]
  have hStanding : (compute (.computed ranking) config ys).standing =
      (compute (.computed ranking) config xs).standing :=
    funext (ofMetrics_lookup_eq hRel)
  constructor
  case contentHash =>
    show (DependencyGraph.ofBoard ys).contentHash = (DependencyGraph.ofBoard xs).contentHash
    rw [DependencyGraph.contentHash, DependencyGraph.contentHash, DependencyGraph.content,
      DependencyGraph.content, hLinks]
  case cycles => exact (DependencyGraph.cycles_eq hIds hLinks).symm
  case metrics =>
    intro id hId
    rw [← hNewIds, ← hIds] at hId
    obtain ⟨v, rfl⟩ := DependencyGraph.exists_id_eq hId
    exact ⟨_, _, lookup_metricsOf v, lookup_places hIds ranking v,
      sameScores_places hIds hLinks ranking hPriority v,
      fun hAcyclic => depth_places hIds hLinks ranking hAcyclic v⟩
  case ready => exact hLists Metrics.isReady hReady
  case blocked =>
    refine hLists (fun m => !m.isReady) ?_
    intro a b hSame
    rw [hReady a b hSame]
  case criticalPath => exact hLists _ fun a b hSame => hSame.isCritical
  case highImpact =>
    refine hLists (fun m => config.highImpactFrom.rank ≤
      (ImpactLevel.ofScore m.impactScore).rank) ?_
    intro a b hSame
    rw [hSame.impactScore]
  case ranked =>
    rw [ranked_compute, ranked_compute, hOldIds, hNewIds]
    exact (sortByImpact_perm.trans hIdsPerm.symm).trans sortByImpact_perm.symm
  case rankedEqual =>
    -- both rankings sort by one standing
    rw [hStanding, ranked_compute, ranked_compute, hStanding, hOldIds, hNewIds]
    exact forall₂_sortByImpact hIdsPerm

/-- A chain of three items, from its end and from its start. -/
theorem rearranged_chain :
    let xs : Board := [{ id := "c", blockedBy := some ["b"] },
      { id := "b", blocking := some ["c"] }, { id := "a", blocking := some ["b"] }]
    let config : TriageConfig Rat := { ranking := .standard }
    xs.Perm xs.reverse ∧ (xs.map WorkItem.id).Nodup ∧
      Rearranged xs.reverse (compute (.computed .standard) config xs)
        (compute (.computed .standard) config xs.reverse) := by
  intro xs config
  have hPerm : xs.Perm xs.reverse := (List.reverse_perm xs).symm
  have hDistinct : (xs.map WorkItem.id).Nodup := by decide
  exact ⟨hPerm, hDistinct, compute_perm .standard config hPerm hDistinct⟩

end Report

end Taskboard
