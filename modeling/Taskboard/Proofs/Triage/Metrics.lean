import Mathlib
import Taskboard.Proofs.Graph.Relation
import Taskboard.Triage.Report

/-!
# Taskboard — metrics by place

A report lists metrics by id. All tables behind it have one entry for each id of the graph, so an
entry belongs to a place, and a look-up by id is a look-up by place.

* `Report.metricsAt` — the metrics at a place;
* `Report.lookup_metricsOf` — what a report says of an id;
* `Report.metricsAt_computed` — the metrics at a place, if centrality is computed;
* `Report.idsWhere_metricsOf` — a list of a report is a part of the ids, in their order.
-/

namespace Taskboard

/-! ## Tables -/

theorem lookup_map_of_injective {n : Nat} {α : Type} {key : Fin n → String}
    (hKey : Function.Injective key) (value : Fin n → α) (v : Fin n) :
    ((List.finRange n).map fun v => (key v, value v)).lookup (key v) = some (value v) := by
  have hMem : v ∈ List.finRange n := List.mem_finRange v
  generalize List.finRange n = vs at *
  induction vs with
  | nil => cases hMem
  | cons w vs ih =>
    rw [List.map_cons, List.lookup_cons]
    by_cases hEq : key v = key w
    · rw [hKey hEq]
      simp
    · have hNe : v ≠ w := fun h => hEq (by rw [h])
      have hOther : (key v == key w) = false := beq_eq_false_iff_ne.mpr hEq
      rw [hOther]
      exact ih ((List.mem_cons.mp hMem).resolve_left hNe)

theorem lookup_map_eq_none {n : Nat} {α : Type} {key : Fin n → String} (value : Fin n → α)
    {id : String} (hId : ∀ v, key v ≠ id) :
    ((List.finRange n).map fun v => (key v, value v)).lookup id = none := by
  rw [List.lookup_eq_none_iff]
  intro entry hEntry
  obtain ⟨v, -, rfl⟩ := List.mem_map.mp hEntry
  simpa using (hId v).symm

namespace DependencyGraph

variable {g : DependencyGraph}

theorem exists_id_eq {id : String} (hId : id ∈ g.ids) : ∃ v, g.id v = id :=
  ⟨g.node id hId, id_node id hId⟩

theorem byId_eq {α : Type} (values : Vector α g.size) :
    g.byId values = (List.finRange g.size).map fun v => (g.id v, values.get v) := by
  rw [← byId_ofFn]
  congr 1
  ext i hi
  simp [Vector.get_eq_getElem]

@[simp] theorem lookup_byId {α : Type} (values : Vector α g.size) (v : Fin g.size) :
    (g.byId values).lookup (g.id v) = some (values.get v) := by
  rw [byId_eq, lookup_map_of_injective (id_injective g)]

end DependencyGraph

/-! ## Metrics -/

namespace Report

variable {R : Type} [Scalar R] {provider : Provider R} {board : Board} {graph : DependencyGraph}

/-- The metrics at a place of a graph. -/
def metricsAt (provider : Provider R) (board : Board) (graph : DependencyGraph)
    (v : Fin graph.size) : Metrics R where
  pageRank := ((provider.pageRank graph).lookup (graph.id v)).getD (Scalar.natural 0)
  betweenness := ((provider.betweenness graph).lookup (graph.id v)).getD (Scalar.natural 0)
  inDegree := ((provider.degrees graph).inward.lookup (graph.id v)).getD 0
  outDegree := ((provider.degrees graph).outward.lookup (graph.id v)).getD 0
  unblockCount := (graph.digraph.reach v).length - 1
  depth := graph.digraph.depths.get v
  weight := (priorityOf board (graph.id v)).weight

theorem metricsOf_eq : metricsOf provider board graph =
    (List.finRange graph.size).map fun v => (graph.id v, metricsAt provider board graph v) := by
  rw [metricsOf]
  refine List.map_congr_left fun v _ => ?_
  simp [metricsAt, unblockCounts, Vector.get_eq_getElem]

/-- **What a report says of an id** is what is known of its place. -/
theorem lookup_metricsOf (v : Fin graph.size) :
    (metricsOf provider board graph).lookup (graph.id v) =
      some (metricsAt provider board graph v) := by
  rw [metricsOf_eq, lookup_map_of_injective (DependencyGraph.id_injective graph)]

theorem lookup_metricsOf_eq_none {id : String} (hId : id ∉ graph.ids) :
    (metricsOf provider board graph).lookup id = none := by
  rw [metricsOf_eq]
  refine lookup_map_eq_none _ ?_
  rintro v rfl
  exact hId (DependencyGraph.id_mem_ids v)

/-- **The metrics at a place**, if centrality is computed from the graph. -/
theorem metricsAt_computed (ranking : RankConfig R) (v : Fin graph.size) :
    metricsAt (.computed ranking) board graph v =
      { pageRank := (graph.digraph.pageRank ranking).ranks.get v
        betweenness := graph.digraph.betweenness.get v
        inDegree := (graph.digraph.prev v).length
        outDegree := (graph.digraph.next v).length
        unblockCount := (graph.digraph.reach v).length - 1
        depth := graph.digraph.depths.get v
        weight := (priorityOf board (graph.id v)).weight } := by
  simp [metricsAt, Provider.computed, DependencyGraph.degrees, Vector.get_eq_getElem]

/-- **A list of a report** holds the ids that pass its test, in the order of the ids. -/
theorem idsWhere_metricsOf (keep : Metrics R → Bool) :
    idsWhere (metricsOf provider board graph) keep =
      graph.ids.filter fun id => ((metricsOf provider board graph).lookup id).any keep := by
  rw [idsWhere, ← DependencyGraph.map_id_finRange, List.filter_map]
  conv_lhs => rw [metricsOf_eq, List.filter_map, List.map_map]
  simp only [Function.comp_def, lookup_metricsOf, Option.any_some]

end Report

end Taskboard
