import Mathlib
import Taskboard.Proofs.Board.Structure
import Taskboard.Proofs.Graph.Relation
import Taskboard.Triage.Report

/-!
# Taskboard — what a report is made of

A pass builds a graph, asks for centrality, sorts and classifies. All it reads of the items is
their structure: ids and links through the graph, which forgets the order of links, and priorities
item by item. So boards with one fingerprint have one report, and a pass over the second of them
can be left out.

* `DependencyGraph.ofBoard_congr` — the graph depends on the structure alone;
* `Report.compute_congr` — so does the report.
-/

namespace Taskboard

variable {xs ys : Board}

theorem map_id_congr (h : List.Forall₂ WorkItem.SameStructure xs ys) :
    xs.map WorkItem.id = ys.map WorkItem.id := by
  induction h with
  | nil => rfl
  | cons hItem _ ih => rw [List.map_cons, List.map_cons, hItem.id, ih]

/-! ## The graph -/

theorem WorkItem.SameStructure.links_perm {a b : WorkItem} (h : a.SameStructure b) :
    a.links.Perm b.links := by
  rw [WorkItem.links, WorkItem.links, h.id]
  exact (h.blockers.map _).append (h.blocked.map _)

theorem flatMap_links_perm (h : List.Forall₂ WorkItem.SameStructure xs ys) :
    (xs.flatMap WorkItem.links).Perm (ys.flatMap WorkItem.links) := by
  induction h with
  | nil => exact List.Perm.nil
  | cons hItem _ ih =>
    rw [List.flatMap_cons, List.flatMap_cons]
    exact hItem.links_perm.append ih

namespace DependencyGraph

/-- **The graph of a board depends on its structure alone.** -/
theorem ofBoard_congr (h : List.Forall₂ WorkItem.SameStructure xs ys) :
    ofBoard xs = ofBoard ys := by
  have hLinks : ∀ keep : Link → Bool, arrange ((xs.flatMap WorkItem.links).filter keep) =
      arrange ((ys.flatMap WorkItem.links).filter keep) := by
    intro keep
    refine arrange_congr fun l => ?_
    rw [List.mem_filter, List.mem_filter, (flatMap_links_perm h).mem_iff]
  -- the ids that links are held against are the same on both boards
  simp only [ofBoard, map_id_congr h, hLinks]

end DependencyGraph

/-! ## The report -/

namespace Report

variable {R : Type} [Scalar R]

theorem priorityOf_congr (h : List.Forall₂ WorkItem.SameStructure xs ys) (id : String) :
    priorityOf xs id = priorityOf ys id := by
  induction h with
  | nil => rfl
  | @cons a b as bs hItem _ ih =>
    unfold priorityOf at ih ⊢
    rw [List.find?_cons, List.find?_cons, hItem.id]
    -- the first item with the id counts, on both boards the same
    cases b.id == id with
    | true => rw [Option.map_some, Option.map_some, hItem.priority]
    | false => exact ih

/-- Metrics read a board through its graph and the priorities of its ids. -/
theorem metricsOf_congr (provider : Provider R) (graph : DependencyGraph)
    (h : ∀ id, priorityOf xs id = priorityOf ys id) :
    metricsOf provider xs graph = metricsOf provider ys graph := by
  unfold metricsOf
  simp only [h]

/-- **Boards with one fingerprint have one report**, whoever provides centrality. -/
theorem compute_congr (provider : Provider R) (config : TriageConfig R)
    (h : Taskboard.fingerprint xs = Taskboard.fingerprint ys) :
    compute provider config xs = compute provider config ys := by
  have hSame := sameStructure_of_fingerprint_eq h
  have hMetrics := metricsOf_congr provider (DependencyGraph.ofBoard ys) (priorityOf_congr hSame)
  simp only [compute, DependencyGraph.ofBoard_congr hSame, hMetrics, h]

end Report

end Taskboard
