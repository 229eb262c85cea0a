import Mathlib
import Taskboard.Proofs.Board.Structure
import Taskboard.Proofs.Graph.Relation
import Taskboard.Proofs.Graph.Walks

/-!
# Taskboard — what a search finds

A breadth-first search from a node lists the nodes that can be reached from it, each once: what
can be reached is at some distance, and the levels of the search are the nodes at each distance.

* `Digraph.Reaches` — there is a path from one node to another, perhaps an empty one;
* `Digraph.mem_reach`, `Digraph.nodup_reach` — a search lists the reachable nodes, each once;
* `Digraph.mem_componentOf` — a component holds the nodes that reach one another;
* `DependencyGraph.mem_cycles`, `DependencyGraph.cycles_eq_nil_iff` — what is reported as a cycle.
-/

namespace Taskboard

namespace Digraph

variable {n : Nat} {g : Digraph n}

/-- There is a path from the one node to the other. The empty path counts. -/
def Reaches (g : Digraph n) : Fin n → Fin n → Prop :=
  Relation.ReflTransGen fun u v => v ∈ g.next u

theorem reaches_iff_exists_walk {s v : Fin n} :
    g.Reaches s v ↔ ∃ k, walks g.adjacency k s v ≠ 0 := by
  constructor
  · intro hPath
    induction hPath with
    | refl => exact ⟨0, (distance_self _ s).attained⟩
    | tail _ hEdge ih =>
      obtain ⟨k, hWalk⟩ := ih
      refine ⟨k + 1, walks_add_ne_zero hWalk ?_⟩
      rw [walks_one]
      exact adjacency_ne_zero_iff.mpr hEdge
  · rintro ⟨k, hWalk⟩
    induction k generalizing v with
    | zero =>
      rw [walks_zero] at hWalk
      rw [of_not_not fun hNe => hWalk (if_neg hNe)]
      exact Relation.ReflTransGen.refl
    | succ k ih =>
      rw [walks_succ] at hWalk
      obtain ⟨u, -, hTerm⟩ := Finset.exists_ne_zero_of_sum_ne_zero hWalk
      obtain ⟨hFront, hEdge⟩ := Nat.mul_ne_zero_iff.mp hTerm
      exact (ih hFront).tail (adjacency_ne_zero_iff.mp hEdge)

/-- **A search finds exactly what can be reached.** -/
theorem mem_reach {s v : Fin n} : v ∈ g.reach s ↔ g.Reaches s v := by
  rw [reach, (layers_levels s).mem_flatten, reaches_iff_exists_walk]
  constructor
  · rintro ⟨k, -, hDistance⟩
    exact ⟨k, hDistance.attained⟩
  · rintro ⟨k, hWalk⟩
    obtain ⟨j, -, hDistance⟩ := exists_distance hWalk
    exact ⟨j, Nat.zero_le j, hDistance⟩

/-- **A search finds each node once.** -/
theorem nodup_reach (s : Fin n) : (g.reach s).Nodup :=
  (layers_levels s).nodup_flatten

/-! ## Components -/

/-- The component of a node. -/
def componentOf (g : Digraph n) (v : Fin n) : List (Fin n) :=
  component (Vector.ofFn g.reach) v

theorem mem_componentOf {v w : Fin n} :
    w ∈ g.componentOf v ↔ g.Reaches v w ∧ g.Reaches w v := by
  simp [componentOf, component, mem_reach]

/-- A component is in ascending order. -/
theorem sorted_componentOf (v : Fin n) : (g.componentOf v).Pairwise (· < ·) :=
  (List.pairwise_lt_finRange n).filter _

theorem nodup_componentOf (v : Fin n) : (g.componentOf v).Nodup :=
  (sorted_componentOf v).imp ne_of_lt

theorem mem_components {nodes : List (Fin n)} :
    nodes ∈ g.components ↔ ∃ v, g.componentOf v = nodes := by
  rw [components, List.mem_eraseDups, List.mem_map]
  simp [componentOf]

theorem nodup_components : g.components.Nodup :=
  DependencyGraph.nodup_eraseDups _ _ (Nat.le_refl _)

/-- A graph in which no two nodes reach one another. -/
def Acyclic (g : Digraph n) : Prop :=
  ∀ u v, g.Reaches u v → g.Reaches v u → u = v

/-- A component with two members shows a cycle, and is shown by one. -/
theorem one_lt_length_componentOf {v : Fin n} :
    1 < (g.componentOf v).length ↔ ∃ w, w ≠ v ∧ g.Reaches v w ∧ g.Reaches w v := by
  have hSelf : v ∈ g.componentOf v :=
    mem_componentOf.mpr ⟨Relation.ReflTransGen.refl, Relation.ReflTransGen.refl⟩
  constructor
  · intro hLen
    by_contra hNone
    -- with no other member the component has one at most
    have hAll : ∀ w ∈ g.componentOf v, w = v := by
      intro w hw
      by_contra hNe
      exact hNone ⟨w, hNe, mem_componentOf.mp hw⟩
    have hSub : (g.componentOf v).Subperm [v] :=
      List.subperm_of_subset (nodup_componentOf v) fun w hw => List.mem_singleton.mpr (hAll w hw)
    have hShort := hSub.length_le
    rw [List.length_singleton] at hShort
    omega
  · rintro ⟨w, hNe, hPath⟩
    have hPair : [v, w].Nodup := by simp [hNe.symm]
    have hSub : [v, w].Subperm (g.componentOf v) := by
      refine List.subperm_of_subset hPair ?_
      intro x hx
      rw [List.mem_cons, List.mem_singleton] at hx
      rcases hx with rfl | rfl
      · exact hSelf
      · exact mem_componentOf.mpr hPath
    exact hSub.length_le

end Digraph

/-! ## Cycles -/

namespace DependencyGraph

variable {g : DependencyGraph}

/-- The ids of a component, in ascending order. -/
def groupOf (g : DependencyGraph) (v : Fin g.size) : List String :=
  sortIds ((g.digraph.componentOf v).map g.id)

theorem mem_groupOf {v : Fin g.size} {id : String} :
    id ∈ g.groupOf v ↔ ∃ w, w ∈ g.digraph.componentOf v ∧ g.id w = id := by
  rw [groupOf, sortIds, List.mem_mergeSort, List.mem_map]

theorem mem_ids_of_mem_groupOf {v : Fin g.size} {id : String} (hId : id ∈ g.groupOf v) :
    id ∈ g.ids := by
  obtain ⟨w, -, rfl⟩ := mem_groupOf.mp hId
  exact id_mem_ids w

theorem length_groupOf (v : Fin g.size) :
    (g.groupOf v).length = (g.digraph.componentOf v).length := by
  rw [groupOf, sortIds, List.length_mergeSort, List.length_map]

/-- A group is known from its ids. -/
theorem componentOf_eq_of_groupOf_eq {u v : Fin g.size} (h : g.groupOf u = g.groupOf v) :
    g.digraph.componentOf u = g.digraph.componentOf v := by
  have hPerm := (List.map_perm_map_iff (id_injective g)).mp (sortIds_eq_iff.mp h)
  exact hPerm.eq_of_pairwise' (Digraph.sorted_componentOf u) (Digraph.sorted_componentOf v)

/-- The groups before they are put in order. -/
theorem cycles_perm : g.cycles.Perm
    ((g.digraph.components.filter fun nodes => 1 < nodes.length).map
      fun nodes => sortIds (nodes.map g.id)) :=
  List.mergeSort_perm _ _

theorem mem_cycles {ids : List String} :
    ids ∈ g.cycles ↔ ∃ v, 1 < (g.digraph.componentOf v).length ∧ g.groupOf v = ids := by
  rw [cycles_perm.mem_iff, List.mem_map]
  constructor
  · rintro ⟨nodes, hNodes, rfl⟩
    rw [List.mem_filter, Digraph.mem_components, decide_eq_true_eq] at hNodes
    obtain ⟨⟨v, rfl⟩, hLen⟩ := hNodes
    exact ⟨v, hLen, rfl⟩
  · rintro ⟨v, hLen, rfl⟩
    refine ⟨g.digraph.componentOf v, ?_, rfl⟩
    rw [List.mem_filter, Digraph.mem_components, decide_eq_true_eq]
    exact ⟨⟨v, rfl⟩, hLen⟩

theorem nodup_cycles : g.cycles.Nodup := by
  rw [cycles_perm.nodup_iff]
  refine List.Nodup.map_on ?_ (Digraph.nodup_components.filter _)
  -- two components with the same ids are the same component
  intro a ha b hb hEq
  rw [List.mem_filter, Digraph.mem_components] at ha hb
  obtain ⟨⟨u, rfl⟩, -⟩ := ha
  obtain ⟨⟨v, rfl⟩, -⟩ := hb
  exact componentOf_eq_of_groupOf_eq hEq

/-- The groups stand in ascending order. -/
theorem sorted_cycles : g.cycles.Pairwise (· ≤ ·) := by
  have hTrans : ∀ a b c : List String, (!decide (b < a)) = true → (!decide (c < b)) = true →
      (!decide (c < a)) = true := by
    intro a b c
    simp only [Bool.not_eq_true', decide_eq_false_iff_not, not_lt]
    exact le_trans
  have hTotal : ∀ a b : List String, (!decide (b < a) || !decide (a < b)) = true := by
    intro a b
    simp only [Bool.or_eq_true, Bool.not_eq_true', decide_eq_false_iff_not, not_lt]
    exact le_total a b
  refine (List.pairwise_mergeSort hTrans hTotal _).imp ?_
  intro a b h
  simpa using h

theorem cycles_eq_nil_iff : g.cycles = [] ↔ g.digraph.Acyclic := by
  constructor
  · intro hNil u v huv hvu
    by_contra hNe
    have hLen : 1 < (g.digraph.componentOf u).length :=
      Digraph.one_lt_length_componentOf.mpr ⟨v, fun h => hNe h.symm, huv, hvu⟩
    have hMem := mem_cycles.mpr ⟨u, hLen, rfl⟩
    rw [hNil] at hMem
    cases hMem
  · intro hAcyclic
    rw [List.eq_nil_iff_forall_not_mem]
    intro ids hMem
    obtain ⟨v, hLen, -⟩ := mem_cycles.mp hMem
    obtain ⟨w, hNe, hvw, hwv⟩ := Digraph.one_lt_length_componentOf.mp hLen
    exact hNe (hAcyclic w v hwv hvw)

end DependencyGraph

end Taskboard
