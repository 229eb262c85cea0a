import Mathlib
import Taskboard.Centrality.Betweenness
import Taskboard.Proofs.Graph.Walks

/-!
# Taskboard — betweenness counts shortest paths

Betweenness is computed without looking at paths. Path counts go outwards from a source, layer by
layer; then dependencies come back inwards, each node gathering its share of what the nodes one
step further have. What comes out is a sum over all ends of paths: the part of the shortest paths
to each end that pass the node.

The step inwards rests on one fact. A shortest path that passes a node goes on to some node one
step further; there it ends, or it passes that one too (`passing_step`).

* `pathCount` — the number of shortest paths between two nodes;
* `passing` — the part of them that pass a third one, `dependency` the sum over all ends;
* `dependency_step` — a dependency is gathered from the layer behind;
* `pathCounts_eq`, `dependencies_eq` — the two walks over the layers compute both;
* `get_betweenness` — betweenness as a sum over pairs of other nodes.
-/

namespace Taskboard

variable {n : Nat} {M : Matrix (Fin n) (Fin n) Nat} {s t u v w : Fin n} {i j k : Nat}

/-! ## Shortest paths -/

/-- The length of the shortest walks between two nodes, zero if there are none. -/
noncomputable def distance (M : Matrix (Fin n) (Fin n) Nat) (s t : Fin n) : Nat :=
  sInf {k | walks M k s t ≠ 0}

/-- The number of shortest walks between two nodes. They meet no node twice, so they are paths. -/
noncomputable def pathCount (M : Matrix (Fin n) (Fin n) Nat) (s t : Fin n) : Nat :=
  walks M (distance M s t) s t

theorem Distance.eq (h : Distance M s t k) : distance M s t = k := by
  have hLe : distance M s t ≤ k := Nat.sInf_le h.attained
  have hSome : {k | walks M k s t ≠ 0}.Nonempty := ⟨k, h.attained⟩
  have hWalk : walks M (distance M s t) s t ≠ 0 := Nat.sInf_mem hSome
  exact Nat.le_antisymm hLe (h.le hWalk)

theorem Distance.pathCount_eq (h : Distance M s t k) : pathCount M s t = walks M k s t := by
  rw [pathCount, h.eq]

theorem Distance.pathCount_ne_zero (h : Distance M s t k) : pathCount M s t ≠ 0 := by
  rw [h.pathCount_eq]
  exact h.attained

theorem pathCount_eq_zero (h : ∀ k, ¬ Distance M s t k) : pathCount M s t = 0 := by
  by_contra hWalk
  obtain ⟨k, -, hDistance⟩ := exists_distance hWalk
  exact h k hDistance

theorem distance_eq_zero (h : ∀ k, ¬ Distance M s t k) : distance M s t = 0 := by
  have hNone : {k | walks M k s t ≠ 0} = ∅ := by
    rw [Set.eq_empty_iff_forall_notMem]
    intro k hWalk
    obtain ⟨j, -, hDistance⟩ := exists_distance hWalk
    exact h j hDistance
  rw [distance, hNone, Nat.sInf_empty]

/-! ## Paths that pass a node -/

/-- The part of the shortest paths from `s` to `t` that pass `v` before they end. -/
noncomputable def passing (M : Matrix (Fin n) (Fin n) Nat) (s v t : Fin n) : Rat :=
  if distance M s v < distance M s t then
    pathCount M s v * walks M (distance M s t - distance M s v) v t / pathCount M s t
  else 0

/-- The parts of the shortest paths from `s` that pass `v`, over all ends. -/
noncomputable def dependency (M : Matrix (Fin n) (Fin n) Nat) (s v : Fin n) : Rat :=
  ∑ t, passing M s v t

theorem passing_nonneg (s v t : Fin n) : 0 ≤ passing M s v t := by
  rw [passing]
  split
  · positivity
  · exact le_refl 0

theorem passing_eq (hv : Distance M s v i) (ht : Distance M s t k) (hLess : i < k) :
    passing M s v t = pathCount M s v * walks M (k - i) v t / pathCount M s t := by
  rw [passing, hv.eq, ht.eq, if_pos hLess]

theorem passing_eq_zero_of_le (hv : Distance M s v i) (ht : Distance M s t k) (hLe : k ≤ i) :
    passing M s v t = 0 := by
  rw [passing, hv.eq, ht.eq, if_neg (by omega)]

theorem passing_eq_zero_of_end (ht : ∀ k, ¬ Distance M s t k) : passing M s v t = 0 := by
  rw [passing, distance_eq_zero ht, if_neg (by omega)]

theorem passing_eq_zero_of_middle (hv : ∀ k, ¬ Distance M s v k) : passing M s v t = 0 := by
  rw [passing, pathCount_eq_zero hv]
  simp

/-- What arrives at `w` ends there or passes on. -/
theorem ends_or_passes (hw : Distance M s w j) (ht : Distance M s t k) (hLe : j ≤ k) :
    (if w = t then 1 else 0) + passing M s w t =
      pathCount M s w * walks M (k - j) w t / pathCount M s t := by
  rcases Nat.eq_or_lt_of_le hLe with rfl | hLess
  · rw [passing_eq_zero_of_le hw ht (Nat.le_refl _), Nat.sub_self, walks_zero, add_zero]
    by_cases hEq : w = t
    · subst hEq
      have hSome : (pathCount M s w : Rat) ≠ 0 := by exact_mod_cast hw.pathCount_ne_zero
      rw [if_pos rfl, if_pos rfl, Nat.cast_one, mul_one, div_self hSome]
    · rw [if_neg hEq, if_neg hEq, Nat.cast_zero, mul_zero, zero_div]
  · have hNe : w ≠ t := by
      rintro rfl
      exact absurd (hw.unique ht) (by omega)
    rw [if_neg hNe, zero_add, passing_eq hw ht hLess]

theorem distance_of_step (hv : Distance M s v i) (ht : Distance M s t k) (hLess : i < k)
    (hStep : M v w * walks M (k - (i + 1)) w t ≠ 0) : Distance M s w (i + 1) := by
  obtain ⟨hEdge, hRest⟩ := Nat.mul_ne_zero_iff.mp hStep
  -- the step ends the front of a shortest walk to `t`
  have hWalk : walks M (i + 1) s w ≠ 0 := walks_add_ne_zero hv.attained (by rwa [walks_one])
  have hSplit : k = i + 1 + (k - (i + 1)) := by omega
  rw [hSplit] at ht
  exact ht.front hWalk hRest

/-- The part of the shortest paths to `w` that come from `v`, if `w` is one step further. -/
noncomputable def share (M : Matrix (Fin n) (Fin n) Nat) (s v w : Fin n) (i : Nat) : Rat :=
  if Distance M s w (i + 1) then M v w * (pathCount M s v / pathCount M s w) else 0

theorem share_mul_eq (hv : Distance M s v i) (ht : Distance M s t k) (hLess : i < k) (w : Fin n) :
    share M s v w i * ((if w = t then 1 else 0) + passing M s w t) =
      pathCount M s v * (M v w * walks M (k - (i + 1)) w t : Nat) / pathCount M s t := by
  rw [share]
  by_cases hw : Distance M s w (i + 1)
  · have hSome : (pathCount M s w : Rat) ≠ 0 := by exact_mod_cast hw.pathCount_ne_zero
    rw [if_pos hw, ends_or_passes hw ht hLess]
    push_cast
    field_simp
  · -- an edge to a node that is not further is on no shortest path
    have hZero : M v w * walks M (k - (i + 1)) w t = 0 := by
      by_contra hStep
      exact hw (distance_of_step hv ht hLess hStep)
    rw [if_neg hw, hZero]
    simp

/-- Where nothing arrives, nothing has passed. -/
theorem sum_share_mul_eq_zero
    (hNone : ∀ w, Distance M s w (i + 1) → w ≠ t ∧ passing M s w t = 0) :
    ∑ w, share M s v w i * ((if w = t then 1 else 0) + passing M s w t) = 0 := by
  refine Finset.sum_eq_zero fun w _ => ?_
  by_cases hw : Distance M s w (i + 1)
  · obtain ⟨hNe, hZero⟩ := hNone w hw
    rw [if_neg hNe, hZero, add_zero, mul_zero]
  · rw [share, if_neg hw, zero_mul]

/-- **Paths that pass a node** go on to some node one step further, and end there or pass on. -/
theorem passing_step (hv : Distance M s v i) (t : Fin n) :
    passing M s v t = ∑ w, share M s v w i * ((if w = t then 1 else 0) + passing M s w t) := by
  by_cases hReached : ∃ k, Distance M s t k
  · obtain ⟨k, ht⟩ := hReached
    rcases Nat.lt_or_ge i k with hLess | hLe
    · -- the first edge behind `v` tells where a path goes on
      have hSplit : k - i = k - (i + 1) + 1 := by omega
      rw [passing_eq hv ht hLess, hSplit, walks_succ_left]
      simp only [share_mul_eq hv ht hLess]
      rw [← Finset.sum_div, ← Finset.mul_sum, Nat.cast_sum]
    · -- the end is no further than `v`, so it is nearer than what stands behind `v`
      rw [passing_eq_zero_of_le hv ht hLe, sum_share_mul_eq_zero]
      intro w hw
      refine ⟨?_, passing_eq_zero_of_le hw ht (by omega)⟩
      rintro rfl
      exact absurd (hw.unique ht) (by omega)
  · have hNone : ∀ k, ¬ Distance M s t k := fun k hk => hReached ⟨k, hk⟩
    rw [passing_eq_zero_of_end hNone, sum_share_mul_eq_zero]
    intro w hw
    refine ⟨?_, passing_eq_zero_of_end hNone⟩
    rintro rfl
    exact hNone _ hw

/-- **The dependency on a node** is gathered from the nodes one step further. -/
theorem dependency_step (hv : Distance M s v i) :
    dependency M s v = ∑ w, share M s v w i * (1 + dependency M s w) := by
  rw [dependency]
  simp only [passing_step hv]
  rw [Finset.sum_comm]
  refine Finset.sum_congr rfl fun w _ => ?_
  rw [← Finset.mul_sum, Finset.sum_add_distrib, Finset.sum_ite_eq, if_pos (Finset.mem_univ w),
    dependency]

theorem dependency_eq_zero (hv : ∀ k, ¬ Distance M s v k) : dependency M s v = 0 :=
  Finset.sum_eq_zero fun _ _ => passing_eq_zero_of_middle hv

theorem dependency_nonneg (s v : Fin n) : 0 ≤ dependency M s v :=
  Finset.sum_nonneg fun t _ => passing_nonneg s v t

/-! ## Sums and tables -/

/-- A sum over some nodes of a list, from the left, is a sum over all nodes. -/
theorem foldl_filter_eq_sum {nodes : List (Fin n)} (hNodup : nodes.Nodup) (keep : Fin n → Bool)
    (f : Fin n → Rat) :
    (nodes.filter keep).foldl (fun acc v => acc + f v) 0 =
      ∑ v, if v ∈ nodes ∧ keep v = true then f v else 0 := by
  rw [← Finset.sum_filter, ← List.foldl_map, ← List.sum_eq_foldl,
    ← List.sum_toFinset _ (hNodup.filter _)]
  refine Finset.sum_congr ?_ fun _ _ => rfl
  ext v
  simp

/-- A table after entries at some nodes, each written by its node. -/
theorem get_foldl_set {α : Type} (f : Fin n → α) (nodes : List (Fin n)) (table : Vector α n)
    (v : Fin n) : (nodes.foldl (fun table w => table.set w (f w) w.isLt) table).get v =
      if v ∈ nodes then f v else table.get v := by
  induction nodes generalizing table with
  | nil => simp
  | cons w nodes ih =>
    rw [List.foldl_cons, ih, get_set]
    -- a later entry at the same node is the same entry
    by_cases hv : v ∈ nodes
    · simp [hv]
    · by_cases hEq : w = v
      · simp [hv, hEq]
      · simp [hv, hEq, Ne.symm hEq]

/-! ## Counting and gathering -/

open Scalar

variable {g : Digraph n}

/-- A node with the number of shortest paths to it. -/
noncomputable def counted (g : Digraph n) (s v : Fin n) : Counted Rat n :=
  ⟨v, pathCount g.adjacency s v⟩

/-- A node with the number of shortest paths to it and the dependency on it. -/
noncomputable def weighed (g : Digraph n) (s v : Fin n) : Weighed Rat n :=
  ⟨counted g s v, dependency g.adjacency s v⟩

/-- Shortest paths to a node come from the nodes in front of it in the layer before. -/
theorem pathsInto_eq {nodes : List (Fin n)} (hNodup : nodes.Nodup)
    (hNodes : ∀ v, v ∈ nodes ↔ Distance g.adjacency s v i)
    (hw : Distance g.adjacency s w (i + 1)) :
    pathsInto g (nodes.map (counted g s)) w = pathCount g.adjacency s w := by
  rw [pathsInto, List.filter_map, List.foldl_map]
  refine (foldl_filter_eq_sum hNodup _ fun v => (pathCount g.adjacency s v : Rat)).trans ?_
  rw [hw.pathCount_eq, walks_succ, Nat.cast_sum]
  refine Finset.sum_congr rfl fun u _ => ?_
  have hEdge : ((g.prev w).contains u = true) ↔ w ∈ g.next u := by
    rw [List.contains_iff_mem, g.mem_next_iff_mem_prev]
  simp only [Function.comp_apply, counted, hEdge, hNodes]
  by_cases hNext : w ∈ g.next u
  · have hOne : g.adjacency u w = 1 := if_pos hNext
    rw [hOne, mul_one]
    by_cases hu : Distance g.adjacency s u i
    · rw [if_pos ⟨hu, hNext⟩, hu.pathCount_eq]
    · -- a walk of that length would be a shortest one
      have hZero : walks g.adjacency i s u = 0 := by
        by_contra hWalk
        refine hu (hw.front hWalk ?_)
        rw [walks_one, hOne]
        exact Nat.one_ne_zero
      rw [if_neg fun h => hu h.1, hZero, Nat.cast_zero]
  · have hZero : g.adjacency u w = 0 := if_neg hNext
    rw [if_neg fun h => hNext h.2, hZero, mul_zero, Nat.cast_zero]

theorem pathCountsFrom_eq {nodes : List (Fin n)} {further : List (List (Fin n))}
    (hNodup : nodes.Nodup) (hNodes : ∀ v, v ∈ nodes ↔ Distance g.adjacency s v i)
    (hFurther : Layers g.adjacency s (i + 1) further) :
    pathCountsFrom g (nodes.map (counted g s)) further = further.map (List.map (counted g s)) := by
  induction further generalizing nodes i with
  | nil => rfl
  | cons next further ih =>
    obtain ⟨hNextNodup, hNext, hRest⟩ := hFurther
    have hCounted : (next.map fun w => (⟨w, pathsInto g (nodes.map (counted g s)) w⟩ :
        Counted Rat n)) = next.map (counted g s) := by
      refine List.map_congr_left fun w hw => ?_
      rw [pathsInto_eq hNodup hNodes ((hNext w).mp hw), counted]
    rw [pathCountsFrom, hCounted, ih hNextNodup hNext hRest, List.map_cons]

/-- **The counts of a search are the numbers of shortest paths.** -/
theorem pathCounts_eq (s : Fin n) :
    pathCounts g s = (g.levels s).map (List.map (counted g s)) := by
  have hLayers := g.layers_levels s
  rw [pathCounts]
  cases hLevels : g.levels s with
  | nil => rfl
  | cons nodes further =>
    rw [hLevels] at hLayers
    obtain ⟨hNodup, hNodes, hFurther⟩ := hLayers
    have hCounted : (nodes.map fun v => (⟨v, natural 1⟩ : Counted Rat n)) =
        nodes.map (counted g s) := by
      refine List.map_congr_left fun v hv => ?_
      have hStart := (hNodes v).mp hv
      obtain rfl := distance_zero_iff.mp hStart
      rw [counted, hStart.pathCount_eq, walks_zero, if_pos rfl]
      rfl
    simp only [hCounted, List.map_cons]
    rw [pathCountsFrom_eq hNodup hNodes hFurther]

theorem gain_eq {behind : List (Fin n)} (hv : Distance g.adjacency s v i) (hNodup : behind.Nodup)
    (hBehind : ∀ w, w ∈ behind ↔ Distance g.adjacency s w (i + 1)) :
    gain g (behind.map (weighed g s)) (counted g s v) = dependency g.adjacency s v := by
  rw [gain, ← List.map_reverse, List.filter_map, List.foldl_map]
  refine (foldl_filter_eq_sum (List.nodup_reverse.mpr hNodup) _ fun w =>
    (pathCount g.adjacency s v : Rat) / pathCount g.adjacency s w *
      (1 + dependency g.adjacency s w)).trans ?_
  rw [dependency_step hv]
  refine Finset.sum_congr rfl fun w _ => ?_
  simp only [Function.comp_apply, weighed, counted, List.mem_reverse, List.contains_iff_mem,
    hBehind, share, Digraph.adjacency]
  by_cases hw : Distance g.adjacency s w (i + 1)
  · by_cases hNext : w ∈ g.next v
    · simp [hw, hNext]
    · simp [hNext]
  · simp [hw]

theorem dependencies_eq {layers : List (List (Fin n))} (hLayers : Layers g.adjacency s i layers) :
    dependencies g (layers.map (List.map (counted g s))) =
      layers.map (List.map (weighed g s)) := by
  induction layers generalizing i with
  | nil => rfl
  | cons nodes further ih =>
    obtain ⟨-, hNodes, hFurther⟩ := hLayers
    obtain ⟨hNodup, hBehind⟩ := hFurther.head
    -- what is gathered comes from the layer behind, or from nowhere if this is the last one
    have hOuter : (further.map (List.map (weighed g s))).head?.getD [] =
        (further.head?.getD []).map (weighed g s) := by
      cases further <;> rfl
    have hWeighed : (nodes.map (counted g s)).map (fun v => (⟨v, gain g
        ((further.head?.getD []).map (weighed g s)) v⟩ : Weighed Rat n)) =
        nodes.map (weighed g s) := by
      rw [List.map_map]
      refine List.map_congr_left fun v hv => ?_
      rw [Function.comp_apply, gain_eq ((hNodes v).mp hv) hNodup hBehind, weighed]
    rw [List.map_cons, dependencies, ih hFurther, hOuter, hWeighed, List.map_cons]

/-- **The table of a source** holds the dependencies on all other nodes. -/
theorem get_dependenciesOn (s v : Fin n) :
    (dependenciesOn g s : Vector Rat n).get v =
      if s = v then 0 else dependency g.adjacency s v := by
  have hTail := (g.layers_levels s).tail
  rw [dependenciesOn, pathCounts_eq, dependencies_eq (g.layers_levels s), ← List.map_drop,
    ← List.map_flatten, List.foldl_map]
  refine (get_foldl_set (fun v => dependency g.adjacency s v) _ _ v).trans ?_
  have hZero : (Vector.replicate n (natural 0 : Rat)).get v = 0 := by
    simp [Vector.get_eq_getElem, natural]
  rw [hZero]
  by_cases hEq : s = v
  · subst hEq
    -- the source is in no layer behind the first
    have hNot : s ∉ ((g.levels s).drop 1).flatten := by
      rw [hTail.mem_flatten]
      rintro ⟨k, hk, hDistance⟩
      have hSelf := hDistance.unique (distance_self _ s)
      omega
    rw [if_neg hNot, if_pos rfl]
  · rw [if_neg hEq]
    split
    · rfl
    · rename_i hNot
      refine (dependency_eq_zero fun k hDistance => ?_).symm
      refine hNot (hTail.mem_flatten.mpr ⟨k, ?_, hDistance⟩)
      -- only the source itself is nearer
      by_contra hNear
      obtain rfl : k = 0 := by omega
      exact hEq (distance_zero_iff.mp hDistance)

/-- The dependencies of all other sources on a node. -/
noncomputable def totalDependency (M : Matrix (Fin n) (Fin n) Nat) (v : Fin n) : Rat :=
  ∑ s, if s = v then 0 else dependency M s v

/--
**Betweenness counts shortest paths.** The betweenness of a node is the sum, over all ordered pairs
of other nodes, of the part of the shortest paths between them that pass it, divided by the number
of such pairs.
-/
theorem get_betweenness (v : Fin n) :
    (g.betweenness : Vector Rat n).get v =
      if n < 3 ∨ g.edgeCount = 0 then 0
      else totalDependency g.adjacency v / ((n - 1) * (n - 2) : Nat) := by
  rw [Digraph.betweenness]
  split
  · simp [Vector.get_eq_getElem, natural]
  · rw [get_ofFn, Scalar.sum, List.map_map, List.foldl_map]
    have hKeep : (List.finRange n).filter (fun _ => true) = List.finRange n := List.filter_true _
    have hSum := foldl_filter_eq_sum (List.nodup_finRange n) (fun _ => true)
      fun s => if s = v then 0 else dependency g.adjacency s v
    rw [hKeep] at hSum
    simp only [Function.comp_apply, get_dependenciesOn]
    refine congrArg (fun total : Rat => total / _) (hSum.trans ?_)
    rw [totalDependency]
    refine Finset.sum_congr rfl fun s _ => if_pos ⟨List.mem_finRange s, rfl⟩

end Taskboard
