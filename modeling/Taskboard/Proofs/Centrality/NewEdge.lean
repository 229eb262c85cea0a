import Mathlib
import Taskboard.Proofs.Centrality.ShortestPaths
import Taskboard.Proofs.Graph.Reach

/-!
# Taskboard — betweenness and a new edge

An edge that is added behind a node cannot lower its betweenness. Each walk either avoids the
node or is cut in two where it first meets it. Walks up to that point do not use an edge that
leaves the node; so a new such edge changes neither the distance to the node, nor the paths to it,
nor the walks that avoid it. All it adds are walks that pass the node: where distances stay, paths
that pass it come to the others; where a distance falls, all shortest paths pass it now.

* `blind` — a matrix without the edges that leave a node;
* `walks_split` — a walk avoids a node or is cut at its first visit;
* `Widens.passing_le` — with more edges behind it no smaller part of the paths passes the node;
* `Digraph.AddsEdge.betweenness_le` — its betweenness does not fall.
-/

namespace Taskboard

variable {n : Nat} {M N : Matrix (Fin n) (Fin n) Nat} {a s t : Fin n} {i k : Nat}

/-! ## Walks that avoid a node -/

/-- A matrix without the edges that leave a node. Its walks may end in the node, but do not pass
it. -/
def blind (M : Matrix (Fin n) (Fin n) Nat) (a : Fin n) : Matrix (Fin n) (Fin n) Nat :=
  fun u v => if u = a then 0 else M u v

theorem blind_le (u v : Fin n) : blind M a u v ≤ M u v := by
  rw [blind]
  split
  · exact Nat.zero_le _
  · exact Nat.le_refl _

theorem walks_blind_le (k : Nat) (s t : Fin n) : walks (blind M a) k s t ≤ walks M k s t :=
  walks_mono blind_le k s t

theorem walks_blind_succ_self (k : Nat) (t : Fin n) : walks (blind M a) (k + 1) a t = 0 := by
  rw [walks_succ_left]
  simp [blind]

theorem walks_blind_succ (hStart : s ≠ a) (k : Nat) (t : Fin n) :
    walks (blind M a) (k + 1) s t = ∑ u, M s u * walks (blind M a) k u t := by
  rw [walks_succ_left]
  simp [blind, hStart]

/-- **A walk avoids a node, or is cut where it first meets it**; what stands behind the cut is any
walk from the node. -/
theorem walks_split (k : Nat) (s t : Fin n) : walks M k s t = walks (blind M a) k s t +
    ∑ j ∈ Finset.range k, walks (blind M a) j s a * walks M (k - j) a t := by
  induction k generalizing s with
  | zero => rw [Finset.range_zero, Finset.sum_empty, walks_zero, walks_zero, add_zero]
  | succ k ih =>
    rw [Finset.sum_range_succ', walks_zero]
    by_cases hStart : s = a
    · -- a walk from the node is cut at once
      subst hStart
      simp [walks_blind_succ_self]
    · -- otherwise it is not cut before its second node
      rw [walks_succ_left]
      simp only [ih, walks_blind_succ hStart, if_neg hStart, zero_mul, add_zero, mul_add,
        Finset.sum_add_distrib, Nat.add_sub_add_right, Finset.sum_mul, Finset.mul_sum]
      rw [Finset.sum_comm]
      simp only [mul_assoc]

/-- If the node is at distance `i` or further, no walk of `i` edges meets it on the way. -/
theorem walks_eq_walks_blind (hFar : ∀ j < i, walks M j s a = 0) :
    walks M i s a = walks (blind M a) i s a := by
  rw [walks_split, Nat.add_eq_left]
  refine Finset.sum_eq_zero fun j hj => ?_
  have hZero : walks (blind M a) j s a = 0 :=
    Nat.le_zero.mp (hFar j (Finset.mem_range.mp hj) ▸ walks_blind_le j s a)
  rw [hZero, zero_mul]

theorem distance_blind_iff : Distance (blind M a) s a i ↔ Distance M s a i := by
  constructor
  · intro h
    refine ⟨?_, ?_⟩
    · exact fun hZero => h.attained (Nat.le_zero.mp (hZero ▸ walks_blind_le i s a))
    · intro j hj
      by_contra hWalk
      -- a shortest walk to the node does not meet it before, so it is a blind one too
      obtain ⟨m, hm, hDistance⟩ := exists_distance hWalk
      have hBlind := walks_eq_walks_blind hDistance.least
      exact hDistance.attained (hBlind.trans (h.least m (by omega)))
  · intro h
    refine ⟨walks_eq_walks_blind h.least ▸ h.attained, ?_⟩
    intro j hj
    exact Nat.le_zero.mp (h.least j hj ▸ walks_blind_le j s a)

/-- Shortest paths avoid a node or pass it, and those that pass it do so when it is due. -/
theorem pathCount_split (ha : Distance M s a i) (ht : Distance M s t k) :
    pathCount M s t = walks (blind M a) k s t +
      if i < k then pathCount M s a * walks M (k - i) a t else 0 := by
  rw [ht.pathCount_eq, walks_split (a := a), Nat.add_right_inj]
  -- a walk that meets the node later would not be a shortest one
  have hOther : ∀ j ∈ Finset.range k, j ≠ i →
      walks (blind M a) j s a * walks M (k - j) a t = 0 := by
    intro j hj hNe
    by_contra hWalk
    obtain ⟨hFront, hRest⟩ := Nat.mul_ne_zero_iff.mp hWalk
    have hLe : i ≤ j := (distance_blind_iff.mpr ha).le hFront
    have hShort : k ≤ i + (k - j) := ht.le (walks_add_ne_zero ha.attained hRest)
    have hLess : j < k := Finset.mem_range.mp hj
    omega
  split
  · rename_i hLess
    rw [Finset.sum_eq_single_of_mem i (Finset.mem_range.mpr hLess) hOther, ha.pathCount_eq,
      walks_eq_walks_blind ha.least]
  · rename_i hLate
    refine Finset.sum_eq_zero fun j hj => hOther j hj ?_
    have hLess : j < k := Finset.mem_range.mp hj
    omega

theorem passing_le_one (ha : Distance M s a i) (ht : Distance M s t k) : passing M s a t ≤ 1 := by
  rcases Nat.lt_or_ge i k with hLess | hLe
  · have hSplit := pathCount_split ha ht
    rw [if_pos hLess] at hSplit
    rw [passing_eq ha ht hLess]
    refine div_le_one_of_le₀ ?_ (by positivity)
    exact_mod_cast (show pathCount M s a * walks M (k - i) a t ≤ pathCount M s t by omega)
  · rw [passing_eq_zero_of_le ha ht hLe]
    exact zero_le_one

/-! ## More edges behind a node -/

/-- A part grows when the whole grows by the same. -/
theorem div_add_le_div_add {r x y : Nat} (hLe : x ≤ y) (hSome : r + x ≠ 0) :
    (x : Rat) / (r + x : Nat) ≤ y / (r + y : Nat) := by
  have hLe' : (x : Rat) ≤ y := by exact_mod_cast hLe
  have hOld : (0 : Rat) < (r + x : Nat) := by exact_mod_cast Nat.pos_of_ne_zero hSome
  have hNew : (0 : Rat) < (r + y : Nat) := by exact_mod_cast (show 0 < r + y by omega)
  rw [div_le_div_iff₀ hOld hNew]
  push_cast
  have hRest : (x : Rat) * r ≤ y * r := by gcongr
  linarith

/-- `N` is `M` with more edges that leave one node. -/
structure Widens (M N : Matrix (Fin n) (Fin n) Nat) (a : Fin n) : Prop where
  same : ∀ u, u ≠ a → N u = M u
  more : ∀ v, M a v ≤ N a v

namespace Widens

variable (hMore : Widens M N a)

include hMore

theorem blind_eq : blind N a = blind M a := by
  funext u v
  rw [blind, blind]
  split
  · rfl
  · rename_i hu
    rw [hMore.same u hu]

theorem walks_le (k : Nat) (s t : Fin n) : walks M k s t ≤ walks N k s t := by
  refine walks_mono ?_ k s t
  intro u v
  by_cases hu : u = a
  · subst hu
    exact hMore.more v
  · rw [hMore.same u hu]

theorem distance_iff : Distance N s a i ↔ Distance M s a i := by
  rw [← distance_blind_iff, hMore.blind_eq, distance_blind_iff]

theorem pathCount_eq (ha : Distance M s a i) : pathCount N s a = pathCount M s a := by
  have ha' := hMore.distance_iff.mpr ha
  rw [ha'.pathCount_eq, ha.pathCount_eq, walks_eq_walks_blind ha'.least,
    walks_eq_walks_blind ha.least, hMore.blind_eq]

/-- Where a distance falls, all shortest paths pass the node. -/
theorem passing_eq_one {j : Nat} (ha : Distance M s a i) (hFar : ∀ m ≤ j, walks M m s t = 0)
    (ht : Distance N s t j) : passing N s a t = 1 := by
  have ha' := hMore.distance_iff.mpr ha
  have hSplit := pathCount_split ha' ht
  have hNone : walks (blind N a) j s t = 0 := by
    rw [hMore.blind_eq]
    exact Nat.le_zero.mp (hFar j (Nat.le_refl j) ▸ walks_blind_le j s t)
  have hSome := ht.pathCount_ne_zero
  rw [hNone, Nat.zero_add] at hSplit
  split at hSplit
  · rename_i hLess
    have hSome' : (pathCount N s t : Rat) ≠ 0 := by exact_mod_cast hSome
    rw [passing_eq ha' ht hLess, hSplit, Nat.cast_mul, div_self]
    rwa [hSplit, Nat.cast_mul] at hSome'
  · exact absurd hSplit hSome

/-- Where a distance stays, paths that pass the node come to the others. -/
theorem passing_le_of_same (ha : Distance M s a i) (ht : Distance M s t k)
    (ht' : Distance N s t k) : passing M s a t ≤ passing N s a t := by
  have ha' := hMore.distance_iff.mpr ha
  rcases Nat.lt_or_ge i k with hLess | hLe
  · have hOld := pathCount_split ha ht
    have hNew := pathCount_split ha' ht'
    rw [if_pos hLess] at hOld hNew
    rw [hMore.blind_eq, hMore.pathCount_eq ha] at hNew
    -- both counts have the same part that avoids the node
    have hVia : pathCount M s a * walks M (k - i) a t ≤ pathCount M s a * walks N (k - i) a t :=
      Nat.mul_le_mul_left _ (hMore.walks_le _ _ _)
    have hSome := ht.pathCount_ne_zero
    rw [passing_eq ha ht hLess, passing_eq ha' ht' hLess, hMore.pathCount_eq ha, hOld, hNew]
    rw [hOld] at hSome
    exact_mod_cast div_add_le_div_add hVia hSome
  · rw [passing_eq_zero_of_le ha ht hLe]
    exact passing_nonneg s a t

/-- **No smaller part of the shortest paths passes the node.** -/
theorem passing_le (s t : Fin n) : passing M s a t ≤ passing N s a t := by
  by_cases hMet : ∃ i, Distance M s a i
  · by_cases hReached : ∃ k, Distance M s t k
    · obtain ⟨i, ha⟩ := hMet
      obtain ⟨k, ht⟩ := hReached
      have hWalk : walks N k s t ≠ 0 := by
        have hLe := hMore.walks_le k s t
        have hSome := ht.attained
        omega
      obtain ⟨j, hj, ht'⟩ := exists_distance hWalk
      -- the distance to the end stays or falls
      rcases Nat.eq_or_lt_of_le hj with rfl | hNear
      · exact hMore.passing_le_of_same ha ht ht'
      · rw [hMore.passing_eq_one ha (fun m hm => ht.least m (by omega)) ht']
        exact passing_le_one ha ht
    · rw [passing_eq_zero_of_end fun k hk => hReached ⟨k, hk⟩]
      exact passing_nonneg s a t
  · rw [passing_eq_zero_of_middle fun i hi => hMet ⟨i, hi⟩]
    exact passing_nonneg s a t

theorem totalDependency_le : totalDependency M a ≤ totalDependency N a := by
  refine Finset.sum_le_sum fun s _ => ?_
  split
  · exact le_refl 0
  · exact Finset.sum_le_sum fun t _ => hMore.passing_le s t

end Widens

/-! ## A new edge -/

namespace Digraph

variable {g h : Digraph n} {c : Fin n}

/-- `h` is `g` with an edge from `a` to `c`. -/
def AddsEdge (g h : Digraph n) (a c : Fin n) : Prop :=
  ∀ u v, v ∈ h.next u ↔ v ∈ g.next u ∨ (u = a ∧ v = c)

namespace AddsEdge

variable (hEdge : AddsEdge g h a c)

include hEdge

theorem widens : Widens g.adjacency h.adjacency a where
  same u hu := by
    funext v
    simp [adjacency, hEdge u v, hu]
  more v := by
    rw [adjacency, adjacency]
    split
    · rename_i hNext
      rw [if_pos ((hEdge a v).mpr (Or.inl hNext))]
    · exact Nat.zero_le _

theorem edgeCount_ne_zero : h.edgeCount ≠ 0 := by
  have hMem : c ∈ (List.finRange n).flatMap h.next :=
    List.mem_flatMap.mpr ⟨a, List.mem_finRange a, (hEdge a c).mpr (Or.inr ⟨rfl, rfl⟩)⟩
  exact Nat.ne_of_gt (List.length_pos_of_mem hMem)

/-- **The betweenness of a node does not fall** when an edge is added behind it. -/
theorem betweenness_le :
    (g.betweenness : Vector Rat n).get a ≤ (h.betweenness : Vector Rat n).get a := by
  rw [get_betweenness, get_betweenness]
  by_cases hFew : n < 3
  · rw [if_pos (Or.inl hFew), if_pos (Or.inl hFew)]
  · have hNew : ¬ (n < 3 ∨ h.edgeCount = 0) := by
      rintro (hn | hNone)
      · exact hFew hn
      · exact hEdge.edgeCount_ne_zero hNone
    have hTotal := hEdge.widens.totalDependency_le
    have hOther : 0 ≤ totalDependency h.adjacency a := by
      refine Finset.sum_nonneg fun s _ => ?_
      split
      · exact le_refl 0
      · exact dependency_nonneg s a
    rw [if_neg hNew]
    -- without edges the betweenness was zero
    split
    · positivity
    · gcongr

theorem reaches {u v : Fin n} (hPath : g.Reaches u v) : h.Reaches u v := by
  have hNext : ∀ x y, y ∈ g.next x → y ∈ h.next x := fun x y hy => (hEdge x y).mpr (Or.inl hy)
  exact Relation.ReflTransGen.mono hNext u v hPath

theorem length_reach_le (u : Fin n) : (g.reach u).length ≤ (h.reach u).length := by
  refine (List.subperm_of_subset (nodup_reach u) ?_).length_le
  intro v hv
  rw [mem_reach] at *
  exact hEdge.reaches hv

end AddsEdge

/-- The same for a graph whose number of nodes is written in another way. -/
theorem le_of_addsEdge_cast {m : Nat} {h : Digraph m} (hSize : n = m)
    (hEdge : ∀ u v : Fin n, Fin.cast hSize v ∈ h.next (Fin.cast hSize u) ↔
      v ∈ g.next u ∨ (u = a ∧ v = c)) :
    (g.reach a).length ≤ (h.reach (Fin.cast hSize a)).length ∧
      (g.betweenness : Vector Rat n).get a ≤
        (h.betweenness : Vector Rat m).get (Fin.cast hSize a) := by
  subst hSize
  have hAdds : AddsEdge g h a c := hEdge
  exact ⟨hAdds.length_reach_le a, hAdds.betweenness_le⟩

end Digraph

end Taskboard
