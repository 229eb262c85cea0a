import Mathlib
import Taskboard.Proofs.Centrality.NewEdge
import Taskboard.Proofs.Triage.Metrics

/-!
# Taskboard — betweenness by paths

Betweenness is known as a sum of parts of shortest walks, which powers of a matrix count. Here the
walks are taken apart into lists of nodes, so that a part becomes what it is meant to be: of the
shortest paths between two nodes, those on which a third one lies, divided by all of them.

The paths on which a node lies are counted by those on which it does not. They are the walks of
the graph without the edges that leave the node, and the rest is what passes it.

* `Route`, `routes` — the lists of nodes along a relation, and the finite set of those of a length;
* `card_routes` — walks count routes;
* `Digraph.IsShortest` — a shortest path;
* `Digraph.passing_eq_ncard` — the part of the shortest paths that pass a node, by counting them;
* `DependencyGraph.betweenness_counts_paths` — betweenness as a sum over pairs of nodes.
-/

namespace Taskboard

variable {n : Nat}

/-! ## Routes -/

/-- A list of nodes from one to another, each of which is related to the next one. -/
structure Route (R : Fin n → Fin n → Prop) (s t : Fin n) (p : List (Fin n)) : Prop where
  starts : p.head? = some s
  ends   : p.getLast? = some t
  linked : p.IsChain R

variable {R : Fin n → Fin n → Prop} {s t u v : Fin n} {k : Nat} {p : List (Fin n)}

theorem route_singleton_iff : Route R s t [u] ↔ u = s ∧ u = t := by
  constructor
  · intro h
    exact ⟨Option.some.inj h.starts, Option.some.inj h.ends⟩
  · rintro ⟨rfl, rfl⟩
    exact ⟨rfl, rfl, List.isChain_singleton _⟩

/-- A longer route goes on from the node that it meets next. -/
theorem route_cons_iff (hLonger : p ≠ []) :
    Route R s t (u :: p) ↔ u = s ∧ ∃ w, R s w ∧ Route R w t p := by
  obtain ⟨w, q, rfl⟩ := List.exists_cons_of_ne_nil hLonger
  constructor
  · intro h
    obtain rfl : u = s := Option.some.inj h.starts
    have hLinked := List.isChain_cons_cons.mp h.linked
    exact ⟨rfl, w, hLinked.1, rfl, by simpa using h.ends, hLinked.2⟩
  · rintro ⟨rfl, w', hStep, h⟩
    obtain rfl : w = w' := Option.some.inj h.starts
    exact ⟨rfl, by simpa using h.ends, List.isChain_cons_cons.mpr ⟨hStep, h.linked⟩⟩

/-- The routes with `k` steps. -/
def routes (R : Fin n → Fin n → Prop) [DecidableRel R] :
    Nat → Fin n → Fin n → Finset (List (Fin n))
  | 0, s, t => if s = t then {[s]} else ∅
  | k + 1, s, t => ({w | R s w} : Finset (Fin n)).biUnion fun w => (routes R k w t).image (s :: ·)

theorem mem_routes [DecidableRel R] : p ∈ routes R k s t ↔ Route R s t p ∧ p.length = k + 1 := by
  induction k generalizing s p with
  | zero =>
    rw [routes]
    constructor
    · intro hMem
      split at hMem
      · rename_i hEq
        rw [Finset.mem_singleton.mp hMem]
        exact ⟨route_singleton_iff.mpr ⟨rfl, hEq⟩, rfl⟩
      · cases hMem
    · rintro ⟨hRoute, hLength⟩
      obtain ⟨u, rfl⟩ := List.length_eq_one_iff.mp hLength
      obtain ⟨rfl, rfl⟩ := route_singleton_iff.mp hRoute
      rw [if_pos rfl, Finset.mem_singleton]
  | succ k ih =>
    simp only [routes, Finset.mem_biUnion, Finset.mem_filter, Finset.mem_univ, true_and,
      Finset.mem_image, ih]
    constructor
    · rintro ⟨w, hStep, q, ⟨hRoute, hLength⟩, rfl⟩
      have hLonger : q ≠ [] := List.ne_nil_of_length_eq_add_one hLength
      refine ⟨(route_cons_iff hLonger).mpr ⟨rfl, w, hStep, hRoute⟩, ?_⟩
      rw [List.length_cons, hLength]
    · rintro ⟨hRoute, hLength⟩
      obtain ⟨u, q, rfl⟩ := List.exists_cons_of_length_eq_add_one hLength
      have hRest : q.length = k + 1 := by simpa using hLength
      have hLonger : q ≠ [] := List.ne_nil_of_length_eq_add_one hRest
      obtain ⟨rfl, w, hStep, hRoute⟩ := (route_cons_iff hLonger).mp hRoute
      exact ⟨w, hStep, q, ⟨hRoute, hRest⟩, rfl⟩

/-- **Walks count routes**, if the entries of the matrix say what is related. -/
theorem card_routes [DecidableRel R] {M : Matrix (Fin n) (Fin n) Nat}
    (hEntries : ∀ u v, M u v = if R u v then 1 else 0) (k : Nat) (s t : Fin n) :
    (routes R k s t).card = walks M k s t := by
  induction k generalizing s with
  | zero =>
    rw [routes, walks_zero]
    split <;> rfl
  | succ k ih =>
    rw [routes, Finset.card_biUnion, walks_succ_left, Finset.sum_filter]
    · refine Finset.sum_congr rfl fun w _ => ?_
      rw [Finset.card_image_of_injective _ (List.cons_injective), ih, hEntries]
      split <;> simp
    · -- routes that go on to different nodes are different
      intro w _ w' _ hNe
      rw [Function.onFun, Finset.disjoint_left]
      intro p hp hp'
      obtain ⟨q, hq, rfl⟩ := Finset.mem_image.mp hp
      obtain ⟨q', hq', hEq⟩ := Finset.mem_image.mp hp'
      obtain rfl : q' = q := (List.cons.inj hEq).2
      have hStart := (mem_routes.mp hq).1.starts
      rw [(mem_routes.mp hq').1.starts] at hStart
      exact hNe (Option.some.inj hStart).symm

/-- A route that does not end in a node avoids it, if no step leaves the node. -/
theorem route_avoiding_iff (hEnd : t ≠ v) :
    Route (fun u w => u ≠ v ∧ R u w) s t p ↔ Route R s t p ∧ v ∉ p := by
  induction p generalizing s with
  | nil =>
    constructor
    · rintro ⟨hStart, -, -⟩
      cases hStart
    · rintro ⟨⟨hStart, -, -⟩, -⟩
      cases hStart
  | cons u p ih =>
    by_cases hLonger : p = []
    · subst hLonger
      rw [route_singleton_iff, route_singleton_iff, List.mem_singleton]
      constructor
      · rintro ⟨hStart, rfl⟩
        exact ⟨⟨hStart, rfl⟩, fun hEq => hEnd hEq.symm⟩
      · exact fun h => h.1
    · rw [route_cons_iff hLonger, route_cons_iff hLonger, List.mem_cons, not_or]
      constructor
      · rintro ⟨rfl, w, ⟨hNe, hStep⟩, hRest⟩
        obtain ⟨hRoute, hAvoids⟩ := ih.mp hRest
        exact ⟨⟨rfl, w, hStep, hRoute⟩, hNe.symm, hAvoids⟩
      · rintro ⟨⟨rfl, w, hStep, hRoute⟩, hNe, hAvoids⟩
        exact ⟨rfl, w, ⟨Ne.symm hNe, hStep⟩, ih.mpr ⟨hRoute, hAvoids⟩⟩

/-! ## Shortest paths -/

/-- Of the shortest paths the part that passes a node is what does not avoid it. -/
theorem passing_mul_pathCount {M : Matrix (Fin n) (Fin n) Nat} (ht : Distance M s t k) :
    (pathCount M s t : Rat) = walks (blind M v) k s t + passing M s v t * pathCount M s t := by
  have hSome : (pathCount M s t : Rat) ≠ 0 := by exact_mod_cast ht.pathCount_ne_zero
  by_cases hMet : ∃ i, Distance M s v i
  · obtain ⟨i, hv⟩ := hMet
    rcases Nat.lt_or_ge i k with hLess | hLe
    · have hSplit := pathCount_split hv ht
      rw [if_pos hLess] at hSplit
      rw [passing_eq hv ht hLess, div_mul_cancel₀ _ hSome]
      exact_mod_cast hSplit
    · have hSplit := pathCount_split hv ht
      rw [if_neg (by omega)] at hSplit
      rw [passing_eq_zero_of_le hv ht hLe, zero_mul]
      exact_mod_cast hSplit
  · -- a node that is not met is avoided
    have hFar : ∀ j, walks M j s v = 0 := by
      intro j
      by_contra hWalk
      obtain ⟨i, -, hv⟩ := exists_distance hWalk
      exact hMet ⟨i, hv⟩
    have hSplit : walks M k s t = walks (blind M v) k s t := by
      rw [walks_split (a := v), Nat.add_eq_left]
      refine Finset.sum_eq_zero fun j _ => ?_
      have hZero : walks (blind M v) j s v = 0 :=
        Nat.le_zero.mp (hFar j ▸ walks_blind_le j s v)
      rw [hZero, zero_mul]
    rw [passing_eq_zero_of_middle fun i hv => hMet ⟨i, hv⟩, zero_mul, add_zero, ht.pathCount_eq,
      hSplit]

namespace Digraph

variable {g : Digraph n}

/-- A list of nodes from one to another along the edges. -/
abbrev Path (g : Digraph n) : Fin n → Fin n → List (Fin n) → Prop :=
  Route fun u w => w ∈ g.next u

/-- A path that is not longer than any other one with its ends. -/
structure IsShortest (g : Digraph n) (s t : Fin n) (p : List (Fin n)) : Prop where
  path  : g.Path s t p
  least : ∀ q, g.Path s t q → p.length ≤ q.length

/-- The shortest paths are the routes with as many steps as the ends are apart. -/
theorem isShortest_iff (ht : Distance g.adjacency s t k) :
    g.IsShortest s t p ↔ p ∈ routes (fun u w => w ∈ g.next u) k s t := by
  have hCount : ∀ j, (routes (fun u w => w ∈ g.next u) j s t).card = walks g.adjacency j s t :=
    fun j => card_routes (fun _ _ => rfl) j s t
  -- no path is shorter, and some path is that short
  have hLeast : ∀ q, g.Path s t q → k + 1 ≤ q.length := by
    intro q hq
    obtain ⟨j, hLength⟩ : ∃ j, q.length = j + 1 := by
      refine Nat.exists_eq_succ_of_ne_zero fun hNone => ?_
      have hStart := hq.starts
      rw [List.length_eq_zero_iff.mp hNone] at hStart
      cases hStart
    have hMem := mem_routes.mpr ⟨hq, hLength⟩
    have hLe := ht.le (hCount j ▸ (Finset.card_pos.mpr ⟨q, hMem⟩).ne')
    omega
  obtain ⟨r, hr⟩ : (routes (fun u w => w ∈ g.next u) k s t).Nonempty :=
    Finset.card_pos.mp (hCount k ▸ Nat.pos_of_ne_zero ht.attained)
  constructor
  · intro h
    have hAtMost := h.least r (mem_routes.mp hr).1
    rw [(mem_routes.mp hr).2] at hAtMost
    exact mem_routes.mpr ⟨h.path, Nat.le_antisymm hAtMost (hLeast p h.path)⟩
  · intro h
    obtain ⟨hPath, hLength⟩ := mem_routes.mp h
    exact ⟨hPath, fun q hq => hLength ▸ hLeast q hq⟩

/-- A node that a path leads to is reached. -/
theorem reaches_of_path (h : g.Path s t p) : g.Reaches s t := by
  induction p generalizing s with
  | nil =>
    have hStart := h.starts
    cases hStart
  | cons u p ih =>
    by_cases hLonger : p = []
    · subst hLonger
      obtain ⟨rfl, rfl⟩ := route_singleton_iff.mp h
      exact Relation.ReflTransGen.refl
    · obtain ⟨rfl, w, hStep, hRest⟩ := (route_cons_iff hLonger).mp h
      exact (ih hRest).head hStep

theorem exists_distance_of_reaches (h : g.Reaches s t) : ∃ k, Distance g.adjacency s t k := by
  obtain ⟨j, hWalk⟩ := reaches_iff_exists_walk.mp h
  obtain ⟨k, -, ht⟩ := exists_distance hWalk
  exact ⟨k, ht⟩

/-- A node is reached if and only if some path to it is shortest. -/
theorem reaches_iff_exists_isShortest : g.Reaches s t ↔ ∃ p, g.IsShortest s t p := by
  constructor
  · intro h
    obtain ⟨k, ht⟩ := exists_distance_of_reaches h
    obtain ⟨p, hp⟩ : (routes (fun u w => w ∈ g.next u) k s t).Nonempty := by
      rw [← Finset.card_pos, card_routes (M := g.adjacency) (fun _ _ => rfl)]
      exact Nat.pos_of_ne_zero ht.attained
    exact ⟨p, (isShortest_iff ht).mpr hp⟩
  · rintro ⟨p, hp⟩
    exact reaches_of_path hp.path

/-- The shortest paths between two nodes. -/
def shortest (g : Digraph n) (s t : Fin n) : Set (List (Fin n)) :=
  {p | g.IsShortest s t p}

/-- The shortest paths between two nodes on which a third one lies. -/
def shortestThrough (g : Digraph n) (s v t : Fin n) : Set (List (Fin n)) :=
  {p | g.IsShortest s t p ∧ v ∈ p}

theorem shortest_eq (ht : Distance g.adjacency s t k) :
    g.shortest s t = routes (fun u w => w ∈ g.next u) k s t := by
  ext p
  exact isShortest_iff ht

theorem finite_shortest (g : Digraph n) (s t : Fin n) : (g.shortest s t).Finite := by
  by_cases hReached : g.Reaches s t
  · obtain ⟨k, ht⟩ := exists_distance_of_reaches hReached
    rw [shortest_eq ht]
    exact Finset.finite_toSet _
  · have hNone : g.shortest s t = ∅ := by
      refine Set.eq_empty_iff_forall_notMem.mpr fun p hp => hReached ?_
      exact reaches_of_path hp.path
    rw [hNone]
    exact Set.finite_empty

theorem ncard_shortest (ht : Distance g.adjacency s t k) :
    (g.shortest s t).ncard = pathCount g.adjacency s t := by
  rw [shortest_eq ht, Set.ncard_coe_finset, card_routes (M := g.adjacency) fun _ _ => rfl,
    ht.pathCount_eq]

/-- The paths on which a node lies, and the walks that avoid it, are all. -/
theorem ncard_shortestThrough (ht : Distance g.adjacency s t k) (hEnd : t ≠ v) :
    walks (blind g.adjacency v) k s t + (g.shortestThrough s v t).ncard =
      pathCount g.adjacency s t := by
  have hAvoid : (g.shortest s t \ {p | v ∈ p}) =
      routes (fun u w => u ≠ v ∧ w ∈ g.next u) k s t := by
    ext p
    rw [Set.mem_sdiff, shortest_eq ht, Finset.mem_coe, Finset.mem_coe, mem_routes, mem_routes,
      route_avoiding_iff hEnd]
    exact and_right_comm
  have hEntries : ∀ u w, blind g.adjacency v u w = if u ≠ v ∧ w ∈ g.next u then 1 else 0 := by
    intro u w
    rw [blind, adjacency]
    by_cases hu : u = v <;> simp [hu]
  have hAll := Set.ncard_inter_add_ncard_sdiff_eq_ncard (g.shortest s t) {p | v ∈ p}
    (g.finite_shortest s t)
  rw [hAvoid, Set.ncard_coe_finset, card_routes hEntries, ncard_shortest ht] at hAll
  rw [Nat.add_comm]
  exact hAll

/-- **The part of the shortest paths that pass a node**, by counting them. -/
theorem passing_eq_ncard (hReached : g.Reaches s t) (hEnd : t ≠ v) :
    passing g.adjacency s v t =
      ((g.shortestThrough s v t).ncard : Rat) / (g.shortest s t).ncard := by
  obtain ⟨k, ht⟩ := exists_distance_of_reaches hReached
  have hSome : (pathCount g.adjacency s t : Rat) ≠ 0 := by exact_mod_cast ht.pathCount_ne_zero
  have hPart := passing_mul_pathCount (v := v) ht
  have hCount : (walks (blind g.adjacency v) k s t : Rat) + (g.shortestThrough s v t).ncard =
      pathCount g.adjacency s t := by exact_mod_cast ncard_shortestThrough ht hEnd
  rw [ncard_shortest ht, eq_div_iff hSome]
  linarith

theorem contains_reach : (g.reach s).contains t = true ↔ g.Reaches s t := by
  rw [List.contains_iff_mem, mem_reach]

instance (s t : Fin n) : Decidable (g.Reaches s t) :=
  decidable_of_iff _ contains_reach

/-- The pairs of two other nodes of which the one reaches the other. -/
def pairsAround (g : Digraph n) (v : Fin n) : Finset (Fin n × Fin n) :=
  {e | e.1 ≠ e.2 ∧ e.1 ≠ v ∧ e.2 ≠ v ∧ g.Reaches e.1 e.2}

/-- Only pairs around a node have paths on which it lies between. -/
theorem passing_eq_zero {e : Fin n × Fin n} (hSource : e.1 ≠ v) (hNot : e ∉ g.pairsAround v) :
    passing g.adjacency e.1 v e.2 = 0 := by
  rw [pairsAround, Finset.mem_filter, and_iff_right (Finset.mem_univ e)] at hNot
  by_cases hEnd : e.2 = v
  · rw [passing, hEnd, if_neg (Nat.lt_irrefl _)]
  · by_cases hReached : g.Reaches e.1 e.2
    · have hSame : e.1 = e.2 := by
        by_contra hNe
        exact hNot ⟨hNe, hSource, hEnd, hReached⟩
      rw [passing, ← hSame, (distance_self g.adjacency e.1).eq, if_neg (Nat.not_lt_zero _)]
    · refine passing_eq_zero_of_end fun k ht => hReached ?_
      exact reaches_iff_exists_walk.mpr ⟨k, ht.attained⟩

/-- The part of the shortest paths between two nodes on which a third one lies. -/
noncomputable def partThrough (g : Digraph n) (s v t : Fin n) : Rat :=
  (g.shortestThrough s v t).ncard / (g.shortest s t).ncard

theorem partThrough_nonneg (g : Digraph n) (s v t : Fin n) : 0 ≤ g.partThrough s v t := by
  rw [partThrough]
  positivity

theorem partThrough_le_one (g : Digraph n) (s v t : Fin n) : g.partThrough s v t ≤ 1 := by
  have hPart : (g.shortestThrough s v t).ncard ≤ (g.shortest s t).ncard :=
    Set.ncard_le_ncard (fun _ hp => hp.1) (g.finite_shortest s t)
  exact div_le_one_of_le₀ (by exact_mod_cast hPart) (by positivity)

/-- **The dependencies on a node by paths**: a sum over the pairs around it. -/
theorem totalDependency_eq_sum (v : Fin n) :
    totalDependency g.adjacency v = ∑ e ∈ g.pairsAround v, g.partThrough e.1 v e.2 := by
  have hTerm : ∀ e : Fin n × Fin n, (if e.1 = v then 0 else passing g.adjacency e.1 v e.2) =
      if e ∈ g.pairsAround v then g.partThrough e.1 v e.2 else 0 := by
    intro e
    by_cases hPair : e ∈ g.pairsAround v
    · obtain ⟨-, -, hSource, hEnd, hReached⟩ := Finset.mem_filter.mp hPair
      rw [if_pos hPair, if_neg hSource, passing_eq_ncard hReached hEnd, partThrough]
    · rw [if_neg hPair]
      split
      · rfl
      · rename_i hSource
        exact passing_eq_zero hSource hPair
  rw [← Finset.sum_ite_mem_eq, ← Finset.sum_congr rfl fun e _ => hTerm e, Fintype.sum_prod_type,
    totalDependency]
  refine Finset.sum_congr rfl fun s _ => ?_
  by_cases hs : s = v
  · simp [hs]
  · simp [hs, dependency]

/-- There are at most as many pairs as there are ordered pairs of other nodes. -/
theorem card_pairsAround_le (g : Digraph n) (v : Fin n) :
    (g.pairsAround v).card ≤ (n - 1) * (n - 2) := by
  have hSub : g.pairsAround v ⊆ (Finset.univ.erase v).offDiag := by
    intro e he
    obtain ⟨-, hNe, hSource, hEnd, -⟩ := Finset.mem_filter.mp he
    simp [Finset.mem_offDiag, hNe, hSource, hEnd]
  refine (Finset.card_le_card hSub).trans_eq ?_
  rw [Finset.offDiag_card, Finset.card_erase_of_mem (Finset.mem_univ v), Finset.card_univ,
    Fintype.card_fin, ← Nat.mul_sub_one]
  rfl

/-! ## Betweenness -/

/-- **The betweenness of a node by paths.** -/
theorem get_betweenness_eq_sum (v : Fin n) : (g.betweenness : Vector Rat n).get v =
    if n < 3 ∨ g.edgeCount = 0 then 0
    else 1 / (((n : Rat) - 1) * (n - 2)) * ∑ e ∈ g.pairsAround v, g.partThrough e.1 v e.2 := by
  rw [get_betweenness]
  split
  · rfl
  · rename_i hLarge
    rw [totalDependency_eq_sum, Nat.cast_mul, Nat.cast_sub (by omega), Nat.cast_sub (by omega),
      div_eq_inv_mul, one_div]
    rfl

theorem betweenness_nonneg (v : Fin n) : 0 ≤ (g.betweenness : Vector Rat n).get v := by
  rw [get_betweenness]
  split
  · exact le_refl 0
  · rw [totalDependency_eq_sum]
    have hSum : 0 ≤ ∑ e ∈ g.pairsAround v, g.partThrough e.1 v e.2 :=
      Finset.sum_nonneg fun e _ => g.partThrough_nonneg e.1 v e.2
    positivity

/-- No part is above one, and there are no more pairs than the sum is divided by. -/
theorem betweenness_le_one (v : Fin n) : (g.betweenness : Vector Rat n).get v ≤ 1 := by
  rw [get_betweenness]
  split
  · exact zero_le_one
  · rw [totalDependency_eq_sum]
    have hSum : ∑ e ∈ g.pairsAround v, g.partThrough e.1 v e.2 ≤ (g.pairsAround v).card := by
      rw [← nsmul_one]
      exact Finset.sum_le_card_nsmul _ _ _ fun e _ => g.partThrough_le_one e.1 v e.2
    refine div_le_one_of_le₀ (hSum.trans ?_) (by positivity)
    exact_mod_cast g.card_pairsAround_le v

end Digraph

/--
**Betweenness counts shortest paths.** In exact arithmetic, the table of a board has one entry for
each id. With three ids or more, and some link, the entry of an id is a sum over the ordered pairs
of two other nodes of which the one reaches the other: of the shortest paths between them, those on
which the node lies, divided by all of them; and the sum is divided by the number of ordered pairs
of other nodes. With fewer ids, or without links, it is zero. It is never negative and never above
one. The paths that are counted are lists of nodes along edges, of which there are finitely many,
and some exactly where a node is reached.
-/
theorem DependencyGraph.betweenness_counts_paths (ranking : RankConfig Rat) (board : Board) :
    let graph := DependencyGraph.ofBoard board
    let g := graph.digraph
    let table := (Provider.computed ranking).betweenness graph
    table.map Prod.fst = graph.ids ∧
    (∀ s t, (g.shortest s t).Finite ∧ (g.Reaches s t ↔ (g.shortest s t).Nonempty)) ∧
    ∀ v, ∃ score, table.lookup (graph.id v) = some score ∧ 0 ≤ score ∧ score ≤ 1 ∧
      score =
        if graph.size < 3 ∨ g.edgeCount = 0 then 0
        else 1 / (((graph.size : Rat) - 1) * (graph.size - 2)) *
          ∑ e ∈ g.pairsAround v,
            ((g.shortestThrough e.1 v e.2).ncard : Rat) / (g.shortest e.1 e.2).ncard := by
  intro graph g table
  have hTable : table = (List.finRange graph.size).map fun v => (graph.id v, g.betweenness.get v) :=
    DependencyGraph.byId_eq g.betweenness
  refine ⟨?_, fun s t => ?_, fun v => ?_⟩
  · rw [hTable, List.map_map]
    exact DependencyGraph.map_id_finRange graph
  · exact ⟨g.finite_shortest s t, Digraph.reaches_iff_exists_isShortest⟩
  · refine ⟨g.betweenness.get v, DependencyGraph.lookup_byId _ v, Digraph.betweenness_nonneg v,
      Digraph.betweenness_le_one v, ?_⟩
    exact Digraph.get_betweenness_eq_sum v

end Taskboard
