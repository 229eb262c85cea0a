import Mathlib
import Taskboard.Graph.Dependency

/-!
# Taskboard — walks and distances

The powers of the adjacency matrix count walks, and the distance between two nodes is the length
of the shortest walks. A walk that is cut at a node is two walks; so what is cut off the front of
a shortest walk is a shortest walk itself. That makes the levels of a breadth-first search the
nodes at distance 0, 1, 2, and so on.

Walks are counted for any matrix of natural numbers, since not every matrix that is compared with
a graph is the adjacency matrix of one.

* `walks` — the number of walks of some length;
* `Distance` — how far two nodes are apart;
* `Layers` — lists of the nodes at some distance, of those one step further, and so on;
* `Digraph.layers_levels` — the levels of a search are layers.
-/

namespace Taskboard

variable {n : Nat}

/-! ## Tables by node -/

theorem get_ofFn {α : Type} (f : Fin n → α) (v : Fin n) : (Vector.ofFn f).get v = f v := by
  simp [Vector.get_eq_getElem]

theorem get_set {α : Type} (table : Vector α n) (v w : Fin n) (x : α) :
    (table.set v x v.isLt).get w = if v = w then x else table.get w := by
  simp [Vector.get_eq_getElem, Vector.getElem_set, Fin.ext_iff]

/-! ## Walks -/

/-- The number of walks of `k` edges. An entry of the matrix is the number of edges between two
nodes. -/
def walks (M : Matrix (Fin n) (Fin n) Nat) (k : Nat) (s t : Fin n) : Nat :=
  (M ^ k) s t

variable {M N : Matrix (Fin n) (Fin n) Nat} {s t u v : Fin n} {i j k : Nat}

theorem walks_zero (M : Matrix (Fin n) (Fin n) Nat) (s t : Fin n) :
    walks M 0 s t = if s = t then 1 else 0 := by
  rw [walks, pow_zero, Matrix.one_apply]

theorem walks_one (M : Matrix (Fin n) (Fin n) Nat) (s t : Fin n) : walks M 1 s t = M s t := by
  rw [walks, pow_one]

/-- A walk that is cut after `j` edges is two walks. -/
theorem walks_add (M : Matrix (Fin n) (Fin n) Nat) (j k : Nat) (s t : Fin n) :
    walks M (j + k) s t = ∑ u, walks M j s u * walks M k u t := by
  rw [walks, pow_add, Matrix.mul_apply]
  rfl

theorem walks_succ (M : Matrix (Fin n) (Fin n) Nat) (k : Nat) (s t : Fin n) :
    walks M (k + 1) s t = ∑ u, walks M k s u * M u t := by
  simp only [walks_add M k 1, walks_one]

/-- A walk is cut after its first edge. -/
theorem walks_succ_left (M : Matrix (Fin n) (Fin n) Nat) (k : Nat) (s t : Fin n) :
    walks M (k + 1) s t = ∑ u, M s u * walks M k u t := by
  rw [Nat.add_comm]
  simp only [walks_add M 1, walks_one]

/-- A walk to a node goes on from there. -/
theorem walks_add_ne_zero (hFront : walks M j s u ≠ 0) (hRest : walks M k u t ≠ 0) :
    walks M (j + k) s t ≠ 0 := by
  rw [walks_add]
  intro hZero
  have hTerm := Finset.sum_eq_zero_iff.mp hZero u (Finset.mem_univ u)
  exact (Nat.mul_ne_zero hFront hRest) hTerm

/-- More edges give more walks. -/
theorem walks_mono (h : ∀ u v, M u v ≤ N u v) (k : Nat) (s t : Fin n) :
    walks M k s t ≤ walks N k s t := by
  induction k generalizing t with
  | zero => rw [walks_zero, walks_zero]
  | succ k ih =>
    rw [walks_succ, walks_succ]
    exact Finset.sum_le_sum fun u _ => Nat.mul_le_mul (ih u) (h u t)

/-! ## Distances -/

/-- The shortest walks between two nodes have `k` edges. -/
structure Distance (M : Matrix (Fin n) (Fin n) Nat) (s t : Fin n) (k : Nat) : Prop where
  attained : walks M k s t ≠ 0
  least    : ∀ j < k, walks M j s t = 0

instance : Decidable (Distance M s t k) :=
  decidable_of_iff (walks M k s t ≠ 0 ∧ ∀ j < k, walks M j s t = 0)
    ⟨fun h => ⟨h.1, h.2⟩, fun h => ⟨h.attained, h.least⟩⟩

theorem Distance.le (h : Distance M s t k) (hWalk : walks M j s t ≠ 0) : k ≤ j := by
  by_contra hLess
  exact hWalk (h.least j (by omega))

theorem Distance.unique (h : Distance M s t j) (h' : Distance M s t k) : j = k :=
  Nat.le_antisymm (h.le h'.attained) (h'.le h.attained)

theorem exists_distance (hWalk : walks M k s t ≠ 0) : ∃ j ≤ k, Distance M s t j := by
  have hSome : ∃ j, walks M j s t ≠ 0 := ⟨k, hWalk⟩
  refine ⟨Nat.find hSome, Nat.find_min' hSome hWalk, Nat.find_spec hSome, ?_⟩
  intro j hj
  simpa using Nat.find_min hSome hj

theorem distance_self (M : Matrix (Fin n) (Fin n) Nat) (s : Fin n) : Distance M s s 0 :=
  ⟨by simp [walks_zero], by simp⟩

theorem distance_zero_iff : Distance M s t 0 ↔ s = t := by
  constructor
  · intro h
    by_contra hNe
    exact h.attained (by rw [walks_zero, if_neg hNe])
  · rintro rfl
    exact distance_self M s

/-- The front of a shortest walk is a shortest walk. -/
theorem Distance.front (h : Distance M s t (j + k)) (hFront : walks M j s u ≠ 0)
    (hRest : walks M k u t ≠ 0) : Distance M s u j := by
  refine ⟨hFront, ?_⟩
  intro i hi
  by_contra hShort
  -- by the shorter way the whole walk is shorter too
  have hLe := h.le (walks_add_ne_zero hShort hRest)
  omega

/-- On the way to a node there is one at each smaller distance. -/
theorem Distance.exists_front (h : Distance M s t (j + k)) : ∃ u, Distance M s u j := by
  have hWalk := h.attained
  rw [walks_add] at hWalk
  obtain ⟨u, -, hTerm⟩ := Finset.exists_ne_zero_of_sum_ne_zero hWalk
  obtain ⟨hFront, hRest⟩ := Nat.mul_ne_zero_iff.mp hTerm
  exact ⟨u, h.front hFront hRest⟩

/-! ## Layers -/

/-- The first list holds the nodes at distance `i`, the next one those one step further, and so on
until no nodes are left. -/
def Layers (M : Matrix (Fin n) (Fin n) Nat) (s : Fin n) : Nat → List (List (Fin n)) → Prop
  | i, [] => ∀ v k, Distance M s v k → k < i
  | i, nodes :: further =>
    nodes.Nodup ∧ (∀ v, v ∈ nodes ↔ Distance M s v i) ∧ Layers M s (i + 1) further

theorem Layers.tail {layers : List (List (Fin n))} (h : Layers M s i layers) :
    Layers M s (i + 1) (layers.drop 1) := by
  cases layers with
  | nil => exact fun v k hDistance => Nat.lt_succ_of_lt (h v k hDistance)
  | cons nodes further => exact h.2.2

/-- The first layer, or no nodes if there is none. -/
theorem Layers.head {layers : List (List (Fin n))} (h : Layers M s i layers) :
    (layers.head?.getD []).Nodup ∧ ∀ v, v ∈ layers.head?.getD [] ↔ Distance M s v i := by
  cases layers with
  | nil =>
    have hNone : ∀ v, ¬ Distance M s v i := fun v hDistance => Nat.lt_irrefl i (h v i hDistance)
    simp [hNone]
  | cons nodes further => exact ⟨h.1, h.2.1⟩

/-- The layers hold the nodes that are no nearer than the first of them. -/
theorem Layers.mem_flatten {layers : List (List (Fin n))} (h : Layers M s i layers) :
    v ∈ layers.flatten ↔ ∃ k ≥ i, Distance M s v k := by
  induction layers generalizing i with
  | nil =>
    simp only [List.flatten_nil, List.not_mem_nil, false_iff]
    rintro ⟨k, hk, hDistance⟩
    have hLess := h v k hDistance
    omega
  | cons nodes further ih =>
    obtain ⟨-, hNodes, hFurther⟩ := h
    rw [List.flatten_cons, List.mem_append, hNodes, ih hFurther]
    constructor
    · rintro (hDistance | ⟨k, hk, hDistance⟩)
      · exact ⟨i, Nat.le_refl i, hDistance⟩
      · exact ⟨k, by omega, hDistance⟩
    · rintro ⟨k, hk, hDistance⟩
      rcases Nat.eq_or_lt_of_le hk with rfl | hk
      · exact Or.inl hDistance
      · exact Or.inr ⟨k, hk, hDistance⟩

/-- No node is in two layers. -/
theorem Layers.nodup_flatten {layers : List (List (Fin n))} (h : Layers M s i layers) :
    layers.flatten.Nodup := by
  induction layers generalizing i with
  | nil => exact List.nodup_nil
  | cons nodes further ih =>
    obtain ⟨hNodup, hNodes, hFurther⟩ := h
    rw [List.flatten_cons, List.nodup_append]
    refine ⟨hNodup, ih hFurther, ?_⟩
    rintro v hv w hw rfl
    obtain ⟨k, hk, hDistance⟩ := hFurther.mem_flatten.mp hw
    have hSame := hDistance.unique ((hNodes v).mp hv)
    omega

namespace Digraph

variable {g : Digraph n}

/-! ## Searches -/

theorem mem_frontier {unseen level : List (Fin n)} :
    v ∈ g.frontier unseen level ↔ (∃ u ∈ level, v ∈ g.next u) ∧ v ∈ unseen := by
  rw [frontier, List.mem_filter, List.mem_eraseDups, List.mem_flatMap, List.contains_iff_mem]

theorem nodup_frontier (unseen level : List (Fin n)) : (g.frontier unseen level).Nodup :=
  (DependencyGraph.nodup_eraseDups _ _ (Nat.le_refl _)).filter _

theorem mem_without {nodes gone : List (Fin n)} :
    v ∈ without nodes gone ↔ v ∈ nodes ∧ v ∉ gone := by
  simp [without]

/-- The number of edges between two nodes, which is one or zero. -/
def adjacency (g : Digraph n) : Matrix (Fin n) (Fin n) Nat :=
  fun u v => if v ∈ g.next u then 1 else 0

theorem adjacency_ne_zero_iff : g.adjacency u v ≠ 0 ↔ v ∈ g.next u := by
  simp [adjacency]

/-- A node is one step further than some node in front of it. -/
theorem distance_succ_iff : Distance g.adjacency s v (k + 1) ↔
    (∃ u, Distance g.adjacency s u k ∧ v ∈ g.next u) ∧ ∀ j ≤ k, walks g.adjacency j s v = 0 := by
  constructor
  · intro h
    refine ⟨?_, fun j hj => h.least j (by omega)⟩
    have hWalk := h.attained
    rw [walks_succ] at hWalk
    obtain ⟨u, -, hTerm⟩ := Finset.exists_ne_zero_of_sum_ne_zero hWalk
    obtain ⟨hFront, hEdge⟩ := Nat.mul_ne_zero_iff.mp hTerm
    refine ⟨u, h.front hFront ?_, adjacency_ne_zero_iff.mp hEdge⟩
    rwa [walks_one]
  · rintro ⟨⟨u, hDistance, hEdge⟩, hFar⟩
    refine ⟨walks_add_ne_zero hDistance.attained ?_, fun j hj => hFar j (by omega)⟩
    rw [walks_one]
    exact adjacency_ne_zero_iff.mpr hEdge

section Search

variable {unseen level : List (Fin n)}
  (hLevel : ∀ v, v ∈ level ↔ Distance g.adjacency s v i)
  (hUnseen : ∀ v, v ∈ unseen ↔ ∀ j ≤ i, walks g.adjacency j s v = 0)

include hLevel hUnseen

/-- What is found next is one step further. -/
theorem mem_frontier_iff_distance :
    v ∈ g.frontier unseen level ↔ Distance g.adjacency s v (i + 1) := by
  rw [mem_frontier, distance_succ_iff, hUnseen]
  simp only [hLevel]

theorem mem_without_frontier_iff : v ∈ without unseen (g.frontier unseen level) ↔
    ∀ j ≤ i + 1, walks g.adjacency j s v = 0 := by
  rw [mem_without, hUnseen, mem_frontier_iff_distance hLevel hUnseen]
  constructor
  · rintro ⟨hFar, hNot⟩ j hj
    rcases Nat.le_succ_iff.mp hj with hj | rfl
    · exact hFar j hj
    · by_contra hWalk
      exact hNot ⟨hWalk, fun j hj => hFar j (by omega)⟩
  · intro hFar
    refine ⟨fun j hj => hFar j (by omega), ?_⟩
    intro hDistance
    exact hDistance.attained (hFar (i + 1) (Nat.le_refl _))

end Search

/-- **A search goes from one layer to the next**, if it starts with all nodes at some distance and
has seen these and the nearer ones. -/
theorem layers_levelsFrom {unseen level : List (Fin n)} (hNodup : level.Nodup)
    (hLevel : ∀ v, v ∈ level ↔ Distance g.adjacency s v i)
    (hUnseen : ∀ v, v ∈ unseen ↔ ∀ j ≤ i, walks g.adjacency j s v = 0) :
    Layers g.adjacency s i (g.levelsFrom unseen level) := by
  fun_induction levelsFrom g unseen level generalizing i with
  | case1 unseen level found =>
    rename_i hNone
    refine ⟨hNodup, hLevel, ?_⟩
    intro v k hDistance
    by_contra hFar
    -- a node that far would have one at the next distance on the way
    obtain ⟨m, rfl⟩ := Nat.exists_eq_add_of_le (show i + 1 ≤ k by omega)
    obtain ⟨u, hNext⟩ := hDistance.exists_front
    have hFound : u ∈ found := (mem_frontier_iff_distance hLevel hUnseen).mpr hNext
    rw [hNone] at hFound
    cases hFound
  | case2 unseen level found hSome =>
    rename_i ih
    exact ⟨hNodup, hLevel, ih (nodup_frontier _ _)
      (fun v => mem_frontier_iff_distance hLevel hUnseen)
      (fun v => mem_without_frontier_iff hLevel hUnseen)⟩

/-- **The levels of a search are the layers around its start.** -/
theorem layers_levels (s : Fin n) : Layers g.adjacency s 0 (g.levels s) := by
  refine layers_levelsFrom (List.nodup_singleton s) ?_ ?_
  · intro v
    rw [List.mem_singleton, distance_zero_iff, eq_comm]
  · intro v
    rw [mem_without]
    simp [walks_zero, eq_comm]

end Digraph

end Taskboard
