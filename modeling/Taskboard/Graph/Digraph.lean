/-!
# Taskboard — directed graphs

* `Digraph n` — a directed graph on the nodes below `n`;
* `Digraph.next`, `Digraph.prev` — the neighbours of a node, the one of the newest edge first;
* `Digraph.levelsFrom`, `Digraph.levels` — breadth-first search, one list of nodes a distance;
* `Digraph.reach` — what can be reached from a node;
* `Digraph.components` — the classes of nodes that reach one another.
-/

namespace Taskboard

/-- A directed graph on the nodes below `n`, as two tables that list the same edges. -/
structure Digraph (n : Nat) where
  after  : Vector (List (Fin n)) n
  before : Vector (List (Fin n)) n
  agree  : ∀ u v : Fin n, v ∈ after[u] ↔ u ∈ before[v]

namespace Digraph

variable {n : Nat}

/-- The graph with some edges, the oldest first. -/
def ofEdges (edges : List (Fin n × Fin n)) : Digraph n where
  after := Vector.ofFn fun u => ((edges.filter fun e => e.1 = u).map Prod.snd).reverse
  before := Vector.ofFn fun v => ((edges.filter fun e => e.2 = v).map Prod.fst).reverse
  agree := by intro u v; simp

/-- The ends of the edges that leave a node. -/
def next (g : Digraph n) (u : Fin n) : List (Fin n) :=
  g.after[u]

/-- The starts of the edges that enter a node. -/
def prev (g : Digraph n) (v : Fin n) : List (Fin n) :=
  g.before[v]

/-- Both sides of a node see the same edges. -/
theorem mem_next_iff_mem_prev (g : Digraph n) {u v : Fin n} : v ∈ g.next u ↔ u ∈ g.prev v :=
  g.agree u v

/-- The number of edges. -/
def edgeCount (g : Digraph n) : Nat :=
  ((List.finRange n).flatMap g.next).length

/-! ## Search -/

/-- The unseen nodes next to a level, in the order of their discovery. -/
def frontier (g : Digraph n) (unseen level : List (Fin n)) : List (Fin n) :=
  (level.flatMap g.next).eraseDups.filter fun v => unseen.contains v

/-- The nodes of a list that are not in another. -/
def without (nodes gone : List (Fin n)) : List (Fin n) :=
  nodes.filter fun v => !gone.contains v

/-- A search that finds something leaves less unseen. -/
theorem length_without_frontier_lt (g : Digraph n) (unseen level : List (Fin n))
    (h : g.frontier unseen level ≠ []) :
    (without unseen (g.frontier unseen level)).length < unseen.length := by
  obtain ⟨v, hv⟩ := List.exists_mem_of_ne_nil _ h
  refine List.length_filter_lt_length_iff_exists.mpr ⟨v, ?_, by simpa using hv⟩
  unfold frontier at hv
  simpa using (List.mem_filter.mp hv).2

/-- A level of a breadth-first search and all that follow it. -/
def levelsFrom (g : Digraph n) (unseen level : List (Fin n)) : List (List (Fin n)) :=
  let found := g.frontier unseen level
  if _h : found = [] then [level]
  else level :: levelsFrom g (without unseen found) found
termination_by unseen.length
decreasing_by exact g.length_without_frontier_lt unseen level _h

/-- The nodes by their distance from a node, the nearest first. -/
def levels (g : Digraph n) (s : Fin n) : List (List (Fin n)) :=
  g.levelsFrom (without (List.finRange n) [s]) [s]

/-- The nodes that can be reached from a node, itself among them. -/
def reach (g : Digraph n) (s : Fin n) : List (Fin n) :=
  (g.levels s).flatten

/-! ## Components -/

/-- The nodes that reach a node and are reached from it; `reached` lists what each node reaches. -/
def component (reached : Vector (List (Fin n)) n) (v : Fin n) : List (Fin n) :=
  (List.finRange n).filter fun w => reached[v].contains w && reached[w].contains v

/-- The classes of nodes that reach one another. -/
def components (g : Digraph n) : List (List (Fin n)) :=
  let reached := Vector.ofFn g.reach
  -- all members of a class give the same ascending list, of which one stays
  ((List.finRange n).map (component reached)).eraseDups

end Digraph

end Taskboard
