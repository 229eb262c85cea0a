import Taskboard.Centrality.Scalar
import Taskboard.Graph.Digraph

/-!
# Taskboard — betweenness

How often a node lies on shortest paths between other nodes. For every source the nodes are
arranged by their distance. Paths are counted level by level outwards; then each node collects,
level by level inwards, its part of the paths to the nodes behind it.

* `pathCounts` — the number of shortest paths to each node;
* `dependencies` — the part of the shortest paths to nodes further out that passes a node;
* `Digraph.betweenness` — the sum over all sources, scaled by the number of pairs of other nodes.
-/

namespace Taskboard

open Scalar

variable {R : Type} [Scalar R] {n : Nat}

/-- A node and the number of shortest paths from the source to it. -/
structure Counted (R : Type) (n : Nat) where
  node  : Fin n
  paths : R

/-- The number of shortest paths to a node whose level follows `level`. -/
def pathsInto (g : Digraph n) (level : List (Counted R n)) (w : Fin n) : R :=
  (level.filter fun v => (g.prev w).contains v.node).foldl (fun acc v => acc + v.paths) (natural 0)

/-- Path counts for the levels that follow a level. -/
def pathCountsFrom (g : Digraph n) (level : List (Counted R n)) :
    List (List (Fin n)) → List (List (Counted R n))
  | [] => []
  | nodes :: further =>
    let counted := nodes.map fun w => ⟨w, pathsInto g level w⟩
    counted :: pathCountsFrom g counted further

/-- Path counts from a source. One path leads to the source itself. -/
def pathCounts (g : Digraph n) (s : Fin n) : List (List (Counted R n)) :=
  match g.levels s with
  | [] => []
  | nodes :: further =>
    let counted := nodes.map fun v => ⟨v, natural 1⟩
    counted :: pathCountsFrom g counted further

/-- A node, its path count, and its part of the paths to nodes further out. -/
structure Weighed (R : Type) (n : Nat) extends Counted R n where
  dependency : R

/-- What a node gains from the level behind it. Of the paths to each node there, the part that
comes through this node, with all that depends on them. -/
def gain (g : Digraph n) (behind : List (Weighed R n)) (v : Counted R n) : R :=
  -- the nodes behind contribute in the reverse order of their discovery
  (behind.reverse.filter fun w => (g.next v.node).contains w.node).foldl
    (fun acc w => acc + v.paths / w.paths * (natural 1 + w.dependency)) (natural 0)

/-- The dependencies of all levels, from the outermost inwards. -/
def dependencies (g : Digraph n) : List (List (Counted R n)) → List (List (Weighed R n))
  | [] => []
  | level :: further =>
    let outer := dependencies g further
    level.map (fun v => ⟨v, gain g (outer.head?.getD []) v⟩) :: outer

/-- The dependencies of a source as a table. The source does not lie between. -/
def dependenciesOn (g : Digraph n) (s : Fin n) : Vector R n :=
  ((dependencies g (pathCounts g s)).drop 1).flatten.foldl
    (fun table w => table.set w.node w.dependency) (Vector.replicate n (natural 0))

/-- The betweenness of each node. With fewer than three nodes, or without edges, it is zero. -/
def Digraph.betweenness (g : Digraph n) : Vector R n :=
  if n < 3 ∨ g.edgeCount = 0 then Vector.replicate n (natural 0)
  else
    let tables : List (Vector R n) := (List.finRange n).map (dependenciesOn g)
    Vector.ofFn fun v =>
      Scalar.sum (tables.map fun table => table.get v) / natural ((n - 1) * (n - 2))

end Taskboard
