import Taskboard.Graph.Digraph

/-!
# Taskboard — depths

The depth of a node is the number of edges on the longest path that ends there. On a cycle there
is no longest path; a depth-first search against the edges then leaves out each edge that closes a
cycle of the search.

* `Mark` — how far the search is with a node;
* `Digraph.visit` — the search from one node;
* `Digraph.depths` — the depths of all nodes.
-/

namespace Taskboard

/-- How far the search is with a node. -/
inductive Mark where
  | fresh
  | active
  | done (depth : Nat)
  deriving DecidableEq, Repr

namespace Mark

/-- The depth of a node that is done. -/
def depth : Mark → Nat
  | .done d => d
  | _ => 0

/-- The depth of a node so far, after a look at one in front of it. Only one that is done
counts. -/
def deepen (best : Nat) : Mark → Nat
  | .done d => max best (d + 1)
  | _ => best

end Mark

namespace Digraph

variable {n : Nat}

/-- Runs a search on a node that has not been met. -/
def onFresh (search : Vector Mark n → Fin n → Vector Mark n) (marks : Vector Mark n) (v : Fin n) :
    Vector Mark n :=
  if marks.get v = .fresh then search marks v else marks

/-- The search from a node, which ends by marking it as done. Every step down meets a fresh node,
so `fuel` need not exceed the number of nodes. -/
def visit (g : Digraph n) : Nat → Vector Mark n → Fin n → Vector Mark n
  | 0, marks, _ => marks
  | fuel + 1, marks, v =>
    let searched := (g.prev v).foldl
      (fun (marks, best) u =>
        -- a node that is still active closes a cycle and does not deepen
        let marks := onFresh (visit g fuel) marks u
        (marks, (marks.get u).deepen best))
      (marks.set v .active, 0)
    searched.1.set v (.done searched.2)

/-- The depths of all nodes. -/
def depths (g : Digraph n) : Vector Nat n :=
  ((List.finRange n).foldl (onFresh (g.visit n)) (Vector.replicate n .fresh)).map Mark.depth

end Digraph

end Taskboard
