import Taskboard.Centrality.Betweenness
import Taskboard.Centrality.PageRank
import Taskboard.Graph.Dependency

/-!
# Taskboard — where centrality comes from

Triage reads centrality from tables by id and does not care how they are made.

* `Degrees` — the number of links on either side of each item;
* `Provider` — the tables of a dependency graph;
* `Provider.computed` — the provider that computes them.
-/

namespace Taskboard

/-- The number of links that enter and that leave each item. -/
structure Degrees where
  inward  : List (String × Nat)
  outward : List (String × Nat)

/-- A source of centrality, for any dependency graph. Ids that a table lacks count as zero. -/
structure Provider (R : Type) where
  pageRank    : DependencyGraph → List (String × R)
  betweenness : DependencyGraph → List (String × R)
  degrees     : DependencyGraph → Degrees

namespace DependencyGraph

/-- The values of a table by id. -/
def byId {α : Type} (g : DependencyGraph) (values : Vector α g.size) : List (String × α) :=
  g.ids.zip values.toList

/-- The degrees of the items of a graph. -/
def degrees (g : DependencyGraph) : Degrees :=
  let digraph := g.digraph
  { inward := g.byId (Vector.ofFn fun v => (digraph.prev v).length)
    outward := g.byId (Vector.ofFn fun v => (digraph.next v).length) }

end DependencyGraph

/-- The provider that computes everything from the graph. -/
def Provider.computed {R : Type} [Scalar R] (config : RankConfig R) : Provider R where
  pageRank g := g.byId (g.digraph.pageRank config).ranks
  betweenness g := g.byId g.digraph.betweenness
  degrees g := g.degrees

end Taskboard
