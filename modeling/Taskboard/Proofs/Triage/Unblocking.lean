import Mathlib
import Taskboard.Proofs.Graph.Chains
import Taskboard.Proofs.Triage.Metrics

/-!
# Taskboard — what an item unblocks

The number of items that wait for one is taken from a search: it is one less than the number of
nodes that the search lists. That is a count of descendants, for two reasons. The search lists each
node once, however many paths lead there; and the start, which it lists before anything else, is
the one node too many, whether or not a cycle leads back to it.

* `DependencyGraph.descendants` — the other ids to which links lead;
* `Digraph.ncard_reached` — the nodes that are reached, counted;
* `DependencyGraph.unblockCounts_count_descendants` — the unblock counts of a graph.
-/

namespace Taskboard

namespace Digraph

variable {n : Nat} {g : Digraph n}

/-- **The nodes that are reached**, without the start: each once, and one less than are listed. -/
theorem ncard_reached (v : Fin n) :
    {w | w ≠ v ∧ g.Reaches v w}.ncard + 1 = (g.reach v).length := by
  have hStart : v ∈ g.reach v := mem_reach.mpr Relation.ReflTransGen.refl
  have hOthers : {w | w ≠ v ∧ g.Reaches v w} = ((g.reach v).erase v).toFinset := by
    ext w
    rw [Set.mem_ofPred_eq, Finset.mem_coe, List.mem_toFinset, (nodup_reach v).mem_erase_iff,
      mem_reach]
  rw [hOthers, Set.ncard_coe_finset, List.toFinset_card_of_nodup ((nodup_reach v).erase v),
    List.length_erase_add_one hStart]

end Digraph

namespace DependencyGraph

variable {g : DependencyGraph}

/-- The other ids to which one link leads, or several. -/
def descendants (g : DependencyGraph) (id : String) : Set String :=
  {other | other ≠ id ∧ Relation.TransGen (fun a b => ⟨a, b⟩ ∈ g.links) id other}

/-- The descendants of an id stand at the other places that are reached from its own. -/
theorem descendants_eq (v : Fin g.size) :
    g.descendants (g.id v) = g.id '' {w | w ≠ v ∧ g.digraph.Reaches v w} := by
  have hSome : ∀ {other}, other ≠ g.id v →
      (Relation.TransGen (fun a b => ⟨a, b⟩ ∈ g.links) (g.id v) other ↔
        Leads g.linkSet (g.id v) other) := by
    intro other hNe
    -- only to itself does an id lead by no link at all
    refine ⟨fun hPath => hPath.to_reflTransGen, fun hLeads => ?_⟩
    exact (Relation.reflTransGen_iff_eq_or_transGen.mp hLeads).resolve_left hNe
  ext other
  constructor
  · rintro ⟨hNe, hPath⟩
    obtain ⟨w, rfl, hReaches⟩ := leads_iff.mp ((hSome hNe).mp hPath)
    exact ⟨w, ⟨fun hEq => hNe (congrArg g.id hEq), hReaches⟩, rfl⟩
  · rintro ⟨w, ⟨hNe, hReaches⟩, rfl⟩
    have hOther : g.id w ≠ g.id v := fun hEq => hNe (id_injective g hEq)
    exact ⟨hOther, (hSome hOther).mpr (leads_iff.mpr ⟨w, rfl, hReaches⟩)⟩

theorem ncard_descendants (v : Fin g.size) :
    (g.descendants (g.id v)).ncard + 1 = (g.digraph.reach v).length := by
  rw [descendants_eq, Set.ncard_image_of_injective _ (id_injective g), Digraph.ncard_reached]

/--
**Unblock counts are numbers of descendants.** In every graph, with cycles or without, the count of
an id is the number of other ids to which one link leads, or several. Ids are counted once, however
many ways lead to them, and none counts itself. There is always a start to take away from what the
search has found. It is also the count that reports give.
-/
theorem unblockCounts_count_descendants (g : DependencyGraph) (v : Fin g.size) :
    let count := (Report.unblockCounts g.digraph).get v
    count = (g.descendants (g.id v)).ncard ∧
    (g.descendants (g.id v)).Finite ∧
    (g.digraph.reach v).length = count + 1 ∧
    ∀ (R : Type) [Scalar R] (provider : Provider R) (board : Board), ∃ m,
      (Report.metricsOf provider board g).lookup (g.id v) = some m ∧ m.unblockCount = count := by
  intro count
  have hCount : count = (g.digraph.reach v).length - 1 := get_ofFn _ v
  have hListed := ncard_descendants v
  refine ⟨by omega, ?_, by omega, ?_⟩
  · rw [descendants_eq]
    exact (Set.toFinite _).image _
  · intro R _ provider board
    exact ⟨_, Report.lookup_metricsOf v, hCount.symm⟩

end DependencyGraph

end Taskboard
