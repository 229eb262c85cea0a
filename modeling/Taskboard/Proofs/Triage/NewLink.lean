import Mathlib
import Taskboard.Proofs.Centrality.NewEdge
import Taskboard.Proofs.Triage.Metrics

/-!
# Taskboard — an item that blocks one more

When an item is found to block one more, it should matter more. Three of the four parts of its
impact agree: it blocks one item more, at least as many items wait for it, and its betweenness does
not fall. The fourth part need not. A node hands its rank on in equal shares; with a new edge the
old receivers get less each, and if what they get leads back to the node, the node gets less. It
may lead back along a cycle. But it also comes back where there are no cycles, because the rank of
the nodes that no edge leaves is pooled and dealt out to all: if `a` blocks `s1` to `s20`, which
block nothing, and `c` blocks `x`, then a link from `a` to `c` takes from what the twenty return at
once and gives it to `c`, which hands it on to `x` first.

So the impact may fall, but by no more than its part of the page rank does.

* `WorkItem.alsoBlocks` — the item with one more link;
* `DependencyGraph.mem_links_alsoBlocks` — the graph has this link more and no other;
* `Report.raised_of_new_link` — what becomes of the metrics of the item;
* `Report.impact_falls_on_mutual_link` — a board on which the impact falls.
-/

namespace Taskboard

open Scalar

/-! ## One more link -/

/-- The item that also blocks `id`. -/
def WorkItem.alsoBlocks (item : WorkItem) (id : String) : WorkItem :=
  { item with blocking := some (item.blockedItems ++ [id]) }

variable {pre post : Board} {item : WorkItem} {id : String}

theorem WorkItem.links_alsoBlocks : (item.alsoBlocks id).links = item.links ++ [⟨item.id, id⟩] := by
  simp [links, alsoBlocks, blockers, blockedItems]

namespace DependencyGraph

theorem ids_alsoBlocks :
    (ofBoard (pre ++ item.alsoBlocks id :: post)).ids = (ofBoard (pre ++ item :: post)).ids := by
  have hSame : (item.alsoBlocks id).id = item.id := rfl
  simp [ofBoard, hSame]

/-- **The graph has one link more and no other.** -/
theorem mem_links_alsoBlocks (hId : id ∈ (pre ++ item :: post).map WorkItem.id)
    (hNe : item.id ≠ id) {a b : String} :
    ⟨a, b⟩ ∈ (ofBoard (pre ++ item.alsoBlocks id :: post)).links ↔
      ⟨a, b⟩ ∈ (ofBoard (pre ++ item :: post)).links ∨ (a = item.id ∧ b = id) := by
  have hRecords : Board.Records (pre ++ item.alsoBlocks id :: post) a b ↔
      Board.Records (pre ++ item :: post) a b ∨ (a = item.id ∧ b = id) := by
    rw [← mem_flatMap_links, ← mem_flatMap_links]
    simp only [List.flatMap_append, List.flatMap_cons, WorkItem.links_alsoBlocks, List.mem_append,
      List.mem_singleton, Link.mk.injEq]
    tauto
  have hKnown : a = item.id ∧ b = id → a ∈ (ofBoard (pre ++ item :: post)).ids ∧
      b ∈ (ofBoard (pre ++ item :: post)).ids ∧ a ≠ b := by
    rintro ⟨rfl, rfl⟩
    refine ⟨mem_ids_ofBoard.mpr ?_, mem_ids_ofBoard.mpr hId, hNe⟩
    simp
  rw [mem_links_ofBoard, mem_links_ofBoard, hRecords, ids_alsoBlocks]
  tauto

/-- `h` is `g` with a link from `a` to `c`. -/
structure AddsLink (g h : DependencyGraph) (a c : String) : Prop where
  ids   : h.ids = g.ids
  links : ∀ x y, ⟨x, y⟩ ∈ h.links ↔ ⟨x, y⟩ ∈ g.links ∨ (x = a ∧ y = c)

namespace AddsLink

variable {g h : DependencyGraph} {a c : String} (hAdds : AddsLink g h a c)

include hAdds

theorem length_successors (hNew : ⟨a, c⟩ ∉ g.links) :
    (h.successors a).length = (g.successors a).length + 1 := by
  have hNodup : ∀ g : DependencyGraph, (g.successors a).Nodup :=
    fun g => (sorted_successors a).imp fun hLt => ne_of_lt hLt
  have hPerm : (h.successors a).Perm (c :: g.successors a) := by
    have hFresh : c ∉ g.successors a := by rwa [mem_successors]
    rw [List.perm_ext_iff_of_nodup (hNodup h) (List.nodup_cons.mpr ⟨hFresh, hNodup g⟩)]
    intro b
    rw [List.mem_cons, mem_successors, mem_successors, hAdds.links]
    tauto
  rw [hPerm.length_eq, List.length_cons]

theorem size_eq : g.size = h.size := by
  rw [size, size, hAdds.ids]

theorem id_cast (v : Fin g.size) : h.id (Fin.cast hAdds.size_eq v) = g.id v :=
  List.getElem_of_eq hAdds.ids _

theorem mem_next_cast (hc : c ∈ g.ids) (v u w : Fin g.size) (hv : g.id v = a) :
    Fin.cast hAdds.size_eq w ∈ h.digraph.next (Fin.cast hAdds.size_eq u) ↔
      w ∈ g.digraph.next u ∨ (u = v ∧ w = g.node c hc) := by
  have hFrom : g.id u = a ↔ u = v := by rw [← hv, (id_injective g).eq_iff]
  have hTo : g.id w = c ↔ w = g.node c hc := by rw [← (id_injective g).eq_iff, id_node]
  rw [mem_next_digraph, mem_next_digraph, hAdds.id_cast, hAdds.id_cast, hAdds.links, hFrom, hTo]

end AddsLink

theorem addsLink_alsoBlocks (hId : id ∈ (pre ++ item :: post).map WorkItem.id)
    (hNe : item.id ≠ id) : AddsLink (ofBoard (pre ++ item :: post))
      (ofBoard (pre ++ item.alsoBlocks id :: post)) item.id id where
  ids := ids_alsoBlocks
  links _ _ := mem_links_alsoBlocks hId hNe

end DependencyGraph

/-! ## Metrics -/

theorem clamp_eq (x : Rat) : clamp x = min (max x 0) 1 := by
  show (if decide (1 < if decide (x < 0) = true then 0 else x) = true then 1
    else if decide (x < 0) = true then 0 else x) = min (max x 0) 1
  simp only [decide_eq_true_eq]
  split_ifs <;> grind

theorem clamp_mono {x y : Rat} (hLe : x ≤ y) : clamp x ≤ clamp y := by
  rw [clamp_eq, clamp_eq]
  gcongr

/-- The impact, in points from 0 to 100. -/
theorem Metrics.impactScore_eq (m : Metrics Rat) : m.impactScore =
    30 * clamp m.pageRank + 20 * clamp m.betweenness + (min (10 * m.outDegree) 100 : Nat) / 4 +
      (min (5 * m.unblockCount) 100 : Nat) / 4 := by
  show (3 / 10 * (clamp m.pageRank * 100) + 1 / 5 * (clamp m.betweenness * 100) +
    1 / 4 * ((min (10 * m.outDegree) 100 : Nat) : Rat) +
    1 / 4 * ((min (5 * m.unblockCount) 100 : Nat) : Rat) : Rat) = _
  ring

/-- What one more link does to the metrics of the item that blocks. Its impact falls at most as
far as the part of it that is page rank, 30 of 100 points. -/
structure Metrics.Raised (old new : Metrics Rat) : Prop where
  outDegree    : new.outDegree = old.outDegree + 1
  unblockCount : old.unblockCount ≤ new.unblockCount
  betweenness  : old.betweenness ≤ new.betweenness
  impactScore  : old.impactScore ≤
    new.impactScore + 30 * (clamp old.pageRank - clamp new.pageRank)

theorem Metrics.raised {old new : Metrics Rat} (hOut : new.outDegree = old.outDegree + 1)
    (hUnblock : old.unblockCount ≤ new.unblockCount)
    (hBetween : old.betweenness ≤ new.betweenness) : Raised old new where
  outDegree := hOut
  unblockCount := hUnblock
  betweenness := hBetween
  impactScore := by
    have hMiddle := clamp_mono hBetween
    have hDirect : min (10 * old.outDegree) 100 ≤ min (10 * new.outDegree) 100 := by omega
    have hReached : min (5 * old.unblockCount) 100 ≤ min (5 * new.unblockCount) 100 := by omega
    have hDirect' : ((min (10 * old.outDegree) 100 : Nat) : Rat) ≤
        (min (10 * new.outDegree) 100 : Nat) := by exact_mod_cast hDirect
    have hReached' : ((min (5 * old.unblockCount) 100 : Nat) : Rat) ≤
        (min (5 * new.unblockCount) 100 : Nat) := by exact_mod_cast hReached
    -- what is left over of the sum is the part of the page rank
    rw [impactScore_eq, impactScore_eq]
    linarith

namespace Report

/--
**One more link raises all but the page rank.** If an item is found to block one more, it blocks
one item more, no fewer wait for it, and its betweenness does not fall. So the impact can only fall
with the page rank, and by no more than 30 points for each point of that.
-/
theorem raised_of_new_link (ranking : RankConfig Rat) (config : TriageConfig Rat)
    (hId : id ∈ (pre ++ item :: post).map WorkItem.id) (hNe : item.id ≠ id)
    (hNew : ⟨item.id, id⟩ ∉ (DependencyGraph.ofBoard (pre ++ item :: post)).links) :
    ∃ old new, (compute (.computed ranking) config (pre ++ item :: post)).metrics.lookup item.id =
        some old ∧
      (compute (.computed ranking) config (pre ++ item.alsoBlocks id :: post)).metrics.lookup
        item.id = some new ∧ old.Raised new := by
  have hAdds := DependencyGraph.addsLink_alsoBlocks hId hNe
  have hHere : item.id ∈ (DependencyGraph.ofBoard (pre ++ item :: post)).ids :=
    DependencyGraph.mem_ids_ofBoard.mpr (by simp)
  have hThere : id ∈ (DependencyGraph.ofBoard (pre ++ item :: post)).ids :=
    DependencyGraph.mem_ids_ofBoard.mpr hId
  obtain ⟨v, hv⟩ := DependencyGraph.exists_id_eq hHere
  -- the ids are the same, so the item keeps its place
  have hv' := (hAdds.id_cast v).trans hv
  obtain ⟨hReach, hBetween⟩ := Digraph.le_of_addsEdge_cast hAdds.size_eq
    (hAdds.mem_next_cast hThere v · · hv)
  refine ⟨_, _, hv ▸ lookup_metricsOf v, hv' ▸ lookup_metricsOf _, Metrics.raised ?_ ?_ ?_⟩
  · rw [metricsAt_computed, metricsAt_computed]
    show (Digraph.next _ _).length = (Digraph.next _ _).length + 1
    rw [DependencyGraph.length_next, DependencyGraph.length_next, hv, hv',
      hAdds.length_successors hNew]
  · rw [metricsAt_computed, metricsAt_computed]
    exact Nat.sub_le_sub_right hReach 1
  · rw [metricsAt_computed, metricsAt_computed]
    exact hBetween

/-- One of two items blocks the other, and then also the other way round. -/
theorem raised_mutual_link :
    let first : WorkItem := { id := "c", blocking := some ["a"] }
    let item : WorkItem := { id := "a" }
    let config : TriageConfig Rat := { ranking := .standard }
    "c" ∈ [first, item].map WorkItem.id ∧ item.id ≠ "c" ∧
      ⟨item.id, "c"⟩ ∉ (DependencyGraph.ofBoard [first, item]).links ∧
      ∃ old new, (compute (.computed .standard) config [first, item]).metrics.lookup "a" =
          some old ∧
        (compute (.computed .standard) config [first, item.alsoBlocks "c"]).metrics.lookup "a" =
          some new ∧ old.Raised new := by
  intro first item config
  have hId : "c" ∈ ([first] ++ item :: []).map WorkItem.id := by decide
  have hNe : item.id ≠ "c" := by decide
  have hNew : ⟨item.id, "c"⟩ ∉ (DependencyGraph.ofBoard ([first] ++ item :: [])).links := by
    decide +kernel
  exact ⟨hId, hNe, hNew, raised_of_new_link .standard config hId hNe hNew⟩

/-- The graph of these two items before. -/
def oneWay : DependencyGraph where
  ids := ["c", "a"]
  links := [⟨"c", "a"⟩]
  distinct := by decide
  ascending := by decide
  known := by decide
  proper := by decide

/-- Their graph when each blocks the other. -/
def bothWays : DependencyGraph where
  ids := ["c", "a"]
  links := [⟨"a", "c"⟩, ⟨"c", "a"⟩]
  distinct := by decide
  ascending := by decide
  known := by decide
  proper := by decide

/--
**The impact of an item can fall when it blocks one more.** As long as `a` is the end of the chain
it collects most of the rank; when it blocks `c` in turn, both hold one half.
-/
theorem impact_falls_on_mutual_link :
    let before : Board := [{ id := "c", blocking := some ["a"] }, { id := "a" }]
    let after : Board := [{ id := "c", blocking := some ["a"] },
      { id := "a", blocking := some ["c"] }]
    let config : TriageConfig Rat := { ranking := .standard }
    ∃ old new, (compute (.computed .standard) config before).metrics.lookup "a" = some old ∧
      (compute (.computed .standard) config after).metrics.lookup "a" = some new ∧
      new.impactScore < old.impactScore := by
  intro before after config
  -- the metrics are evaluated on graphs that are written out
  have hBefore : DependencyGraph.ofBoard before = oneWay :=
    DependencyGraph.eq_of_ids_of_links (by decide) (by cbv)
  have hAfter : DependencyGraph.ofBoard after = bothWays :=
    DependencyGraph.eq_of_ids_of_links (by decide) (by cbv)
  have hOld : 19 < (metricsAt (.computed .standard) before oneWay ⟨1, by decide⟩ :
      Metrics Rat).impactScore := by
    have hReach : oneWay.digraph.reach ⟨1, by decide⟩ = [⟨1, by decide⟩] := by cbv
    rw [metricsAt_computed, hReach]
    decide +kernel
  have hNew : (metricsAt (.computed .standard) after bothWays ⟨1, by decide⟩ :
      Metrics Rat).impactScore < 19 := by
    have hReach : bothWays.digraph.reach ⟨1, by decide⟩ = [⟨1, by decide⟩, ⟨0, by decide⟩] := by
      cbv
    rw [metricsAt_computed, hReach]
    decide +kernel
  refine ⟨_, _, ?_, ?_, hNew.trans hOld⟩
  · show (metricsOf _ before (DependencyGraph.ofBoard before)).lookup "a" = _
    rw [hBefore]
    exact lookup_metricsOf (⟨1, by decide⟩ : Fin oneWay.size)
  · show (metricsOf _ after (DependencyGraph.ofBoard after)).lookup "a" = _
    rw [hAfter]
    exact lookup_metricsOf (⟨1, by decide⟩ : Fin bothWays.size)

end Report

end Taskboard
