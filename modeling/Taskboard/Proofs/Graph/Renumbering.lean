import Mathlib
import Taskboard.Proofs.Graph.Parts

/-!
# Taskboard — renumbered graphs

Places are given to ids in the order of the board, so another order of the same board renumbers
all nodes. The edges do not move with the places: they stand in the order of the links, which is
an order of ids. So a node keeps its neighbours, in the same order, under their new numbers, and
what is computed by walking along neighbours comes out the same, number by number.

* `Digraph.Renumbers` — one graph is the other with new numbers;
* `Digraph.Renumbers.embeds` — a graph that is a part of another and leaves out none of it;
* `Digraph.Renumbers.levels`, `Digraph.Renumbers.reach` — searches are renumbered;
* `Digraph.Renumbers.depths` — so are depths, without cycles;
* `DependencyGraph.renumbers_places` — graphs with the same ids and links are renumbered;
* `DependencyGraph.cycles_eq` — and report the same cycles.
-/

namespace Taskboard

namespace Digraph

variable {n m : Nat} {σ : Fin n ≃ Fin m} {g : Digraph n} {h : Digraph m}

/-- `σ` gives new numbers to the nodes of `g`, and what comes out is `h`. Neighbours keep their
order. -/
structure Renumbers (σ : Fin n ≃ Fin m) (g : Digraph n) (h : Digraph m) : Prop where
  next : ∀ u, h.next (σ u) = (g.next u).map σ
  prev : ∀ v, h.prev (σ v) = (g.prev v).map σ

theorem perm_finRange (σ : Fin n ≃ Fin m) : (List.finRange m).Perm ((List.finRange n).map σ) := by
  rw [List.perm_ext_iff_of_nodup (List.nodup_finRange m)
    ((List.nodup_finRange n).map σ.injective)]
  intro w
  have hMem : w ∈ (List.finRange n).map σ := List.mem_map.mpr ⟨σ.symm w, by simp⟩
  simp [hMem]

namespace Renumbers

/-! ## Searches -/

theorem contains_next (hR : Renumbers σ g h) (u v : Fin n) :
    (h.next (σ u)).contains (σ v) = (g.next u).contains v := by
  rw [hR.next, Bool.eq_iff_iff, List.contains_iff_mem, List.contains_iff_mem,
    List.mem_map_of_injective σ.injective]

theorem contains_prev (hR : Renumbers σ g h) (u v : Fin n) :
    (h.prev (σ v)).contains (σ u) = (g.prev v).contains u := by
  rw [hR.prev, Bool.eq_iff_iff, List.contains_iff_mem, List.contains_iff_mem,
    List.mem_map_of_injective σ.injective]

theorem edgeCount (hR : Renumbers σ g h) : h.edgeCount = g.edgeCount := by
  rw [Digraph.edgeCount, Digraph.edgeCount, List.length_flatMap, List.length_flatMap,
    ((perm_finRange σ).map _).sum_eq, List.map_map]
  simp [Function.comp_def, hR.next]

/-- Erasing duplicates looks at nothing but equality. -/
theorem eraseDups_map : ∀ (k : Nat) (l : List (Fin n)), l.length ≤ k →
    (l.map σ).eraseDups = l.eraseDups.map σ
  | _, [], _ => by simp
  | k + 1, v :: l, hLen => by
    have hShort : (l.filter fun w => !w == v).length ≤ k :=
      Nat.le_trans (List.length_filter_le _ _) (Nat.le_of_succ_le_succ hLen)
    rw [List.map_cons, List.eraseDups_cons, List.eraseDups_cons, List.map_cons, List.filter_map,
      ← eraseDups_map k _ hShort]
    simp [Function.comp_def, Bool.beq_eq_decide_eq]

theorem frontier (hR : Renumbers σ g h) {unseen level : List (Fin n)} {unseen' : List (Fin m)}
    (hUnseen : ∀ v, unseen'.contains (σ v) = unseen.contains v) :
    h.frontier unseen' (level.map σ) = (g.frontier unseen level).map σ := by
  have hFlat : (level.map σ).flatMap h.next = (level.flatMap g.next).map σ := by
    rw [List.flatMap_map, List.map_flatMap]
    simp only [hR.next]
  rw [Digraph.frontier, Digraph.frontier, hFlat, eraseDups_map _ _ (Nat.le_refl _),
    List.filter_map]
  simp only [Function.comp_def, hUnseen]

theorem levelsFrom (hR : Renumbers σ g h) (unseen level : List (Fin n)) (unseen' : List (Fin m))
    (hUnseen : ∀ v, unseen'.contains (σ v) = unseen.contains v) :
    h.levelsFrom unseen' (level.map σ) = (g.levelsFrom unseen level).map (List.map σ) := by
  fun_induction Digraph.levelsFrom g unseen level generalizing unseen' with
  | case1 unseen level found hFound =>
    have hNone : h.frontier unseen' (level.map σ) = [] := by
      rw [hR.frontier hUnseen, show g.frontier unseen level = [] from hFound, List.map_nil]
    rw [Digraph.levelsFrom]
    simp [hNone]
  | case2 unseen level found hFound ih =>
    have hSome : h.frontier unseen' (level.map σ) = found.map σ := hR.frontier hUnseen
    have hRest : ∀ v, (without unseen' (found.map σ)).contains (σ v) =
        (without unseen found).contains v := by
      intro v
      have hMem := hUnseen v
      rw [Bool.eq_iff_iff, List.contains_iff_mem, List.contains_iff_mem] at *
      rw [mem_without, mem_without, hMem, List.mem_map_of_injective σ.injective]
    rw [Digraph.levelsFrom]
    simp only [hSome, List.map_eq_nil_iff, hFound, dite_false, List.map_cons, ih _ hRest]

/-- **A search from a renumbered node** comes to the same levels. -/
theorem levels (hR : Renumbers σ g h) (s : Fin n) :
    h.levels (σ s) = (g.levels s).map (List.map σ) := by
  refine hR.levelsFrom _ [s] _ ?_
  intro v
  rw [Bool.eq_iff_iff, List.contains_iff_mem, List.contains_iff_mem, mem_without, mem_without]
  simp

theorem reach (hR : Renumbers σ g h) (s : Fin n) : h.reach (σ s) = (g.reach s).map σ := by
  rw [Digraph.reach, Digraph.reach, hR.levels, List.map_flatten]

/-- A graph is a part of what it becomes with new numbers. -/
theorem embeds (hR : Renumbers σ g h) : Embeds σ g h :=
  ⟨σ.injective, hR.next, hR.prev⟩

theorem acyclic (hR : Renumbers σ g h) (hAcyclic : g.Acyclic) : h.Acyclic := by
  intro u v huv hvu
  obtain ⟨u, rfl⟩ := σ.surjective u
  obtain ⟨v, rfl⟩ := σ.surjective v
  rw [hR.embeds.reaches] at huv hvu
  rw [hAcyclic u v huv hvu]

/-! ## Depths -/

theorem layered (hR : Renumbers σ g h) {depth : Fin m → Nat} (hLayered : h.Layered depth) :
    g.Layered fun v => depth (σ v) where
  attained v := by
    rcases hLayered.attained (σ v) with hZero | ⟨w, hw, hEq⟩
    · exact Or.inl hZero
    · rw [hR.prev, List.mem_map] at hw
      obtain ⟨u, hu, rfl⟩ := hw
      exact Or.inr ⟨u, hu, hEq⟩
  grows v u hu := by
    refine hLayered.grows (σ v) (σ u) ?_
    rw [hR.prev]
    exact List.mem_map_of_mem hu

/-- **Depths of renumbered graphs without cycles agree**, although the searches start from other
nodes. -/
theorem depths (hR : Renumbers σ g h) (hAcyclic : g.Acyclic) (hLoop : ∀ v, v ∉ g.prev v)
    (v : Fin n) : h.depths.get (σ v) = g.depths.get v := by
  have hLoop' : ∀ w, w ∉ h.prev w := by
    intro w hw
    obtain ⟨v, rfl⟩ := σ.surjective w
    rw [hR.prev, List.mem_map_of_injective σ.injective] at hw
    exact hLoop v hw
  -- the depths of `h`, read at the new numbers, are layers of `g`, and there is one way of these
  have hUnique := (hR.layered (layered_depths (hR.acyclic hAcyclic) hLoop')).unique
    (layered_depths hAcyclic hLoop)
  exact congrFun hUnique v

end Renumbers

end Digraph

/-! ## Other orders of the same ids -/

namespace DependencyGraph

variable {g h : DependencyGraph}

/-- From the place of an id in one graph to its place in another with the same ids. -/
def places (hIds : ∀ id, id ∈ g.ids ↔ id ∈ h.ids) : Fin g.size ≃ Fin h.size where
  toFun v := h.node (g.id v) ((hIds _).mp (id_mem_ids v))
  invFun w := g.node (h.id w) ((hIds _).mpr (id_mem_ids w))
  left_inv v := by simp
  right_inv w := by simp

@[simp] theorem id_places (hIds : ∀ id, id ∈ g.ids ↔ id ∈ h.ids) (v : Fin g.size) :
    h.id (places hIds v) = g.id v :=
  id_node _ ((hIds _).mp (id_mem_ids v))

/-- Graphs with the same ids and links are parts of one another. -/
theorem isPart_of_links_eq (hIds : ∀ id, id ∈ g.ids ↔ id ∈ h.ids) (hLinks : g.links = h.links) :
    g.IsPart h where
  ids id := (hIds id).mp
  outOf _ _ _ := by rw [hLinks]
  into _ _ _ := by rw [hLinks]

theorem renumbers_places (hIds : ∀ id, id ∈ g.ids ↔ id ∈ h.ids) (hLinks : g.links = h.links) :
    Digraph.Renumbers (places hIds) g.digraph h.digraph where
  next := (isPart_of_links_eq hIds hLinks).embeds.next
  prev := (isPart_of_links_eq hIds hLinks).embeds.prev

theorem notMem_prev (v : Fin g.size) : v ∉ g.digraph.prev v := by
  rw [← Digraph.mem_next_iff_mem_prev, mem_next_digraph]
  intro hLink
  exact g.proper _ hLink rfl

theorem notMem_next (v : Fin g.size) : v ∉ g.digraph.next v := by
  rw [Digraph.mem_next_iff_mem_prev]
  exact notMem_prev v

/-- **Graphs with the same ids and links report the same cycles.** -/
theorem cycles_eq (hIds : ∀ id, id ∈ g.ids ↔ id ∈ h.ids) (hLinks : g.links = h.links) :
    g.cycles = h.cycles := by
  have hPerm : g.cycles.Perm h.cycles := by
    rw [List.perm_ext_iff_of_nodup nodup_cycles nodup_cycles]
    intro ids
    constructor
    · exact fun hCycle => (isPart_of_links_eq hIds hLinks).cycles_subset hCycle
    · exact fun hCycle =>
        (isPart_of_links_eq (fun id => (hIds id).symm) hLinks.symm).cycles_subset hCycle
  exact hPerm.eq_of_pairwise' sorted_cycles sorted_cycles

end DependencyGraph

end Taskboard
