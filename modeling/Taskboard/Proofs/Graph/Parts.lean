import Mathlib
import Taskboard.Proofs.Graph.Embedding

/-!
# Taskboard — unrelated boards in one graph

Two boards are unrelated if they share no id and neither mentions an id of the other. The graph of
both together then consists of their graphs. Places of the second board move up by the number of
ids of the first, and the links of both are arranged into one list; but each id keeps its own links
in their order, so each graph is a part of the whole.

* `DependencyGraph.IsPart` — a graph that no link of a larger one leaves or enters;
* `DependencyGraph.IsPart.embeds` — its places are a part of the larger graph on places;
* `DependencyGraph.ConsistsOf.cycles_eq` — the cycles of a graph of two parts;
* `Board.Unrelated`, `DependencyGraph.consistsOf_append` — unrelated boards have such a graph.
-/

namespace Taskboard

namespace DependencyGraph

variable {f g h : DependencyGraph}

/-! ## Parts -/

/-- The ids of `g` are on `h`, and the links of `h` from and to them are those of `g`. -/
structure IsPart (g h : DependencyGraph) : Prop where
  ids   : ∀ id ∈ g.ids, id ∈ h.ids
  outOf : ∀ a ∈ g.ids, ∀ b, ⟨a, b⟩ ∈ h.links ↔ ⟨a, b⟩ ∈ g.links
  into  : ∀ b ∈ g.ids, ∀ a, ⟨a, b⟩ ∈ h.links ↔ ⟨a, b⟩ ∈ g.links

namespace IsPart

/-- The place of an id in the whole graph. -/
def place (hPart : g.IsPart h) (v : Fin g.size) : Fin h.size :=
  h.node (g.id v) (hPart.ids _ (id_mem_ids v))

@[simp] theorem id_place (hPart : g.IsPart h) (v : Fin g.size) : h.id (hPart.place v) = g.id v :=
  id_node _ (hPart.ids _ (id_mem_ids v))

theorem id_comp_place (hPart : g.IsPart h) : h.id ∘ hPart.place = g.id :=
  funext hPart.id_place

theorem place_injective (hPart : g.IsPart h) : Function.Injective hPart.place := by
  intro u v hEq
  refine id_injective g ?_
  rw [← hPart.id_place u, hEq, hPart.id_place]

theorem successors_eq (hPart : g.IsPart h) {a : String} (ha : a ∈ g.ids) :
    h.successors a = g.successors a := by
  refine (sorted_successors a).eq_of_mem_iff (sorted_successors a) ?_
  intro b
  rw [mem_successors, mem_successors, hPart.outOf a ha]

theorem predecessors_eq (hPart : g.IsPart h) {b : String} (hb : b ∈ g.ids) :
    h.predecessors b = g.predecessors b := by
  refine (sorted_predecessors b).eq_of_mem_iff (sorted_predecessors b) ?_
  intro a
  rw [mem_predecessors, mem_predecessors, hPart.into b hb]

/-- **The places of a part** are a part of the whole graph on places. -/
theorem embeds (hPart : g.IsPart h) : Digraph.Embeds hPart.place g.digraph h.digraph where
  injective := hPart.place_injective
  next u := by
    -- by ids both lists are the successors of one id
    refine (List.map_injective_iff.mpr (id_injective h)) ?_
    rw [map_id_next, id_place, List.map_map, id_comp_place, map_id_next,
      hPart.successors_eq (id_mem_ids u)]
  prev v := by
    refine (List.map_injective_iff.mpr (id_injective h)) ?_
    rw [map_id_prev, id_place, List.map_map, id_comp_place, map_id_prev,
      hPart.predecessors_eq (id_mem_ids v)]

theorem groupOf_place (hPart : g.IsPart h) (v : Fin g.size) :
    h.groupOf (hPart.place v) = g.groupOf v := by
  -- the places come in another order, but their ids are sorted
  rw [groupOf, groupOf, sortIds_eq_iff]
  refine ((hPart.embeds.perm_componentOf v).map h.id).trans ?_
  rw [List.map_map, id_comp_place]

theorem length_componentOf (hPart : g.IsPart h) (v : Fin g.size) :
    (h.digraph.componentOf (hPart.place v)).length = (g.digraph.componentOf v).length := by
  rw [(hPart.embeds.perm_componentOf v).length_eq, List.length_map]

/-- The cycles of a part are cycles of the whole. -/
theorem cycles_subset (hPart : g.IsPart h) : g.cycles ⊆ h.cycles := by
  intro ids hCycle
  obtain ⟨v, hLen, rfl⟩ := mem_cycles.mp hCycle
  refine mem_cycles.mpr ⟨hPart.place v, ?_, hPart.groupOf_place v⟩
  rwa [hPart.length_componentOf]

end IsPart

/-- A graph is a part of another that has its links, and no further ones but between other ids. -/
theorem isPart_of_links (hIds : ∀ id ∈ g.ids, id ∈ h.ids) (hApart : ∀ id ∈ g.ids, id ∉ f.ids)
    (hLinks : ∀ a b, ⟨a, b⟩ ∈ h.links ↔ ⟨a, b⟩ ∈ g.links ∨ ⟨a, b⟩ ∈ f.links) : g.IsPart h where
  ids := hIds
  outOf a ha b := by
    rw [hLinks, or_iff_left]
    intro hOther
    exact hApart a ha (f.known _ hOther).1
  into b hb a := by
    rw [hLinks, or_iff_left]
    intro hOther
    exact hApart b hb (f.known _ hOther).2

/-! ## Two parts -/

/-- `h` has the ids of `g` and then those of `f`, and both are parts of it. -/
structure ConsistsOf (h g f : DependencyGraph) : Prop where
  left  : g.IsPart h
  right : f.IsPart h
  ids   : h.ids = g.ids ++ f.ids

namespace ConsistsOf

theorem joins (hBoth : h.ConsistsOf g f) :
    Digraph.Joins hBoth.left.place hBoth.right.place g.digraph f.digraph h.digraph where
  left := hBoth.left.embeds
  right := hBoth.right.embeds
  nodes := by
    refine (List.map_injective_iff.mpr (id_injective h)) ?_
    rw [map_id_finRange, List.map_append, List.map_map, List.map_map, IsPart.id_comp_place,
      IsPart.id_comp_place, map_id_finRange, map_id_finRange, hBoth.ids]

theorem mem_cycles_iff (hBoth : h.ConsistsOf g f) {ids : List String} :
    ids ∈ h.cycles ↔ ids ∈ g.cycles ∨ ids ∈ f.cycles := by
  constructor
  · intro hCycle
    obtain ⟨w, hLen, rfl⟩ := mem_cycles.mp hCycle
    -- a group lies in the part of any of its members
    rcases hBoth.joins.exists_place w with ⟨v, rfl⟩ | ⟨v, rfl⟩
    · rw [hBoth.left.length_componentOf] at hLen
      exact Or.inl (mem_cycles.mpr ⟨v, hLen, (hBoth.left.groupOf_place v).symm⟩)
    · rw [hBoth.right.length_componentOf] at hLen
      exact Or.inr (mem_cycles.mpr ⟨v, hLen, (hBoth.right.groupOf_place v).symm⟩)
  · rintro (hCycle | hCycle)
    · exact hBoth.left.cycles_subset hCycle
    · exact hBoth.right.cycles_subset hCycle

/-- No id is on both parts. -/
theorem apart (hBoth : h.ConsistsOf g f) {id : String} (hId : id ∈ g.ids) : id ∉ f.ids := by
  have hNodup := h.distinct
  rw [hBoth.ids, List.nodup_append] at hNodup
  exact fun hOther => hNodup.2.2 id hId id hOther rfl

/-- No cycle is on both parts. -/
theorem cycles_apart (hBoth : h.ConsistsOf g f) {ids : List String} (hCycle : ids ∈ g.cycles) :
    ids ∉ f.cycles := by
  intro hOther
  obtain ⟨v, hLen, rfl⟩ := mem_cycles.mp hCycle
  obtain ⟨w, -, hEq⟩ := mem_cycles.mp hOther
  -- a cycle has a member, and its id would be on both
  obtain ⟨id, hId⟩ := List.exists_mem_of_length_pos (Nat.zero_lt_of_lt (length_groupOf v ▸ hLen))
  exact hBoth.apart (mem_ids_of_mem_groupOf hId) (mem_ids_of_mem_groupOf (hEq ▸ hId))

/-- **The cycles of a graph of two parts** are those of the parts, in one ascending list. -/
theorem cycles_eq (hBoth : h.ConsistsOf g f) :
    h.cycles = g.cycles.merge f.cycles fun a b => decide (a ≤ b) := by
  -- neither list repeats a cycle, so it suffices to compare members
  have hNodup : (g.cycles ++ f.cycles).Nodup := by
    rw [List.nodup_append]
    refine ⟨nodup_cycles, nodup_cycles, ?_⟩
    rintro ids hLeft _ hRight rfl
    exact hBoth.cycles_apart hLeft hRight
  have hPerm : h.cycles.Perm (g.cycles.merge f.cycles fun a b => decide (a ≤ b)) := by
    refine List.Perm.trans ?_ (List.merge_perm_append _).symm
    rw [List.perm_ext_iff_of_nodup nodup_cycles hNodup]
    intro ids
    rw [hBoth.mem_cycles_iff, List.mem_append]
  exact hPerm.eq_of_pairwise' sorted_cycles (sorted_cycles.merge sorted_cycles)

end ConsistsOf

end DependencyGraph

/-! ## Unrelated boards -/

/-- The ids that the links of an item mention. -/
def WorkItem.mentions (item : WorkItem) : List String :=
  item.blockers ++ item.blockedItems

/-- Boards that share no id, and of which neither mentions an id of the other in a link. Ids may
be repeated on each of them, and links may mention ids that are on neither. -/
structure Board.Unrelated (xs ys : Board) : Prop where
  ids   : ∀ id ∈ xs.map WorkItem.id, id ∉ ys.map WorkItem.id
  left  : ∀ item ∈ xs, ∀ id ∈ item.mentions, id ∉ ys.map WorkItem.id
  right : ∀ item ∈ ys, ∀ id ∈ item.mentions, id ∉ xs.map WorkItem.id

variable {xs ys : Board}

theorem Board.Unrelated.symm (hU : xs.Unrelated ys) : ys.Unrelated xs :=
  ⟨fun id hy hx => hU.ids id hx hy, hU.right, hU.left⟩

theorem Board.records_append {a b : String} :
    Board.Records (xs ++ ys) a b ↔ Board.Records xs a b ∨ Board.Records ys a b := by
  rw [← mem_flatMap_links, ← mem_flatMap_links, ← mem_flatMap_links, List.flatMap_append,
    List.mem_append]

/-- What a board records is not about ids of the other board. -/
theorem Board.Unrelated.notMem_of_records (hU : xs.Unrelated ys) {a b : String}
    (hRecords : Board.Records xs a b) :
    a ∉ ys.map WorkItem.id ∧ b ∉ ys.map WorkItem.id := by
  rcases hRecords with ⟨item, hItem, rfl, hMention⟩ | ⟨item, hItem, rfl, hMention⟩
  · exact ⟨hU.left item hItem a (List.mem_append_left _ hMention),
      hU.ids _ (List.mem_map_of_mem hItem)⟩
  · exact ⟨hU.ids _ (List.mem_map_of_mem hItem),
      hU.left item hItem b (List.mem_append_right _ hMention)⟩

namespace DependencyGraph

theorem ids_append (hU : xs.Unrelated ys) :
    (ofBoard (xs ++ ys)).ids = (ofBoard xs).ids ++ (ofBoard ys).ids := by
  show ((xs ++ ys).map WorkItem.id).eraseDups = _
  -- the ids of the second board are new, so none of them is erased for the first
  have hKeep : (ys.map WorkItem.id).removeAll (xs.map WorkItem.id) = ys.map WorkItem.id := by
    rw [List.removeAll, List.filter_eq_self]
    intro id hId
    simpa using fun hx => hU.ids id hx hId
  rw [List.map_append, List.eraseDups_append, hKeep]
  rfl

/-- Each link of two unrelated boards is a link of one of them. -/
theorem mem_links_append (hU : xs.Unrelated ys) {a b : String} :
    ⟨a, b⟩ ∈ (ofBoard (xs ++ ys)).links ↔
      ⟨a, b⟩ ∈ (ofBoard xs).links ∨ ⟨a, b⟩ ∈ (ofBoard ys).links := by
  simp only [mem_links_ofBoard, Board.records_append, ids_append hU, List.mem_append,
    mem_ids_ofBoard]
  constructor
  · -- what one board records is not between ids of the other
    rintro ⟨hLeft | hRight, ha, hb, hNe⟩
    · obtain ⟨ha', hb'⟩ := hU.notMem_of_records hLeft
      exact Or.inl ⟨hLeft, ha.resolve_right ha', hb.resolve_right hb', hNe⟩
    · obtain ⟨ha', hb'⟩ := hU.symm.notMem_of_records hRight
      exact Or.inr ⟨hRight, ha.resolve_left ha', hb.resolve_left hb', hNe⟩
  · rintro (⟨hLeft, ha, hb, hNe⟩ | ⟨hRight, ha, hb, hNe⟩)
    · exact ⟨Or.inl hLeft, Or.inl ha, Or.inl hb, hNe⟩
    · exact ⟨Or.inr hRight, Or.inr ha, Or.inr hb, hNe⟩

/-- **The graph of two unrelated boards** consists of their graphs. -/
theorem consistsOf_append (hU : xs.Unrelated ys) :
    (ofBoard (xs ++ ys)).ConsistsOf (ofBoard xs) (ofBoard ys) := by
  have hIds := ids_append hU
  have hApart : ∀ id ∈ (ofBoard xs).ids, id ∉ (ofBoard ys).ids := by
    intro id hId hOther
    rw [mem_ids_ofBoard] at hId hOther
    exact hU.ids id hId hOther
  refine ⟨?_, ?_, hIds⟩
  · refine isPart_of_links ?_ hApart fun a b => mem_links_append hU
    intro id hId
    rw [hIds]
    exact List.mem_append_left _ hId
  · refine isPart_of_links ?_ (fun id hId hOther => hApart id hOther hId) fun a b => ?_
    · intro id hId
      rw [hIds]
      exact List.mem_append_right _ hId
    · rw [mem_links_append hU, or_comm]

end DependencyGraph

end Taskboard
