import Mathlib
import Taskboard.Centrality.Provider

/-!
# Taskboard — the graph of a board is its validated relation

Links come from two lists on every item. They may name unknown ids, the item itself, or the same
link again, and an endpoint may stand later on the board than the link. What the graph keeps of
them is a relation: one id blocks another if some item records it on either side, both ids are on
the board, and they differ.

The graph lists that relation twice, by ids (`links`) and by places (`digraph`). The second is the
first under the numbering of the ids, neighbours included, only that neighbours come newest first.

* `Board.Records` — what the items of a board record, on either side;
* `DependencyGraph.map_id_next`, `map_id_prev` — neighbours by places are neighbours by ids;
* `DependencyGraph.Represents` — a graph that is the validated relation of a board;
* `DependencyGraph.ofBoard_is_validated_relation` — the graph of a board is, and its degrees count
  the links.
-/

namespace Taskboard

/-! ## Links in order -/

instance (a b : Link) : Decidable (a.Before b) :=
  inferInstanceAs (Decidable (_ ∨ _))

/-- No two links precede one another. -/
theorem Link.before_asymm {a b : Link} (hab : a.Before b) : ¬ b.Before a := by
  rintro (hba | ⟨hEq, hba⟩)
  · rcases hab with hab | ⟨hEq, -⟩
    · exact String.lt_irrefl _ (String.lt_trans hab hba)
    · exact String.lt_irrefl _ (hEq ▸ hba)
  · rcases hab with hab | ⟨-, hab⟩
    · exact String.lt_irrefl _ (hEq ▸ hab)
    · exact String.lt_irrefl _ (String.lt_trans hab hba)

instance : Std.Irrefl Link.Before :=
  ⟨fun _ h => Link.before_asymm h h⟩

instance : Std.Antisymm Link.Before :=
  ⟨fun _ _ hab hba => absurd hba (Link.before_asymm hab)⟩

namespace DependencyGraph

/-- Arranging forgets how often and in which order links are given. -/
theorem arrange_congr {ls ms : List Link} (h : ∀ l, l ∈ ls ↔ l ∈ ms) : arrange ls = arrange ms := by
  -- both are the one ascending list with these members
  refine (arrange_ascending ls).eq_of_mem_iff (arrange_ascending ms) ?_
  intro l
  rw [mem_arrange, mem_arrange, h]

end DependencyGraph

/-! ## What a board records -/

/-- Some item records that `a` blocks `b`: an item `b` among its blockers, or an item `a` among
those that it blocks. -/
def Board.Records (board : Board) (a b : String) : Prop :=
  (∃ item ∈ board, item.id = b ∧ a ∈ item.blockers) ∨
    ∃ item ∈ board, item.id = a ∧ b ∈ item.blockedItems

/-- What a board records does not depend on its order. -/
theorem Board.records_perm {xs ys : Board} (hPerm : xs.Perm ys) {a b : String} :
    Board.Records xs a b ↔ Board.Records ys a b := by
  simp only [Board.Records, hPerm.mem_iff]

theorem WorkItem.mem_links {item : WorkItem} {a b : String} :
    ⟨a, b⟩ ∈ item.links ↔
      (item.id = b ∧ a ∈ item.blockers) ∨ (item.id = a ∧ b ∈ item.blockedItems) := by
  simp only [links, List.mem_append, List.mem_map, Link.mk.injEq]
  constructor
  · rintro (⟨id, hId, rfl, rfl⟩ | ⟨id, hId, rfl, rfl⟩)
    · exact Or.inl ⟨rfl, hId⟩
    · exact Or.inr ⟨rfl, hId⟩
  · rintro (⟨rfl, hMem⟩ | ⟨rfl, hMem⟩)
    · exact Or.inl ⟨a, hMem, rfl, rfl⟩
    · exact Or.inr ⟨b, hMem, rfl, rfl⟩

theorem mem_flatMap_links {board : Board} {a b : String} :
    ⟨a, b⟩ ∈ board.flatMap WorkItem.links ↔ Board.Records board a b := by
  rw [List.mem_flatMap, Board.Records, ← exists_or]
  refine exists_congr fun item => ?_
  rw [WorkItem.mem_links, ← and_or_left]

namespace DependencyGraph

/-! ## Ids of a board -/

theorem mem_ids_ofBoard {board : Board} {id : String} :
    id ∈ (ofBoard board).ids ↔ id ∈ board.map WorkItem.id :=
  List.mem_eraseDups

theorem mem_links_ofBoard {board : Board} {a b : String} :
    ⟨a, b⟩ ∈ (ofBoard board).links ↔
      Board.Records board a b ∧ a ∈ (ofBoard board).ids ∧ b ∈ (ofBoard board).ids ∧ a ≠ b := by
  show ⟨a, b⟩ ∈ arrange ((board.flatMap WorkItem.links).filter (admits (ofBoard board).ids)) ↔ _
  rw [mem_arrange, List.mem_filter, mem_flatMap_links, admits, Bool.and_eq_true, Bool.and_eq_true,
    List.contains_iff_mem, List.contains_iff_mem, bne_iff_ne, and_assoc]

/-- Erasing duplicates leaves the members in the order of their first occurrences. -/
theorem pairwise_idxOf_eraseDups (l : List String) :
    l.eraseDups.Pairwise fun a b => l.idxOf a < l.idxOf b := by
  induction l using List.reverseRecOn with
  | nil => simp
  | append_singleton l x ih =>
    -- what has occurred already keeps its place
    have hEarlier : l.eraseDups.Pairwise fun a b => (l ++ [x]).idxOf a < (l ++ [x]).idxOf b := by
      refine ih.imp_of_mem ?_
      intro a b ha hb hLt
      rw [List.mem_eraseDups] at ha hb
      rwa [List.idxOf_append_of_mem ha, List.idxOf_append_of_mem hb]
    rw [List.eraseDups_append]
    -- a new member is the last one, an old one is erased
    by_cases hx : x ∈ l
    · have hNone : [x].removeAll l = [] := by simp [List.removeAll, hx]
      rw [hNone, List.eraseDups_nil, List.append_nil]
      exact hEarlier
    · have hOne : [x].removeAll l = [x] := by simp [List.removeAll, hx]
      rw [hOne, List.eraseDups_cons, List.filter_nil, List.eraseDups_nil, List.pairwise_append]
      refine ⟨hEarlier, List.pairwise_singleton _ _, ?_⟩
      intro a ha b hb
      rw [List.mem_singleton] at hb
      rw [List.mem_eraseDups] at ha
      rw [hb, List.idxOf_append_of_mem ha, List.idxOf_append_of_notMem hx]
      have hPlace := List.idxOf_lt_length_of_mem ha
      omega

/-- Erasing duplicates leaves a part of the list. -/
theorem eraseDups_sublist : ∀ (k : Nat) (l : List String), l.length ≤ k → l.eraseDups.Sublist l
  | _, [], _ => by simp
  | k + 1, a :: l, h => by
    have hShort : (l.filter fun b => !b == a).length ≤ k :=
      Nat.le_trans (List.length_filter_le _ _) (Nat.le_of_succ_le_succ h)
    rw [List.eraseDups_cons]
    exact ((eraseDups_sublist k _ hShort).trans List.filter_sublist).cons_cons a

/-- Where there are no duplicates none are erased. -/
theorem eraseDups_of_nodup {l : List String} (hNodup : l.Nodup) : l.eraseDups = l := by
  induction l with
  | nil => rfl
  | cons a l ih =>
    rw [List.nodup_cons] at hNodup
    have hKeep : (l.filter fun b => !b == a) = l := by
      rw [List.filter_eq_self]
      intro b hb
      have hNe : b ≠ a := fun h => hNodup.1 (h ▸ hb)
      simpa using hNe
    rw [List.eraseDups_cons, hKeep, ih hNodup.2]

/-! ## Places -/

variable {g : DependencyGraph}

@[simp] theorem id_node (id : String) (h : id ∈ g.ids) : g.id (g.node id h) = id :=
  List.idxOf_get (List.idxOf_lt_length_of_mem h)

theorem id_mem_ids (v : Fin g.size) : g.id v ∈ g.ids :=
  List.get_mem _ _

@[simp] theorem node_id (v : Fin g.size) : g.node (g.id v) (id_mem_ids v) = v :=
  Fin.ext (List.get_idxOf g.distinct v)

theorem id_injective (g : DependencyGraph) : Function.Injective g.id := by
  intro u v h
  rw [← node_id u, ← node_id v]
  simp only [h]

theorem map_id_finRange (g : DependencyGraph) : (List.finRange g.size).map g.id = g.ids :=
  List.map_get_finRange g.ids

theorem map_edges : g.edges.map (fun e => Link.mk (g.id e.1) (g.id e.2)) = g.links := by
  rw [edges, List.map_map]
  calc g.links.attach.map _ = g.links.attach.map Subtype.val := by
        refine List.map_congr_left fun l _ => ?_
        simp
    _ = g.links := List.attach_map_subtype_val g.links

/-! ## Neighbours -/

/-- The neighbours behind a place are the successors of its id, the newest first. -/
theorem map_id_next (u : Fin g.size) :
    (g.digraph.next u).map g.id = (g.successors (g.id u)).reverse := by
  have hNext : g.digraph.next u = ((g.edges.filter fun e => e.1 = u).map Prod.snd).reverse := by
    simp [Digraph.next, digraph, Digraph.ofEdges]
  rw [hNext, successors, List.map_reverse, ← map_edges, List.filter_map, List.map_map, List.map_map]
  congr 1
  -- an edge starts at a place exactly if its link starts at the id there
  have hKeep : ∀ e ∈ g.edges, decide (e.1 = u) =
      ((fun l : Link => l.blocker == g.id u) ∘ fun e => Link.mk (g.id e.1) (g.id e.2)) e := by
    intro e _
    rw [Bool.eq_iff_iff]
    simp [(id_injective g).eq_iff]
  rw [List.filter_congr hKeep]
  rfl

/-- The neighbours in front of a place are the predecessors of its id, the newest first. -/
theorem map_id_prev (v : Fin g.size) :
    (g.digraph.prev v).map g.id = (g.predecessors (g.id v)).reverse := by
  have hPrev : g.digraph.prev v = ((g.edges.filter fun e => e.2 = v).map Prod.fst).reverse := by
    simp [Digraph.prev, digraph, Digraph.ofEdges]
  rw [hPrev, predecessors, List.map_reverse, ← map_edges, List.filter_map, List.map_map,
    List.map_map]
  congr 1
  have hKeep : ∀ e ∈ g.edges, decide (e.2 = v) =
      ((fun l : Link => l.blocked == g.id v) ∘ fun e => Link.mk (g.id e.1) (g.id e.2)) e := by
    intro e _
    rw [Bool.eq_iff_iff]
    simp [(id_injective g).eq_iff]
  rw [List.filter_congr hKeep]
  rfl

theorem mem_successors {a b : String} : b ∈ g.successors a ↔ ⟨a, b⟩ ∈ g.links := by
  simp only [successors, List.mem_map, List.mem_filter, beq_iff_eq]
  constructor
  · rintro ⟨⟨_, _⟩, ⟨hMem, rfl⟩, rfl⟩
    exact hMem
  · intro hMem
    exact ⟨⟨a, b⟩, ⟨hMem, rfl⟩, rfl⟩

theorem mem_predecessors {a b : String} : a ∈ g.predecessors b ↔ ⟨a, b⟩ ∈ g.links := by
  simp only [predecessors, List.mem_map, List.mem_filter, beq_iff_eq]
  constructor
  · rintro ⟨⟨_, _⟩, ⟨hMem, rfl⟩, rfl⟩
    exact hMem
  · intro hMem
    exact ⟨⟨a, b⟩, ⟨hMem, rfl⟩, rfl⟩

theorem mem_next_digraph {u v : Fin g.size} :
    v ∈ g.digraph.next u ↔ ⟨g.id u, g.id v⟩ ∈ g.links := by
  have hMapped : g.id v ∈ (g.digraph.next u).map g.id ↔ v ∈ g.digraph.next u :=
    List.mem_map_of_injective (id_injective g)
  rw [← hMapped, map_id_next, List.mem_reverse, mem_successors]

/-- Links from one id ascend by what they lead to. -/
theorem sorted_successors (a : String) : (g.successors a).Pairwise (· < ·) := by
  rw [successors, List.pairwise_map]
  refine (g.ascending.filter _).imp_of_mem ?_
  intro l m hl hm hBefore
  simp only [List.mem_filter, beq_iff_eq] at hl hm
  rcases hBefore with hLt | ⟨-, hLt⟩
  · rw [hl.2, hm.2] at hLt
    exact absurd hLt (String.lt_irrefl a)
  · exact hLt

/-- Links to one id ascend by where they come from. -/
theorem sorted_predecessors (b : String) : (g.predecessors b).Pairwise (· < ·) := by
  rw [predecessors, List.pairwise_map]
  refine (g.ascending.filter _).imp_of_mem ?_
  intro l m hl hm hBefore
  simp only [List.mem_filter, beq_iff_eq] at hl hm
  rcases hBefore with hLt | ⟨-, hLt⟩
  · exact hLt
  · rw [hl.2, hm.2] at hLt
    exact absurd hLt (String.lt_irrefl b)

/-! ## Degrees -/

theorem length_prev (v : Fin g.size) :
    (g.digraph.prev v).length = (g.predecessors (g.id v)).length := by
  rw [← List.length_map g.id, map_id_prev, List.length_reverse]

theorem length_next (u : Fin g.size) :
    (g.digraph.next u).length = (g.successors (g.id u)).length := by
  rw [← List.length_map g.id, map_id_next, List.length_reverse]

/-- A table with a value for each place, by ids. -/
theorem byId_ofFn {α : Type} (f : Fin g.size → α) :
    g.byId (Vector.ofFn f) = (List.finRange g.size).map fun v => (g.id v, f v) := by
  rw [byId, Vector.toList_ofFn, List.ofFn_eq_map, ← map_id_finRange, List.zip_map']

theorem byId_ofFn_id {α : Type} (f : String → α) :
    g.byId (Vector.ofFn fun v => f (g.id v)) = g.ids.map fun id => (id, f id) := by
  rw [byId_ofFn, ← map_id_finRange, List.map_map]
  rfl

theorem inward_degrees :
    g.degrees.inward = g.ids.map fun id => (id, (g.predecessors id).length) := by
  rw [← byId_ofFn_id]
  simp only [degrees, length_prev]

theorem outward_degrees :
    g.degrees.outward = g.ids.map fun id => (id, (g.successors id).length) := by
  rw [← byId_ofFn_id]
  simp only [degrees, length_next]

/-- Members sorted into classes, one class a node, are as many as before. -/
theorem sum_length_filter {α : Type} {n : Nat} (f : α → Fin n) (xs : List α) :
    ((List.finRange n).map fun v => (xs.filter fun x => f x = v).length).sum = xs.length := by
  induction xs with
  | nil => simp
  | cons x xs ih =>
    have hStep : ∀ v, ((x :: xs).filter fun x => f x = v).length =
        (if f x = v then 1 else 0) + (xs.filter fun x => f x = v).length := by
      intro v
      by_cases hv : f x = v
      · simp [hv, Nat.add_comm]
      · simp [hv]
    simp only [hStep, List.sum_map_add, ih, List.length_cons]
    have hOne : ((List.finRange n).map fun v => if f x = v then 1 else 0).sum = 1 := by
      rw [← List.ofFn_eq_map, List.sum_ofFn]
      simp
    omega

theorem sum_length_next : ((List.finRange g.size).map fun u => (g.digraph.next u).length).sum =
    g.links.length := by
  rw [← map_edges, List.length_map, ← sum_length_filter Prod.fst g.edges]
  simp [Digraph.next, digraph, Digraph.ofEdges]

theorem sum_length_prev : ((List.finRange g.size).map fun v => (g.digraph.prev v).length).sum =
    g.links.length := by
  rw [← map_edges, List.length_map, ← sum_length_filter Prod.snd g.edges]
  simp [Digraph.prev, digraph, Digraph.ofEdges]

theorem edgeCount_digraph : g.digraph.edgeCount = g.links.length := by
  rw [Digraph.edgeCount, List.length_flatMap, sum_length_next]

theorem sum_outward_degrees : (g.degrees.outward.map Prod.snd).sum = g.links.length := by
  show ((g.byId (Vector.ofFn fun u => (g.digraph.next u).length)).map Prod.snd).sum = _
  rw [← sum_length_next, byId_ofFn, List.map_map]
  rfl

theorem sum_inward_degrees : (g.degrees.inward.map Prod.snd).sum = g.links.length := by
  show ((g.byId (Vector.ofFn fun v => (g.digraph.prev v).length)).map Prod.snd).sum = _
  rw [← sum_length_prev, byId_ofFn, List.map_map]
  rfl

/-! ## The graph of a board -/

/-- A graph is its ids and its links. -/
theorem eq_of_ids_of_links {g h : DependencyGraph} (hIds : g.ids = h.ids)
    (hLinks : g.links = h.links) : g = h := by
  cases g
  cases h
  cases hIds
  cases hLinks
  rfl

/-- Graphs with the same links list them in the same order. -/
theorem links_eq_iff {g h : DependencyGraph} :
    g.links = h.links ↔ ∀ a b, ⟨a, b⟩ ∈ g.links ↔ ⟨a, b⟩ ∈ h.links := by
  constructor
  · intro hLinks a b
    rw [hLinks]
  · intro hMem
    refine g.ascending.eq_of_mem_iff h.ascending ?_
    rintro ⟨a, b⟩
    exact hMem a b

/-- How a link is recorded leaves no trace: boards with the same ids that record the same links
between them have one graph. -/
theorem ofBoard_eq_of_records {xs ys : Board} (hIds : (ofBoard xs).ids = (ofBoard ys).ids)
    (hRecords : ∀ a ∈ (ofBoard ys).ids, ∀ b ∈ (ofBoard ys).ids, a ≠ b →
      (Board.Records xs a b ↔ Board.Records ys a b)) : ofBoard xs = ofBoard ys := by
  refine eq_of_ids_of_links hIds (links_eq_iff.mpr ?_)
  intro a b
  rw [mem_links_ofBoard, mem_links_ofBoard, hIds]
  refine and_congr_left ?_
  rintro ⟨ha, hb, hNe⟩
  exact hRecords a ha b hb hNe

theorem mem_ids_perm {xs ys : Board} (hPerm : xs.Perm ys) (id : String) :
    id ∈ (ofBoard xs).ids ↔ id ∈ (ofBoard ys).ids := by
  rw [mem_ids_ofBoard, mem_ids_ofBoard, (hPerm.map _).mem_iff]

/-- **The links of a board do not depend on its order.** -/
theorem links_perm {xs ys : Board} (hPerm : xs.Perm ys) :
    (ofBoard xs).links = (ofBoard ys).links := by
  rw [links_eq_iff]
  intro a b
  rw [mem_links_ofBoard, mem_links_ofBoard, Board.records_perm hPerm, mem_ids_perm hPerm,
    mem_ids_perm hPerm]

/-- A graph that is the validated relation of a board. Its nodes are the ids of the board, each
once, by their first occurrence. Its edges, each once, are what the board records between two
different ones of them. -/
structure Represents (g : DependencyGraph) (board : Board) : Prop where
  nodes        : ∀ id, id ∈ g.ids ↔ id ∈ board.map WorkItem.id
  nodesOnce    : g.ids.Nodup
  nodesInOrder : g.ids.Pairwise fun a b =>
    (board.map WorkItem.id).idxOf a < (board.map WorkItem.id).idxOf b
  edges        : ∀ u v : Fin g.size, (g.digraph.next u).count v ≤ 1 ∧
    (v ∈ g.digraph.next u ↔ g.id u ≠ g.id v ∧ Board.Records board (g.id u) (g.id v))

theorem nodup_next (u : Fin g.size) : (g.digraph.next u).Nodup := by
  have hMapped : ((g.digraph.next u).map g.id).Nodup := by
    rw [map_id_next, List.nodup_reverse]
    exact (sorted_successors (g.id u)).imp fun h => ne_of_lt h
  exact hMapped.of_map _

theorem represents (board : Board) : (ofBoard board).Represents board where
  nodes _ := mem_ids_ofBoard
  nodesOnce := (ofBoard board).distinct
  nodesInOrder := pairwise_idxOf_eraseDups _
  edges u v := by
    refine ⟨List.nodup_iff_count_le_one.mp (nodup_next u) v, ?_⟩
    rw [mem_next_digraph, mem_links_ofBoard]
    constructor
    · rintro ⟨hRecords, -, -, hNe⟩
      exact ⟨hNe, hRecords⟩
    · rintro ⟨hNe, hRecords⟩
      exact ⟨hRecords, id_mem_ids u, id_mem_ids v, hNe⟩

/--
**The dependency graph of a board is exactly its validated relation.** Ids may be repeated. There
is one node for each distinct id, in the order of first occurrence, and one edge for each link
between different ids of the board, whichever of the two records it and however often. By ids,
successors and predecessors list the same links, strictly ascending; degrees are the lengths of
these lists, and either kind adds up to the number of edges.
-/
theorem ofBoard_is_validated_relation (board : Board) :
    let g := ofBoard board
    g.Represents board ∧
    (∀ other : Board, (ofBoard other).ids = g.ids →
      (∀ a ∈ g.ids, ∀ b ∈ g.ids, a ≠ b → (Board.Records other a b ↔ Board.Records board a b)) →
      ofBoard other = g) ∧
    (∀ u v, v ∈ g.digraph.next u ↔ g.id v ∈ g.successors (g.id u)) ∧
    (∀ a b, b ∈ g.successors a ↔ a ∈ g.predecessors b) ∧
    (∀ id, (g.successors id).Pairwise (· < ·) ∧ (g.predecessors id).Pairwise (· < ·)) ∧
    g.degrees.inward = g.ids.map (fun id => (id, (g.predecessors id).length)) ∧
    g.degrees.outward = g.ids.map (fun id => (id, (g.successors id).length)) ∧
    (g.degrees.inward.map Prod.snd).sum = g.digraph.edgeCount ∧
    (g.degrees.outward.map Prod.snd).sum = g.digraph.edgeCount := by
  intro g
  refine ⟨represents board, ?_, ?_, ?_, ?_, inward_degrees, outward_degrees, ?_, ?_⟩
  · intro other hIds hRecords
    exact ofBoard_eq_of_records hIds hRecords
  · intro u v
    rw [mem_next_digraph, mem_successors]
  · intro a b
    rw [mem_successors, mem_predecessors]
  · intro id
    exact ⟨sorted_successors id, sorted_predecessors id⟩
  · rw [sum_inward_degrees, edgeCount_digraph]
  · rw [sum_outward_degrees, edgeCount_digraph]

end DependencyGraph

end Taskboard
