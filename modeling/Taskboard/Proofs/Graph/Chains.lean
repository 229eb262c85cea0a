import Mathlib
import Taskboard.Proofs.Graph.Renumbering

/-!
# Taskboard — depths are longest chains

The depth of an item is meant to be the length of the longest chain of blockers that leads to it.
Where items wait for one another there is no longest chain, and the search then leaves out some
links. Which ones it leaves out depends on the order of its steps. Here they are found again from
the depths alone: a link that does not lead to a greater depth has been left out.

Such a link closes a cycle. Along each other link depths grow, so no cycle is left; and an item is
either at depth zero or one deeper than some item in front. Both together make its depth the length
of the longest chain of the links that are left.

* `ChainTo`, `chainLengths` — chains of ids that lead to an id, and how long they are;
* `Leads`, `OnCycle` — what lies behind an id, and the ids that lie behind themselves;
* `isGreatest_chainLengths` — numbers that grow along links and start from zero are the lengths of
  the longest chains;
* `DependencyGraph.dropped` — the links that the search has left out;
* `DependencyGraph.depths_are_longest_chains` — what the depths of a board are.
-/

namespace Taskboard

/-! ## Chains of ids -/

/-- A list of ids up to `id`, each of which blocks the next one by one of some links. -/
structure ChainTo (links : Set Link) (id : String) (chain : List String) : Prop where
  ends   : chain.getLast? = some id
  linked : chain.IsChain fun a b => ⟨a, b⟩ ∈ links

/-- How many links the chains up to an id have. -/
def chainLengths (links : Set Link) (id : String) : Set Nat :=
  {k | ∃ chain, ChainTo links id chain ∧ chain.length = k + 1}

/-- Links lead from the one id to the other. No links at all lead from an id to itself. -/
def Leads (links : Set Link) : String → String → Prop :=
  Relation.ReflTransGen fun a b => ⟨a, b⟩ ∈ links

/-- Some links lead from an id back to itself. -/
def OnCycle (links : Set Link) (id : String) : Prop :=
  Relation.TransGen (fun a b => ⟨a, b⟩ ∈ links) id id

variable {links kept : Set Link} {a b id : String} {chain : List String}

/-- A longer chain ends with a link from the end of a shorter one. -/
theorem chainTo_concat_iff : ChainTo links id (chain ++ [b]) ↔
    b = id ∧ (chain = [] ∨ ∃ a, ChainTo links a chain ∧ ⟨a, id⟩ ∈ links) := by
  constructor
  · rintro ⟨hEnds, hLinked⟩
    obtain rfl : b = id := by simpa using hEnds
    refine ⟨rfl, ?_⟩
    obtain ⟨hFront, -, hLast⟩ := List.isChain_append.mp hLinked
    cases hEnd : chain.getLast? with
    | none => exact Or.inl (List.getLast?_eq_none_iff.mp hEnd)
    | some a => exact Or.inr ⟨a, ⟨hEnd, hFront⟩, hLast a hEnd b rfl⟩
  · rintro ⟨rfl, rfl | ⟨a, ⟨hEnds, hLinked⟩, hLink⟩⟩
    · exact ⟨rfl, List.isChain_singleton _⟩
    · refine ⟨by simp, List.isChain_append.mpr ⟨hLinked, List.isChain_singleton _, ?_⟩⟩
      intro x hx y hy
      obtain rfl : a = x := Option.some.inj (hEnds.symm.trans hx)
      obtain rfl : b = y := Option.some.inj hy
      exact hLink

/-- Numbers that grow along every link are no less than the lengths of chains. -/
theorem ChainTo.length_le {depth : String → Nat}
    (hGrows : ∀ l ∈ links, depth l.blocker + 1 ≤ depth l.blocked) (h : ChainTo links id chain) :
    chain.length ≤ depth id + 1 := by
  induction chain using List.reverseRecOn generalizing id with
  | nil => exact Nat.zero_le _
  | append_singleton chain b ih =>
    rw [List.length_append, List.length_singleton]
    obtain ⟨rfl, rfl | ⟨a, hFront, hLink⟩⟩ := chainTo_concat_iff.mp h
    · exact Nat.le_add_left 1 _
    · have hLength := ih hFront
      have hGrow : depth a + 1 ≤ depth b := hGrows _ hLink
      omega

/-- Numbers each of which is zero or one more than some number in front are lengths of chains. -/
theorem exists_chainTo {depth : String → Nat}
    (hAttained : ∀ id, depth id = 0 ∨ ∃ a, ⟨a, id⟩ ∈ links ∧ depth id = depth a + 1)
    (id : String) : ∃ chain, ChainTo links id chain ∧ chain.length = depth id + 1 := by
  induction hd : depth id generalizing id with
  | zero => exact ⟨[id], ⟨rfl, List.isChain_singleton _⟩, rfl⟩
  | succ d ih =>
    rcases hAttained id with hZero | ⟨a, hLink, hStep⟩
    · omega
    · -- the chain goes on from one that leads to the id in front
      obtain ⟨chain, hChain, hLength⟩ := ih a (by omega)
      refine ⟨chain ++ [id], chainTo_concat_iff.mpr ⟨rfl, Or.inr ⟨a, hChain, hLink⟩⟩, ?_⟩
      rw [List.length_append, hLength, List.length_singleton]

/-- **Numbers that grow along links and start from zero** are the lengths of the longest chains. -/
theorem isGreatest_chainLengths {depth : String → Nat}
    (hAttained : ∀ id, depth id = 0 ∨ ∃ a, ⟨a, id⟩ ∈ links ∧ depth id = depth a + 1)
    (hGrows : ∀ l ∈ links, depth l.blocker + 1 ≤ depth l.blocked) (id : String) :
    IsGreatest (chainLengths links id) (depth id) := by
  refine ⟨exists_chainTo hAttained id, ?_⟩
  rintro k ⟨chain, hChain, hLength⟩
  have hLe := hChain.length_le hGrows
  omega

/-- Links along which numbers grow close no cycle. -/
theorem not_onCycle {depth : String → Nat}
    (hGrows : ∀ l ∈ links, depth l.blocker + 1 ≤ depth l.blocked) (id : String) :
    ¬ OnCycle links id := by
  intro hCycle
  have hLess : ∀ {b}, Relation.TransGen (fun a b => ⟨a, b⟩ ∈ links) id b →
      depth id < depth b := by
    intro b hPath
    induction hPath with
    | single hLink => exact hGrows _ hLink
    | tail _ hLink ih => exact ih.trans (hGrows _ hLink)
  exact absurd (hLess hCycle) (Nat.lt_irrefl _)

/-- A chain keeps its links if those are kept whose blocker leads to its end. -/
theorem ChainTo.keep (hKept : ∀ l ∈ links, Leads links l.blocked id → l ∈ kept)
    (h : ChainTo links id chain) : ChainTo kept id chain := by
  induction chain using List.reverseRecOn generalizing id with
  | nil =>
    have hEnds := h.ends
    cases hEnds
  | append_singleton chain b ih =>
    obtain ⟨rfl, hEmpty | ⟨a, hFront, hLink⟩⟩ := chainTo_concat_iff.mp h
    · exact chainTo_concat_iff.mpr ⟨rfl, Or.inl hEmpty⟩
    · have hShorter := ih (fun l hl hLeads => hKept l hl (hLeads.tail hLink)) hFront
      exact chainTo_concat_iff.mpr
        ⟨rfl, Or.inr ⟨a, hShorter, hKept _ hLink Relation.ReflTransGen.refl⟩⟩

/-! ## Links that are left out -/

namespace DependencyGraph

variable {g : DependencyGraph}

/-- The links of a graph as a set. -/
def linkSet (g : DependencyGraph) : Set Link :=
  {l | l ∈ g.links}

/-- The depth of an id, zero for one that is not on the board. -/
def depthOf (g : DependencyGraph) (id : String) : Nat :=
  if h : id ∈ g.ids then g.digraph.depths.get (g.node id h) else 0

@[simp] theorem depthOf_id (v : Fin g.size) : g.depthOf (g.id v) = g.digraph.depths.get v := by
  rw [depthOf, dif_pos (id_mem_ids v), node_id]

/-- The links that do not lead to a greater depth. -/
def dropped (g : DependencyGraph) : Set Link :=
  {l | l ∈ g.links ∧ ¬ g.depthOf l.blocker + 1 ≤ g.depthOf l.blocked}

/-- Links lead from a place to the ids of the places that are reached. -/
theorem leads_iff {u : Fin g.size} :
    Leads g.linkSet (g.id u) id ↔ ∃ v, g.id v = id ∧ g.digraph.Reaches u v := by
  constructor
  · intro hLeads
    induction hLeads with
    | refl => exact ⟨u, rfl, Relation.ReflTransGen.refl⟩
    | tail _ hLink ih =>
      obtain ⟨w, rfl, hPath⟩ := ih
      obtain ⟨v, rfl⟩ : ∃ v, g.id v = _ := ⟨_, id_node _ (g.known _ hLink).2⟩
      exact ⟨v, rfl, hPath.tail (mem_next_digraph.mpr hLink)⟩
  · rintro ⟨v, rfl, hPath⟩
    induction hPath with
    | refl => exact Relation.ReflTransGen.refl
    | tail _ hEdge ih => exact ih.tail (mem_next_digraph.mp hEdge)

/-- A link between ids is an edge between their places. -/
theorem exists_edge_of_link {l : Link} (hl : l ∈ g.links) :
    ∃ u v, g.id u = l.blocker ∧ g.id v = l.blocked ∧ u ∈ g.digraph.prev v := by
  obtain ⟨hBlocker, hBlocked⟩ := g.known l hl
  refine ⟨g.node _ hBlocker, g.node _ hBlocked, id_node _ _, id_node _ _, ?_⟩
  rw [← Digraph.mem_next_iff_mem_prev, mem_next_digraph, id_node, id_node]
  exact hl

/-- **A link that is left out closes a cycle.** -/
theorem leads_of_mem_dropped {l : Link} (hl : l ∈ g.dropped) :
    Leads g.linkSet l.blocked l.blocker := by
  obtain ⟨hLink, hNot⟩ := hl
  obtain ⟨u, v, hu, hv, hEdge⟩ := exists_edge_of_link hLink
  rw [← hu, ← hv, depthOf_id, depthOf_id] at hNot
  rw [← hu, ← hv]
  exact leads_iff.mpr ⟨u, rfl, ((Digraph.weighs_depths v).2 u hEdge).resolve_left hNot⟩

theorem depthOf_grows :
    ∀ l ∈ g.linkSet \ g.dropped, g.depthOf l.blocker + 1 ≤ g.depthOf l.blocked := by
  rintro l ⟨hLink, hKept⟩
  by_contra hNot
  exact hKept ⟨hLink, hNot⟩

theorem depthOf_attained (id : String) :
    g.depthOf id = 0 ∨ ∃ a, ⟨a, id⟩ ∈ g.linkSet \ g.dropped ∧ g.depthOf id = g.depthOf a + 1 := by
  by_cases hId : id ∈ g.ids
  · obtain ⟨v, rfl⟩ : ∃ v, g.id v = id := ⟨g.node id hId, id_node id hId⟩
    rcases (Digraph.weighs_depths (g := g.digraph) v).1 with hZero | ⟨u, hu, hStep⟩
    · exact Or.inl (by rw [depthOf_id, hZero])
    · have hGrows : g.depthOf (g.id v) = g.depthOf (g.id u) + 1 := by
        rw [depthOf_id, depthOf_id, hStep]
      have hLink : ⟨g.id u, g.id v⟩ ∈ g.links :=
        mem_next_digraph.mp (g.digraph.mem_next_iff_mem_prev.mpr hu)
      exact Or.inr ⟨g.id u, ⟨hLink, fun hDropped => hDropped.2 hGrows.ge⟩, hGrows⟩
  · exact Or.inl (by rw [depthOf, dif_neg hId])

/-- **Without the links that are left out** a depth is the length of the longest chain. -/
theorem isGreatest_depth (v : Fin g.size) :
    IsGreatest (chainLengths (g.linkSet \ g.dropped) (g.id v)) (g.digraph.depths.get v) := by
  rw [← depthOf_id]
  exact isGreatest_chainLengths depthOf_attained depthOf_grows (g.id v)

/-- Chains that lead to an item behind no cycle have no link that is left out. -/
theorem chainLengths_kept (hFree : ∀ a, Leads g.linkSet a id → ¬ OnCycle g.linkSet a) :
    chainLengths (g.linkSet \ g.dropped) id = chainLengths g.linkSet id := by
  have hKept : ∀ l ∈ g.linkSet, Leads g.linkSet l.blocked id → l ∈ g.linkSet \ g.dropped := by
    intro l hl hLeads
    refine ⟨hl, fun hDropped => ?_⟩
    -- the blocker would be on a cycle, in front of the item
    exact hFree l.blocker (Relation.ReflTransGen.head hl hLeads)
      (Relation.TransGen.head' hl (leads_of_mem_dropped hDropped))
  ext k
  constructor
  · rintro ⟨chain, ⟨hEnds, hLinked⟩, hLength⟩
    exact ⟨chain, ⟨hEnds, hLinked.imp fun _ _ h => h.1⟩, hLength⟩
  · rintro ⟨chain, hChain, hLength⟩
    exact ⟨chain, hChain.keep hKept, hLength⟩

/-- **Behind no cycle** a depth is the length of the longest chain of all links. -/
theorem isGreatest_depth_of_free {v : Fin g.size}
    (hFree : ∀ a, Leads g.linkSet a (g.id v) → ¬ OnCycle g.linkSet a) :
    IsGreatest (chainLengths g.linkSet (g.id v)) (g.digraph.depths.get v) := by
  rw [← chainLengths_kept hFree]
  exact isGreatest_depth v

/-- A graph in which no id is on a cycle. -/
theorem acyclic_of_not_onCycle (hFree : ∀ a, ¬ OnCycle g.linkSet a) : g.digraph.Acyclic := by
  intro u v huv hvu
  by_contra hNe
  have hThere : Leads g.linkSet (g.id u) (g.id v) := leads_iff.mpr ⟨v, rfl, huv⟩
  have hBack : Leads g.linkSet (g.id v) (g.id u) := leads_iff.mpr ⟨u, rfl, hvu⟩
  -- the way there is not empty
  rcases Relation.reflTransGen_iff_eq_or_transGen.mp hThere with hEq | hSome
  · exact hNe (id_injective g hEq).symm
  · exact hFree (g.id u) (hSome.trans_left hBack)

/--
**Depths are longest chains.** On every board, with cycles or without, the search for depths ends:
with fuel for as many steps down as there are ids, or with any more, every id is done in the end.
Some links close cycles, and without them no id is on a cycle, such that the depth of each id is
the number of links on the longest chain of the others that leads to it. An id that no cycle leads
to has the length of the longest chain of all links for its depth. Without cycles that is every id,
and neither the order of the items nor that of the edges matters. No depth exceeds the number of
other ids.
-/
theorem depths_are_longest_chains (board : Board) :
    let graph := ofBoard board
    let depth := graph.digraph.depths.get
    (∀ fuel, graph.size ≤ fuel → ∀ v, (graph.digraph.searched fuel).get v = .done (depth v)) ∧
    (∃ closing ⊆ graph.linkSet,
      (∀ l ∈ closing, Leads graph.linkSet l.blocked l.blocker) ∧
      (∀ id, ¬ OnCycle (graph.linkSet \ closing) id) ∧
      ∀ v, IsGreatest (chainLengths (graph.linkSet \ closing) (graph.id v)) (depth v)) ∧
    (∀ v, (∀ a, Leads graph.linkSet a (graph.id v) → ¬ OnCycle graph.linkSet a) →
      IsGreatest (chainLengths graph.linkSet (graph.id v)) (depth v)) ∧
    ((∀ a, ¬ OnCycle graph.linkSet a) →
      (∀ v, IsGreatest (chainLengths graph.linkSet (graph.id v)) (depth v)) ∧
      (∀ (other : Board) (w : Fin (ofBoard other).size) (v : Fin graph.size),
        (ofBoard other).linkSet = graph.linkSet → (ofBoard other).id w = graph.id v →
        (ofBoard other).digraph.depths.get w = depth v) ∧
      ∀ h : Digraph graph.size, (∀ u v, v ∈ h.next u ↔ v ∈ graph.digraph.next u) →
        h.depths.get = depth) ∧
    ∀ v, depth v ≤ graph.size - 1 := by
  intro graph depth
  refine ⟨?_, ?_, fun v hFree => isGreatest_depth_of_free hFree, ?_, ?_⟩
  · intro fuel hFuel v
    rw [Digraph.searched_of_le hFuel]
    exact Digraph.settled_searched.2 v
  · refine ⟨graph.dropped, fun l hl => hl.1, fun l hl => leads_of_mem_dropped hl, ?_,
      fun v => isGreatest_depth v⟩
    exact not_onCycle depthOf_grows
  · intro hFree
    refine ⟨fun v => isGreatest_depth_of_free fun a _ => hFree a, ?_, ?_⟩
    · -- the longest chains are known from the links
      intro other w v hLinks hId
      have hOther := isGreatest_depth_of_free (v := w) fun a _ => hLinks ▸ hFree a
      rw [hLinks, hId] at hOther
      exact hOther.unique (isGreatest_depth_of_free fun a _ => hFree a)
    · intro h hSame
      rw [Digraph.depths_eq_of_same_edges (acyclic_of_not_onCycle hFree) notMem_prev hSame]
  · intro v
    exact Nat.le_sub_one_of_lt (Digraph.depth_lt v)

end DependencyGraph

end Taskboard
