import Taskboard.Board.Item
import Taskboard.Graph.Digraph
import Taskboard.Hash.Blake3

/-!
# Taskboard — the dependency graph of a board

An item may be blocked by another one. Either of the two, or both, may record the link. Links to
items that are not on the board, and of an item to itself, are dropped.

* `Link` — a blocker and what it blocks;
* `DependencyGraph` — the ids of a board and its links;
* `DependencyGraph.ofBoard` — the graph of a board;
* `DependencyGraph.digraph` — the same graph on numbers, edges in the order of the links;
* `DependencyGraph.cycles` — the groups of items that wait for one another;
* `DependencyGraph.contentHash` — a digest of the links.
-/

namespace Taskboard

/-! ## Links -/

/-- An item that must be finished before another one can start. -/
structure Link where
  blocker : String
  blocked : String
  deriving DecidableEq, Repr

namespace Link

/-- The order of links: by blocker, then by what is blocked. -/
def le (a b : Link) : Bool :=
  decide (a.blocker < b.blocker) || (a.blocker == b.blocker && decide (a.blocked ≤ b.blocked))

/-- The strict order of links. -/
def Before (a b : Link) : Prop :=
  a.blocker < b.blocker ∨ (a.blocker = b.blocker ∧ a.blocked < b.blocked)

theorem le_trans (a b c : Link) (hab : a.le b = true) (hbc : b.le c = true) : a.le c = true := by
  simp only [le, Bool.or_eq_true, Bool.and_eq_true, decide_eq_true_eq, beq_iff_eq] at *
  rcases hab with hab | ⟨hab, hab'⟩ <;> rcases hbc with hbc | ⟨hbc, hbc'⟩
  · exact Or.inl (String.lt_trans hab hbc)
  · exact Or.inl (hbc ▸ hab)
  · exact Or.inl (hab ▸ hbc)
  · exact Or.inr ⟨hab.trans hbc, String.le_trans hab' hbc'⟩

/-- One of two different texts precedes the other. -/
theorem lt_or_lt_of_ne {a b : String} (hne : a ≠ b) : a < b ∨ b < a := by
  by_cases h : a < b
  · exact Or.inl h
  · exact Or.inr (Classical.byContradiction fun h' =>
      hne (String.le_antisymm (String.not_lt.mp h') (String.not_lt.mp h)))

theorem le_total (a b : Link) : (a.le b || b.le a) = true := by
  simp only [le, Bool.or_eq_true, Bool.and_eq_true, decide_eq_true_eq, beq_iff_eq]
  by_cases h : a.blocker = b.blocker
  · rcases String.le_total a.blocked b.blocked with h' | h'
    · exact Or.inl (Or.inr ⟨h, h'⟩)
    · exact Or.inr (Or.inr ⟨h.symm, h'⟩)
  · rcases lt_or_lt_of_ne h with h' | h'
    · exact Or.inl (Or.inl h')
    · exact Or.inr (Or.inl h')

/-- Of two different links in order, the first precedes the second. -/
theorem before_of_le_of_ne {a b : Link} (hle : a.le b = true) (hne : a ≠ b) : a.Before b := by
  simp only [le, Bool.or_eq_true, Bool.and_eq_true, decide_eq_true_eq, beq_iff_eq] at hle
  rcases hle with h | ⟨h, h'⟩
  · exact Or.inl h
  · refine Or.inr ⟨h, ?_⟩
    -- the blockers agree, so the links differ in what is blocked
    have hb : a.blocked ≠ b.blocked := by
      intro hb
      cases a; cases b
      simp_all
    rcases lt_or_lt_of_ne hb with hlt | hlt
    · exact hlt
    · exact absurd hlt (String.not_lt.mpr h')

end Link

/-- The links that an item records, on either side. -/
def WorkItem.links (item : WorkItem) : List Link :=
  item.blockers.map (fun id => ⟨id, item.id⟩) ++ item.blockedItems.map fun id => ⟨item.id, id⟩

/-! ## The graph -/

/-- The distinct ids of a board and the links between them, in ascending order. -/
structure DependencyGraph where
  ids       : List String
  links     : List Link
  distinct  : ids.Nodup
  ascending : links.Pairwise Link.Before
  known     : ∀ l ∈ links, l.blocker ∈ ids ∧ l.blocked ∈ ids
  proper    : ∀ l ∈ links, l.blocker ≠ l.blocked

namespace DependencyGraph

/-- Erasing duplicates leaves none. -/
theorem nodup_eraseDups {α : Type} [BEq α] [LawfulBEq α] :
    ∀ (k : Nat) (l : List α), l.length ≤ k → l.eraseDups.Nodup
  | _, [], _ => by simp
  | k + 1, a :: l, h => by
    rw [List.eraseDups_cons, List.nodup_cons]
    refine ⟨by simp, nodup_eraseDups k _ ?_⟩
    exact Nat.le_trans (List.length_filter_le _ _) (Nat.le_of_succ_le_succ h)

/-- Whether a link joins two different ids of a list. -/
def admits (ids : List String) (l : Link) : Bool :=
  ids.contains l.blocker && ids.contains l.blocked && l.blocker != l.blocked

/-- Links in ascending order, each once. -/
def arrange (links : List Link) : List Link :=
  links.eraseDups.mergeSort Link.le

theorem mem_arrange {l : Link} {links : List Link} : l ∈ arrange links ↔ l ∈ links := by
  simp [arrange, (List.mergeSort_perm _ _).mem_iff]

theorem arrange_ascending (links : List Link) : (arrange links).Pairwise Link.Before := by
  have hnodup : (arrange links).Nodup :=
    (List.mergeSort_perm _ _).nodup_iff.mpr (nodup_eraseDups _ links (Nat.le_refl _))
  -- in order and without repetition is strictly in order
  have hsorted := List.pairwise_mergeSort Link.le_trans Link.le_total links.eraseDups
  exact (hsorted.and hnodup).imp fun h => Link.before_of_le_of_ne h.1 h.2

/-- The graph of a board. Of items with the same id the first one gives the place, and the links
of all count. -/
def ofBoard (board : Board) : DependencyGraph :=
  let ids := (board.map WorkItem.id).eraseDups
  { ids
    links := arrange ((board.flatMap WorkItem.links).filter (admits ids))
    distinct := nodup_eraseDups _ _ (Nat.le_refl _)
    ascending := arrange_ascending _
    known := fun l hl => by
      have h := (List.mem_filter.mp (mem_arrange.mp hl)).2
      simp only [admits, Bool.and_eq_true, List.contains_iff_mem] at h
      exact h.1
    proper := fun l hl => by
      have h := (List.mem_filter.mp (mem_arrange.mp hl)).2
      simp only [admits, Bool.and_eq_true, bne_iff_ne] at h
      exact h.2 }

/-- The number of items. -/
def size (g : DependencyGraph) : Nat :=
  g.ids.length

/-- The place of an id. -/
def node (g : DependencyGraph) (id : String) (h : id ∈ g.ids) : Fin g.size :=
  ⟨g.ids.idxOf id, List.idxOf_lt_length_of_mem h⟩

/-- The place of an id, if it is on the board. -/
def node? (g : DependencyGraph) (id : String) : Option (Fin g.size) :=
  if h : id ∈ g.ids then some (g.node id h) else none

/-- The id at a place. -/
def id (g : DependencyGraph) (v : Fin g.size) : String :=
  g.ids.get v

/-- The links as pairs of places. -/
def edges (g : DependencyGraph) : List (Fin g.size × Fin g.size) :=
  g.links.attach.map fun l =>
    (g.node l.val.blocker (g.known l.val l.property).1,
     g.node l.val.blocked (g.known l.val l.property).2)

/-- The graph on places. An edge for each link, in ascending order of the links. -/
def digraph (g : DependencyGraph) : Digraph g.size :=
  .ofEdges g.edges

/-- The ids of what an item blocks, in ascending order. -/
def successors (g : DependencyGraph) (id : String) : List String :=
  (g.links.filter fun l => l.blocker == id).map Link.blocked

/-- The ids of what blocks an item, in ascending order. -/
def predecessors (g : DependencyGraph) (id : String) : List String :=
  (g.links.filter fun l => l.blocked == id).map Link.blocker

/-! ## Cycles -/

/-- The groups of two or more items that reach one another, each in ascending order, in ascending
order. -/
def cycles (g : DependencyGraph) : List (List String) :=
  let groups := g.digraph.components.filter fun nodes => 1 < nodes.length
  (groups.map fun nodes => sortIds (nodes.map g.id)).mergeSort fun a b => !decide (b < a)

/-! ## The digest -/

/-- The UTF-8 bytes of a text, and a zero byte behind them. -/
def terminated (s : String) : List UInt8 :=
  s.toList.flatMap String.utf8EncodeChar ++ [0]

/-- What the digest is taken of. -/
def content (g : DependencyGraph) : List UInt8 :=
  g.links.flatMap fun l => terminated l.blocker ++ terminated l.blocked

/-- The digest of the links. -/
def contentHash (g : DependencyGraph) : String :=
  "blake3:" ++ Blake3.hexDigest g.content

end DependencyGraph

end Taskboard
