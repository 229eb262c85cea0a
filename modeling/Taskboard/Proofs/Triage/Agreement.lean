import Mathlib
import Taskboard.Proofs.Graph.Renumbering
import Taskboard.Proofs.Triage.Classification

/-!
# Taskboard — the parts of a report agree

Cycles, degrees, depths and the numbers of unblocked items come from four searches of one graph.
None of them looks at what another has found. They agree all the same, because each has a meaning
in terms of paths: members of a cycle reach the same items, an item that blocks nothing reaches
nothing, and without cycles a link leads to a greater depth and to less that is reached.

* `Digraph.length_reach_eq`, `Digraph.length_reach_lt` — what is reached along a cycle, and along
  an edge without cycles;
* `Digraph.depth_eq_zero_iff`, `Digraph.exists_prev_eq_nil` — where depths begin;
* `Report.Agrees` — what the parts of a report have in common;
* `Report.computed_agrees` — a report with computed centrality has it.
-/

namespace Taskboard

namespace Digraph

variable {n : Nat} {g : Digraph n} {u v : Fin n}

/-! ## What is reached -/

theorem self_mem_reach (g : Digraph n) (v : Fin n) : v ∈ g.reach v :=
  mem_reach.mpr Relation.ReflTransGen.refl

/-- Nodes that reach one another reach the same nodes. -/
theorem length_reach_eq (huv : g.Reaches u v) (hvu : g.Reaches v u) :
    (g.reach u).length = (g.reach v).length := by
  have hPerm : (g.reach u).Perm (g.reach v) := by
    rw [List.perm_ext_iff_of_nodup (nodup_reach u) (nodup_reach v)]
    intro w
    rw [mem_reach, mem_reach]
    exact ⟨hvu.trans, huv.trans⟩
  exact hPerm.length_eq

/-- A node reaches the members of its component. -/
theorem length_componentOf_le (g : Digraph n) (v : Fin n) :
    (g.componentOf v).length ≤ (g.reach v).length := by
  refine (List.subperm_of_subset (nodup_componentOf v) ?_).length_le
  intro w hw
  exact mem_reach.mpr (mem_componentOf.mp hw).1

/-- A node without edges to others reaches itself only. -/
theorem length_reach_le_one_iff (hLoop : v ∉ g.next v) :
    (g.reach v).length ≤ 1 ↔ g.next v = [] := by
  constructor
  · intro hShort
    rw [List.eq_nil_iff_forall_not_mem]
    intro w hw
    have hPair : [v, w].Subperm (g.reach v) := by
      refine List.subperm_of_subset ?_ ?_
      · have hNe : v ≠ w := fun h => hLoop (h ▸ hw)
        simpa using hNe
      · intro x hx
        rw [List.mem_cons, List.mem_singleton] at hx
        rcases hx with rfl | rfl
        · exact self_mem_reach g x
        · exact mem_reach.mpr (Relation.ReflTransGen.single hw)
    have hTwo := hPair.length_le
    simp only [List.length_cons, List.length_nil] at hTwo
    omega
  · intro hNone
    refine (List.subperm_of_subset (nodup_reach v) ?_ : (g.reach v).Subperm [v]).length_le
    intro w hw
    rw [List.mem_singleton]
    -- a path to another node would begin with an edge
    rcases (mem_reach.mp hw).cases_head with rfl | ⟨x, hEdge, -⟩
    · rfl
    · rw [hNone] at hEdge
      cases hEdge

/-- Something stands in front of each member of a cycle. -/
theorem prev_ne_nil (hLen : 1 < (g.componentOf v).length) (hu : u ∈ g.componentOf v) :
    g.prev u ≠ [] := by
  obtain ⟨w, hNe, hvw, hwv⟩ := one_lt_length_componentOf.mp hLen
  obtain ⟨hvu, huv⟩ := mem_componentOf.mp hu
  -- one of two other members is another one than `u`, and the way from there ends with an edge
  have hFront : ∃ x, x ≠ u ∧ g.Reaches x u := by
    by_cases hEq : u = v
    · exact ⟨w, hEq ▸ hNe, hwv.trans hvu⟩
    · exact ⟨v, Ne.symm hEq, hvu⟩
  obtain ⟨x, hOther, hPath⟩ := hFront
  rcases hPath.cases_tail with hEq | ⟨y, -, hEdge⟩
  · exact absurd hEq.symm hOther
  · exact List.ne_nil_of_mem (g.mem_next_iff_mem_prev.mp hEdge)

/-- **Without cycles less is reached behind an edge.** -/
theorem length_reach_lt (hAcyclic : g.Acyclic) (hEdge : v ∈ g.next u) (hNe : u ≠ v) :
    (g.reach v).length < (g.reach u).length := by
  have hStep : g.Reaches u v := Relation.ReflTransGen.single hEdge
  have hAway : u ∉ g.reach v := fun hBack => hNe (hAcyclic u v hStep (mem_reach.mp hBack))
  have hMore : (u :: g.reach v).Subperm (g.reach u) := by
    refine List.subperm_of_subset (List.nodup_cons.mpr ⟨hAway, nodup_reach v⟩) ?_
    intro w hw
    rcases List.mem_cons.mp hw with rfl | hw
    · exact self_mem_reach g w
    · exact mem_reach.mpr (hStep.trans (mem_reach.mp hw))
  exact hMore.length_le

/-! ## Where depths begin -/

theorem depth_eq_zero_of_prev (hNone : g.prev v = []) : g.depths.get v = 0 := by
  rcases (weighs_depths v).1 with hZero | ⟨u, hu, -⟩
  · exact hZero
  · rw [hNone] at hu
    cases hu

/-- **Without cycles depths begin where no edge enters.** -/
theorem depth_eq_zero_iff (hAcyclic : g.Acyclic) (hLoop : ∀ v, v ∉ g.prev v) :
    g.depths.get v = 0 ↔ g.prev v = [] := by
  refine ⟨?_, depth_eq_zero_of_prev⟩
  intro hZero
  rw [List.eq_nil_iff_forall_not_mem]
  intro u hu
  have hGrows := (layered_depths hAcyclic hLoop).grows v u hu
  omega

/-- A graph without cycles has a node that no edge enters, if it has a node. -/
theorem exists_prev_eq_nil (hAcyclic : g.Acyclic) (hLoop : ∀ v, v ∉ g.prev v) (v : Fin n) :
    ∃ u, g.prev u = [] := by
  have hSome : Nonempty (Fin n) := ⟨v⟩
  -- nothing stands in front of the least depth
  obtain ⟨u, hLeast⟩ := Finite.exists_min g.depths.get
  refine ⟨u, ?_⟩
  rw [List.eq_nil_iff_forall_not_mem]
  intro w hw
  have hGrows := (layered_depths hAcyclic hLoop).grows u w hw
  have hLe := hLeast w
  omega

end Digraph

/-! ## Reports -/

namespace Report

variable {R : Type} [Scalar R] {ranking : RankConfig R} {config : TriageConfig R} {board : Board}

section Places

variable {v : Fin (DependencyGraph.ofBoard board).size}

/-- The metrics of an id in a report with computed centrality. -/
theorem lookup_computed : (compute (.computed ranking) config board).metrics.lookup
    ((DependencyGraph.ofBoard board).id v) =
      some (metricsAt (.computed ranking) board (.ofBoard board) v) :=
  lookup_metricsOf v

theorem inDegree_computed : (metricsAt (.computed ranking) board (.ofBoard board) v).inDegree =
    ((DependencyGraph.ofBoard board).digraph.prev v).length := by
  rw [metricsAt_computed]

theorem outDegree_computed : (metricsAt (.computed ranking) board (.ofBoard board) v).outDegree =
    ((DependencyGraph.ofBoard board).digraph.next v).length := by
  rw [metricsAt_computed]

theorem unblockCount_metricsAt {provider : Provider R} :
    (metricsAt provider board (.ofBoard board) v).unblockCount =
      ((DependencyGraph.ofBoard board).digraph.reach v).length - 1 :=
  rfl

theorem depth_metricsAt {provider : Provider R} :
    (metricsAt provider board (.ofBoard board) v).depth =
      (DependencyGraph.ofBoard board).digraph.depths.get v :=
  rfl

/-- An item is ready if no edge enters its place. -/
theorem id_mem_ready : (DependencyGraph.ofBoard board).id v ∈
    (compute (.computed ranking) config board).ready ↔
      (DependencyGraph.ofBoard board).digraph.prev v = [] := by
  rw [mem_ready, lookup_computed]
  simp [inDegree_computed]

theorem id_mem_blocked : (DependencyGraph.ofBoard board).id v ∈
    (compute (.computed ranking) config board).blocked ↔
      (DependencyGraph.ofBoard board).digraph.prev v ≠ [] := by
  rw [mem_blocked, lookup_computed]
  simp [inDegree_computed]

end Places

/-- What the parts of a report have in common. The first two are about the members of one cycle,
the next about every item, and the last three about boards without cycles. -/
structure Agrees (board : Board) (r : Report R) : Prop where
  cycleBlocked  : ∀ cycle ∈ r.cycles, ∀ id ∈ cycle, id ∈ r.blocked
  cycleUnblocks : ∀ cycle ∈ r.cycles, ∀ a ∈ cycle, ∀ b ∈ cycle, ∃ ma mb,
    r.metrics.lookup a = some ma ∧ r.metrics.lookup b = some mb ∧
    ma.unblockCount = mb.unblockCount ∧ cycle.length - 1 ≤ ma.unblockCount
  ends          : ∀ id ∈ board.map WorkItem.id, ∃ m, r.metrics.lookup id = some m ∧
    (m.unblockCount = 0 ↔ m.outDegree = 0) ∧ (m.inDegree = 0 → m.depth = 0)
  readyIff      : r.cycles = [] → ∀ id ∈ board.map WorkItem.id, ∃ m,
    r.metrics.lookup id = some m ∧ (id ∈ r.ready ↔ m.depth = 0)
  linkOrders    : r.cycles = [] → ∀ a ∈ board.map WorkItem.id, ∀ b ∈ board.map WorkItem.id,
    a ≠ b → board.Records a b → ∃ ma mb,
      r.metrics.lookup a = some ma ∧ r.metrics.lookup b = some mb ∧
      ma.depth + 1 ≤ mb.depth ∧ mb.unblockCount + 1 ≤ ma.unblockCount
  someReady     : r.cycles = [] → board ≠ [] → r.ready ≠ []

/--
**The parts of a report agree**, on every board, if centrality is computed. Members of a cycle are
blocked and unblock the same number of items, at least each other. An item unblocks nothing exactly
if it blocks nothing, and nothing blocks an item only at depth zero. Without cycles the ready items
are those at depth zero, and there is one unless the board is empty; and each link leads to an item
that is deeper and unblocks less.
-/
theorem computed_agrees (ranking : RankConfig R) (config : TriageConfig R) (board : Board) :
    Agrees board (compute (.computed ranking) config board) := by
  have hPlace : ∀ id ∈ board.map WorkItem.id, ∃ v, (DependencyGraph.ofBoard board).id v = id := by
    intro id hId
    exact DependencyGraph.exists_id_eq (DependencyGraph.mem_ids_ofBoard.mpr hId)
  constructor
  case cycleBlocked =>
    intro cycle hCycle id hId
    obtain ⟨v, hLen, rfl⟩ := DependencyGraph.mem_cycles.mp hCycle
    obtain ⟨w, hw, rfl⟩ := DependencyGraph.mem_groupOf.mp hId
    exact id_mem_blocked.mpr (Digraph.prev_ne_nil hLen hw)
  case cycleUnblocks =>
    intro cycle hCycle a ha b hb
    obtain ⟨v, -, rfl⟩ := DependencyGraph.mem_cycles.mp hCycle
    obtain ⟨u, hu, rfl⟩ := DependencyGraph.mem_groupOf.mp ha
    obtain ⟨w, hw, rfl⟩ := DependencyGraph.mem_groupOf.mp hb
    rw [Digraph.mem_componentOf] at hu hw
    -- through the place of the group, any two members reach one another
    refine ⟨_, _, lookup_computed, lookup_computed, ?_, ?_⟩
    · rw [unblockCount_metricsAt, unblockCount_metricsAt,
        Digraph.length_reach_eq (hu.2.trans hw.1) (hw.2.trans hu.1)]
    · have hMembers := Digraph.length_componentOf_le (DependencyGraph.ofBoard board).digraph v
      rw [Digraph.length_reach_eq hu.1 hu.2] at hMembers
      rw [unblockCount_metricsAt, DependencyGraph.length_groupOf]
      omega
  case ends =>
    intro id hId
    obtain ⟨v, rfl⟩ := hPlace id hId
    refine ⟨_, lookup_computed, ?_, ?_⟩
    -- an item counts itself among what it reaches, and its count is one less
    · rw [unblockCount_metricsAt, outDegree_computed, List.length_eq_zero_iff,
        ← Digraph.length_reach_le_one_iff (DependencyGraph.notMem_next v)]
      omega
    · rw [inDegree_computed, depth_metricsAt, List.length_eq_zero_iff]
      exact Digraph.depth_eq_zero_of_prev
  case readyIff =>
    intro hNil id hId
    obtain ⟨v, rfl⟩ := hPlace id hId
    refine ⟨_, lookup_computed, ?_⟩
    rw [id_mem_ready, depth_metricsAt, Digraph.depth_eq_zero_iff
      (DependencyGraph.cycles_eq_nil_iff.mp hNil) DependencyGraph.notMem_prev]
  case linkOrders =>
    intro hNil a ha b hb hNe hRecords
    have hLink : ⟨a, b⟩ ∈ (DependencyGraph.ofBoard board).links :=
      DependencyGraph.mem_links_ofBoard.mpr ⟨hRecords, DependencyGraph.mem_ids_ofBoard.mpr ha,
        DependencyGraph.mem_ids_ofBoard.mpr hb, hNe⟩
    have hAcyclic := DependencyGraph.cycles_eq_nil_iff.mp hNil
    obtain ⟨u, rfl⟩ := hPlace a ha
    obtain ⟨v, rfl⟩ := hPlace b hb
    have hEdge := DependencyGraph.mem_next_digraph.mpr hLink
    refine ⟨_, _, lookup_computed, lookup_computed, ?_, ?_⟩
    · exact (Digraph.layered_depths hAcyclic DependencyGraph.notMem_prev).grows v u
        ((Digraph.mem_next_iff_mem_prev _).mp hEdge)
    · have hLess := Digraph.length_reach_lt hAcyclic hEdge fun h => hNe (congrArg _ h)
      have hSelf := List.length_pos_of_mem
        (Digraph.self_mem_reach (DependencyGraph.ofBoard board).digraph v)
      rw [unblockCount_metricsAt, unblockCount_metricsAt]
      omega
  case someReady =>
    intro hNil hBoard
    obtain ⟨item, hItem⟩ := List.exists_mem_of_ne_nil _ hBoard
    obtain ⟨v, -⟩ := hPlace item.id (List.mem_map_of_mem hItem)
    obtain ⟨u, hFirst⟩ := Digraph.exists_prev_eq_nil
      (DependencyGraph.cycles_eq_nil_iff.mp hNil) DependencyGraph.notMem_prev v
    exact List.ne_nil_of_mem (id_mem_ready.mpr hFirst)

end Report

end Taskboard
