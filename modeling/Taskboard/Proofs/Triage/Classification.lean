import Mathlib
import Taskboard.Proofs.Triage.Metrics
import Taskboard.Triage.Report.Json

/-!
# Taskboard — a report describes one partition of its board

A board may hold an id more than once, with other priorities and links, and the tables of a
provider may lack ids. The parts of a report still speak of the same items: each distinct id has
one record of metrics, which is built from its first item, and every list of the report selects
ids by that record.

* `Board.First` — an item that no other with its id precedes;
* `Metrics.BuiltFrom` — metrics that are built from an item and the entries of a provider;
* `Report.mem_idsWhere` — a list of a report holds the ids whose metrics pass its test;
* `Report.Describes` — what a report says of a board;
* `Report.compute_describes` — the report of a pass says just that.
-/

namespace Taskboard

/-! ## First items -/

/-- An item of a board that no other item with its id precedes. -/
def Board.First (board : Board) (item : WorkItem) : Prop :=
  ∃ pre post, board = pre ++ item :: post ∧ item.id ∉ pre.map WorkItem.id

/-- The first item with an id is the one that a search for the id finds. -/
theorem Board.first_iff {board : Board} {item : WorkItem} :
    board.First item ↔ (board.find? fun other => other.id == item.id) = some item := by
  rw [List.find?_eq_some_iff_append, Board.First]
  have hNew : ∀ pre : Board, (∀ other ∈ pre, (!other.id == item.id) = true) ↔
      item.id ∉ pre.map WorkItem.id := by
    intro pre
    simp
  simp only [hNew, beq_self_eq_true, true_and, exists_and_right]

theorem Board.First.mem {board : Board} {item : WorkItem} (h : board.First item) :
    item ∈ board :=
  List.mem_of_find?_eq_some (Board.first_iff.mp h)

theorem Board.first_of_find? {board : Board} {item : WorkItem} {id : String}
    (h : (board.find? fun other => other.id == id) = some item) :
    board.First item ∧ item.id = id := by
  have hSame : item.id = id := by simpa using List.find?_some h
  rw [← hSame] at h
  exact ⟨Board.first_iff.mpr h, hSame⟩

/-- An id has one first item. -/
theorem Board.First.eq {board : Board} {a b : WorkItem} (ha : board.First a) (hb : board.First b)
    (hId : a.id = b.id) : a = b := by
  rw [Board.first_iff] at ha hb
  rw [← hId, ha] at hb
  exact Option.some.inj hb

/-- Every id on a board has a first item. -/
theorem Board.exists_first {board : Board} {id : String} (hId : id ∈ board.map WorkItem.id) :
    ∃ item, board.First item ∧ item.id = id := by
  obtain ⟨other, hOther, rfl⟩ := List.mem_map.mp hId
  have hSome : (board.find? fun item => item.id == other.id).isSome = true :=
    List.find?_isSome.mpr ⟨other, hOther, beq_self_eq_true _⟩
  obtain ⟨item, hFind⟩ := Option.isSome_iff_exists.mp hSome
  exact ⟨item, Board.first_of_find? hFind⟩

theorem Board.First.priorityOf_eq {board : Board} {item : WorkItem} (h : board.First item) :
    Report.priorityOf board item.id = item.priority := by
  rw [Report.priorityOf, Board.first_iff.mp h]
  rfl

theorem Priority.criticalWeight_le_iff (p : Priority) :
    criticalWeight ≤ p.weight ↔ p = .urgent ∨ p = .high := by
  cases p <;> decide

/-! ## Records -/

/-- Metrics that are built from an item, from the entries of a provider for its id, and from the
place of the id in the graph of the board. An entry that a table lacks reads as zero. -/
structure Metrics.BuiltFrom {R : Type} [Scalar R] (provider : Provider R) (board : Board)
    (item : WorkItem) (m : Metrics R) : Prop where
  pageRank    : m.pageRank =
    ((provider.pageRank (.ofBoard board)).lookup item.id).getD (Scalar.natural 0)
  betweenness : m.betweenness =
    ((provider.betweenness (.ofBoard board)).lookup item.id).getD (Scalar.natural 0)
  inDegree    : m.inDegree = ((provider.degrees (.ofBoard board)).inward.lookup item.id).getD 0
  outDegree   : m.outDegree = ((provider.degrees (.ofBoard board)).outward.lookup item.id).getD 0
  weight      : m.weight = item.priority.weight
  place       : ∃ v, (DependencyGraph.ofBoard board).id v = item.id ∧
    m.unblockCount = ((DependencyGraph.ofBoard board).digraph.reach v).length - 1 ∧
    m.depth = (DependencyGraph.ofBoard board).digraph.depths.get v

namespace Report

variable {R : Type} [Scalar R] (provider : Provider R) {board : Board}

/-- **The record of an id is built from its first item.** -/
theorem exists_lookup_builtFrom {item : WorkItem} (h : board.First item) :
    ∃ m, (metricsOf provider board (.ofBoard board)).lookup item.id = some m ∧
      m.BuiltFrom provider board item := by
  have hId : item.id ∈ (DependencyGraph.ofBoard board).ids :=
    DependencyGraph.mem_ids_ofBoard.mpr (List.mem_map_of_mem h.mem)
  obtain ⟨v, hv⟩ := DependencyGraph.exists_id_eq hId
  -- only the weight is read from an item, and that is the first one
  refine ⟨metricsAt provider board _ v, hv ▸ lookup_metricsOf v, ?_⟩
  constructor
  case weight => rw [metricsAt, hv, h.priorityOf_eq]
  case place => exact ⟨v, hv, rfl, rfl⟩
  all_goals rw [metricsAt, hv]

variable {provider}

/-- **A list of a report** holds the ids whose metrics pass its test. -/
theorem mem_idsWhere {graph : DependencyGraph} (keep : Metrics R → Bool) {id : String} :
    id ∈ idsWhere (metricsOf provider board graph) keep ↔
      ∃ m, (metricsOf provider board graph).lookup id = some m ∧ keep m = true := by
  rw [idsWhere_metricsOf, List.mem_filter, Option.any_eq_true]
  constructor
  · exact fun h => h.2
  · rintro ⟨m, hLookup, hKeep⟩
    refine ⟨?_, m, hLookup, hKeep⟩
    by_contra hId
    rw [lookup_metricsOf_eq_none hId] at hLookup
    cases hLookup

/-- Ids in the order of their first occurrences on a board, each once. -/
def InOrder (board : Board) (ids : List String) : Prop :=
  ids.Pairwise fun a b => (board.map WorkItem.id).idxOf a < (board.map WorkItem.id).idxOf b

theorem inOrder_idsWhere (keep : Metrics R → Bool) :
    InOrder board (idsWhere (metricsOf provider board (.ofBoard board)) keep) := by
  rw [idsWhere_metricsOf]
  exact (DependencyGraph.pairwise_idxOf_eraseDups _).filter _

/-! ## The parts of a report -/

section Parts

variable {config : TriageConfig R} {id : String}

theorem lookup_compute : (compute provider config board).metrics.lookup id =
    (metricsOf provider board (.ofBoard board)).lookup id :=
  rfl

theorem mem_ready : id ∈ (compute provider config board).ready ↔
    ∃ m, (compute provider config board).metrics.lookup id = some m ∧ m.inDegree = 0 := by
  refine (mem_idsWhere Metrics.isReady).trans ?_
  simp only [lookup_compute, Metrics.isReady, beq_iff_eq]

theorem mem_blocked : id ∈ (compute provider config board).blocked ↔
    ∃ m, (compute provider config board).metrics.lookup id = some m ∧ m.inDegree ≠ 0 := by
  refine (mem_idsWhere fun m => !m.isReady).trans ?_
  simp only [lookup_compute, Metrics.isReady, Bool.not_eq_true', beq_eq_false_iff_ne]

theorem mem_criticalPath : id ∈ (compute provider config board).criticalPath ↔
    ∃ m, (compute provider config board).metrics.lookup id = some m ∧
      criticalWeight ≤ m.weight ∧ 0 < m.outDegree := by
  refine (mem_idsWhere Metrics.isCritical).trans ?_
  simp only [lookup_compute, Metrics.isCritical, Bool.and_eq_true, decide_eq_true_eq]

theorem mem_highImpact : id ∈ (compute provider config board).highImpact ↔
    ∃ m, (compute provider config board).metrics.lookup id = some m ∧
      config.highImpactFrom.rank ≤ (ImpactLevel.ofScore m.impactScore).rank := by
  refine (mem_idsWhere fun m =>
    config.highImpactFrom.rank ≤ (ImpactLevel.ofScore m.impactScore).rank).trans ?_
  simp only [lookup_compute, decide_eq_true_eq]

theorem map_fst_metrics :
    (compute provider config board).metrics.map Prod.fst = (DependencyGraph.ofBoard board).ids := by
  show (metricsOf provider board (.ofBoard board)).map Prod.fst = _
  rw [metricsOf_eq, List.map_map]
  exact DependencyGraph.map_id_finRange _

/-- **Each id of a board has metrics**, built from its first item, and no other id has. -/
theorem exists_lookup_iff (provider : Provider R) (config : TriageConfig R) :
    (∃ m, (compute provider config board).metrics.lookup id = some m) ↔
      id ∈ board.map WorkItem.id := by
  rw [← DependencyGraph.mem_ids_ofBoard, lookup_compute]
  constructor
  · rintro ⟨m, hLookup⟩
    by_contra hId
    rw [lookup_metricsOf_eq_none hId] at hLookup
    cases hLookup
  · intro hId
    obtain ⟨v, rfl⟩ := DependencyGraph.exists_id_eq hId
    exact ⟨_, lookup_metricsOf v⟩

/-- The metrics of an id, with its first item. -/
theorem exists_first_of_lookup {m : Metrics R}
    (hLookup : (compute provider config board).metrics.lookup id = some m) :
    ∃ item, board.First item ∧ item.id = id ∧ m.BuiltFrom provider board item := by
  -- a look-up has one result, so the record is the one that is built from the first item
  obtain ⟨item, hFirst, rfl⟩ :=
    Board.exists_first ((exists_lookup_iff provider config).mp ⟨m, hLookup⟩)
  obtain ⟨m', hLookup', hBuilt⟩ := exists_lookup_builtFrom provider hFirst
  rw [lookup_compute, hLookup', Option.some.injEq] at hLookup
  exact ⟨item, hFirst, rfl, hLookup ▸ hBuilt⟩

end Parts

/-! ## Reports -/

/-- What a report says of a board. -/
structure Describes (provider : Provider R) (config : TriageConfig R) (board : Board)
    (r : Report R) : Prop where
  recorded        : ∀ id, id ∈ r.metrics.map Prod.fst ↔ id ∈ board.map WorkItem.id
  recordedOnce    : (r.metrics.map Prod.fst).Nodup
  builtFromFirst  : ∀ item, board.First item →
    ∃ m, r.metrics.lookup item.id = some m ∧ m.BuiltFrom provider board item
  readyOrBlocked  : ∀ id, id ∈ board.map WorkItem.id ↔ id ∈ r.ready ∨ id ∈ r.blocked
  notBoth         : ∀ id ∈ r.ready, id ∉ r.blocked
  ready           : ∀ id ∈ board.map WorkItem.id, id ∈ r.ready ↔
    ((provider.degrees (.ofBoard board)).inward.lookup id).getD 0 = 0
  criticalPath    : ∀ id, id ∈ r.criticalPath ↔ ∃ item, board.First item ∧ item.id = id ∧
    (item.priority = .urgent ∨ item.priority = .high) ∧
    0 < ((provider.degrees (.ofBoard board)).outward.lookup id).getD 0
  highImpact      : ∀ id, id ∈ r.highImpact ↔ ∃ m, r.metrics.lookup id = some m ∧
    config.highImpactFrom.rank ≤ (ImpactLevel.ofScore m.impactScore).rank
  readyInOrder    : InOrder board r.ready
  blockedInOrder  : InOrder board r.blocked
  criticalInOrder : InOrder board r.criticalPath
  highInOrder     : InOrder board r.highImpact

/-- A pass describes its board, whatever numbers scores are. -/
theorem describes_compute (provider : Provider R) (config : TriageConfig R) (board : Board) :
    Describes provider config board (compute provider config board) := by
  constructor
  case recorded =>
    intro id
    rw [map_fst_metrics, DependencyGraph.mem_ids_ofBoard]
  case recordedOnce =>
    rw [map_fst_metrics]
    exact (DependencyGraph.ofBoard board).distinct
  case builtFromFirst =>
    intro item hFirst
    exact exists_lookup_builtFrom provider hFirst
  case readyOrBlocked =>
    intro id
    -- both tests look at the one record of the id
    rw [mem_ready, mem_blocked, ← exists_lookup_iff provider config, ← exists_or]
    refine exists_congr fun m => ?_
    rw [← and_or_left, and_iff_left (eq_or_ne m.inDegree 0)]
  case notBoth =>
    intro id hReady hBlocked
    obtain ⟨m, hLookup, hNone⟩ := mem_ready.mp hReady
    obtain ⟨m', hLookup', hSome⟩ := mem_blocked.mp hBlocked
    rw [hLookup, Option.some.injEq] at hLookup'
    exact hSome (hLookup' ▸ hNone)
  case ready =>
    intro id hId
    obtain ⟨m, hLookup⟩ := (exists_lookup_iff provider config).mpr hId
    obtain ⟨item, -, rfl, hBuilt⟩ := exists_first_of_lookup hLookup
    rw [mem_ready, ← hBuilt.inDegree]
    constructor
    · rintro ⟨m', hLookup', hNone⟩
      rw [hLookup, Option.some.injEq] at hLookup'
      rw [hLookup', hNone]
    · intro hNone
      exact ⟨m, hLookup, hNone⟩
  case criticalPath =>
    intro id
    rw [mem_criticalPath]
    constructor
    · rintro ⟨m, hLookup, hWeight, hOut⟩
      obtain ⟨item, hFirst, rfl, hBuilt⟩ := exists_first_of_lookup hLookup
      rw [hBuilt.weight, Priority.criticalWeight_le_iff] at hWeight
      exact ⟨item, hFirst, rfl, hWeight, hBuilt.outDegree ▸ hOut⟩
    · rintro ⟨item, hFirst, rfl, hPriority, hOut⟩
      obtain ⟨m, hLookup, hBuilt⟩ := exists_lookup_builtFrom provider hFirst
      refine ⟨m, hLookup, ?_, ?_⟩
      · rw [hBuilt.weight, Priority.criticalWeight_le_iff]
        exact hPriority
      · rw [hBuilt.outDegree]
        exact hOut
  case highImpact =>
    intro id
    exact mem_highImpact
  case readyInOrder => exact inOrder_idsWhere Metrics.isReady
  case blockedInOrder => exact inOrder_idsWhere fun m : Metrics R => !m.isReady
  case criticalInOrder => exact inOrder_idsWhere Metrics.isCritical
  case highInOrder =>
    exact inOrder_idsWhere fun m : Metrics R =>
      config.highImpactFrom.rank ≤ (ImpactLevel.ofScore m.impactScore).rank

/--
**A report describes one partition of its board**, whoever provides centrality. Each distinct id
has one record of metrics, built from its first item. It is ready or blocked, and not both, as the
provider has no link to it or some. The critical path and the items of high impact are selected by
the same records; each list names an id once, in the order of the first occurrences, and the counts
that are written beside the lists are their lengths.
-/
theorem compute_describes (provider : Provider Score) (config : TriageConfig Score)
    (board : Board) :
    let r := compute provider config board
    Describes provider config board r ∧
    r.toJson.member? "readyCount" = some (.ofNat r.ready.length) ∧
    r.toJson.member? "blockedCount" = some (.ofNat r.blocked.length) ∧
    r.toJson.member? "criticalPathCount" = some (.ofNat r.criticalPath.length) ∧
    r.toJson.member? "highImpactCount" = some (.ofNat r.highImpact.length) := by
  intro r
  exact ⟨describes_compute provider config board, rfl, rfl, rfl, rfl⟩

end Report

end Taskboard
