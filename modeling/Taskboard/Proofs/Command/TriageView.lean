import Taskboard.Command.Run
import Taskboard.Proofs.Triage.Classification
import Taskboard.Proofs.Triage.Stability

/-!
# Taskboard — a row of triage speaks of the first item with its id and the last

Triage shows the first ids of the ranking, as many as it may or all of them, and its counts do not
depend on how many it shows. A row has the metrics of its id, which are those of the first item with
that id: the priority of this item decides whether the row is on the critical path. The title is
that of the last item with the id, so where items with one id differ in title, a row shows the title
of one item and rates another.

* `Board.Last` — an item that no other with its id follows;
* `TriageView.map_id_rows` — the rows have the first ids of the ranking;
* `TriageView.Shows` — what a view shows of a board;
* `Invocation.triage_shows_ranking` — triage shows just that.
-/

namespace Taskboard

/-! ## Last items -/

/-- An item of a board that no other item with its id follows. -/
def Board.Last (board : Board) (item : WorkItem) : Prop :=
  ∃ pre post, board = pre ++ item :: post ∧ item.id ∉ post.map WorkItem.id

/-- From behind, the last item with an id is the first. -/
theorem Board.first_reverse_iff {board : Board} {item : WorkItem} :
    Board.First board.reverse item ↔ board.Last item := by
  constructor
  · rintro ⟨pre, post, hBoard, hNew⟩
    refine ⟨post.reverse, pre.reverse, ?_, ?_⟩
    · rw [List.reverse_eq_iff] at hBoard
      rw [hBoard]
      simp
    · rw [List.map_reverse, List.mem_reverse]
      exact hNew
  · rintro ⟨pre, post, rfl, hNew⟩
    refine ⟨post.reverse, pre.reverse, by simp, ?_⟩
    rw [List.map_reverse, List.mem_reverse]
    exact hNew

theorem Board.exists_last {board : Board} {id : String} (hId : id ∈ board.map WorkItem.id) :
    ∃ item, board.Last item ∧ item.id = id := by
  have hReverse : id ∈ (board.reverse).map WorkItem.id := by
    rwa [List.map_reverse, List.mem_reverse]
  obtain ⟨item, hFirst, hSame⟩ := Board.exists_first hReverse
  exact ⟨item, Board.first_reverse_iff.mp hFirst, hSame⟩

theorem Board.Last.mem {board : Board} {item : WorkItem} (h : board.Last item) : item ∈ board := by
  obtain ⟨pre, post, rfl, -⟩ := h
  exact List.mem_append_right _ List.mem_cons_self

theorem Board.Last.eq {board : Board} {a b : WorkItem} (ha : board.Last a) (hb : board.Last b)
    (hId : a.id = b.id) : a = b :=
  (Board.first_reverse_iff.mpr ha).eq (Board.first_reverse_iff.mpr hb) hId

/-- **The title that is shown for an id** is that of the last item with the id. -/
theorem Board.Last.titleOf_eq {board : Board} {item : WorkItem} (h : board.Last item) :
    TriageView.titleOf board item.id = item.title := by
  rw [TriageView.titleOf, Board.first_iff.mp (Board.first_reverse_iff.mpr h)]
  rfl

/-! ## Rows -/

namespace TriageView

variable {board : Board} {report : Report Score} {limit : Nat}

theorem mem_rows {row : TriageRow} (hRow : row ∈ (of board report limit).rows) :
    row.id ∈ report.ranked.take limit ∧ report.metrics.lookup row.id = some row.metrics ∧
      row.title = titleOf board row.id := by
  obtain ⟨id, hId, hSome⟩ := List.mem_filterMap.mp hRow
  obtain ⟨m, hLookup, rfl⟩ := Option.map_eq_some_iff.mp hSome
  exact ⟨hId, hLookup, rfl⟩

/-- **The rows have the first ids of the ranking** if every id of it has metrics. -/
theorem map_id_rows (hMetrics : ∀ id ∈ report.ranked, ∃ m, report.metrics.lookup id = some m) :
    (of board report limit).rows.map TriageRow.id = report.ranked.take limit := by
  rw [of, List.map_filterMap]
  have hRow : ∀ id ∈ report.ranked.take limit, Option.map TriageRow.id
      ((report.metrics.lookup id).map fun m => ⟨id, titleOf board id, m⟩) = some id := by
    intro id hId
    obtain ⟨m, hLookup⟩ := hMetrics id (List.mem_of_mem_take hId)
    rw [hLookup]
    rfl
  rw [List.filterMap_congr hRow, List.filterMap_some]

end TriageView

/-! ## The ranking -/

namespace Report

variable {R : Type} [Scalar R] [Std.TransCmp (Scalar.order : R → R → Ordering)]

theorem exists_lookup_of_mem_ranked (provider : Provider R) (config : TriageConfig R)
    (board : Board) : ∀ id ∈ (compute provider config board).ranked,
      ∃ m, (compute provider config board).metrics.lookup id = some m := by
  intro id hId
  rw [exists_lookup_iff provider config]
  exact ((isRanking_ranked provider config board).all id).mp hId

theorem length_metrics (provider : Provider R) (config : TriageConfig R) (board : Board) :
    (compute provider config board).metrics.length = (board.map WorkItem.id).toFinset.card := by
  have hIds : (compute provider config board).metrics.map Prod.fst = _ := map_fst_metrics
  rw [← (isRanking_ranked provider config board).length_eq, ranked_compute,
    sortByImpact_perm.length_eq, ← hIds, List.length_map]

end Report

/-! ## What triage shows -/

/-- What a row shows of the first item with its id and of the last. -/
structure TriageRow.Shows (provider : Provider Score) (board : Board) (report : Report Score)
    (row : TriageRow) (first last : WorkItem) : Prop where
  isFirst      : board.First first ∧ first.id = row.id
  isLast       : board.Last last ∧ last.id = row.id
  recorded     : report.metrics.lookup row.id = some row.metrics
  builtFrom    : row.metrics.BuiltFrom provider board first
  critical     : row.metrics.isCritical = true ↔
    (first.priority = .urgent ∨ first.priority = .high) ∧ 0 < row.metrics.outDegree
  title        : row.title = last.title
  titleOfFirst : (∀ item ∈ board, item.id = row.id → item.title = first.title) →
    row.title = first.title

/-- What a view shows of a board, with `limit` rows at most. -/
structure TriageView.Shows (config : TriageConfig Score) (board : Board) (limit : Nat)
    (v : TriageView) : Prop where
  report : v.report = Report.compute (.computed config.ranking) config board
  ids    : v.rows.map TriageRow.id = v.report.ranked.take limit
  length : v.rows.length = min limit (board.map WorkItem.id).toFinset.card
  rows   : ∀ row ∈ v.rows, ∃ first last,
    row.Shows (.computed config.ranking) board v.report first last
  total  : v.toJson.member? "total" = some (.ofNat (board.map WorkItem.id).toFinset.card)

/-- Views that differ in their rows at most: as JSON values in the member for the ranking, and for
people neither in the counts nor in the cycles. -/
structure TriageView.SameButRows (v v' : TriageView) : Prop where
  members : ∀ key ≠ "ranked", v.toJson.member? key = v'.toJson.member? key
  counts  : v.countLines = v'.countLines
  cycles  : v.cycleLines = v'.cycleLines

namespace TriageView

variable {config : TriageConfig Score} {board : Board} {limit : Nat}

theorem shows_row {provider : Provider Score} {row : TriageRow}
    (hRow : row ∈ (of board (Report.compute provider config board) limit).rows) :
    ∃ first last, row.Shows provider board (Report.compute provider config board) first last := by
  obtain ⟨-, hLookup, hTitle⟩ := mem_rows hRow
  obtain ⟨first, hFirst, hFirstId, hBuilt⟩ := Report.exists_first_of_lookup hLookup
  obtain ⟨last, hLast, hLastId⟩ :=
    Board.exists_last ((Report.exists_lookup_iff provider config).mp ⟨_, hLookup⟩)
  have hLastTitle : row.title = last.title := by
    rw [hTitle, ← hLastId, hLast.titleOf_eq]
  refine ⟨first, last, ⟨hFirst, hFirstId⟩, ⟨hLast, hLastId⟩, hLookup, hBuilt, ?_, hLastTitle, ?_⟩
  · rw [Metrics.isCritical, hBuilt.weight, Bool.and_eq_true, decide_eq_true_eq, decide_eq_true_eq,
      Priority.criticalWeight_le_iff]
  · intro hSame
    rw [hLastTitle, hSame last hLast.mem hLastId]

theorem sameButRows_of_report_eq {v v' : TriageView} (h : v.report = v'.report) :
    v.SameButRows v' where
  members key hKey := by
    have hNot : (key == "ranked") = false := beq_eq_false_iff_ne.mpr hKey
    simp only [toJson, Json.member?, Json.members, List.lookup_cons, hNot, h]
  counts := by rw [countLines, countLines, h]
  cycles := by rw [cycleLines, cycleLines, h]

theorem shows_of (config : TriageConfig Score) (board : Board) (limit : Nat) :
    (of board (Report.compute (.computed config.ranking) config board) limit).Shows
      config board limit := by
  have hMetrics := Report.exists_lookup_of_mem_ranked (.computed config.ranking) config board
  constructor
  case report => rfl
  case ids => exact map_id_rows hMetrics
  case length =>
    rw [← List.length_map TriageRow.id, map_id_rows hMetrics, List.length_take,
      (Report.isRanking_ranked _ config board).length_eq]
  case rows =>
    intro row hRow
    exact shows_row hRow
  case total => rw [← Report.length_metrics (.computed config.ranking) config board]; rfl

/-- **The row of an id**, if there may be as many rows as there are items. -/
theorem Shows.exists_row {v : TriageView} (h : v.Shows config board limit)
    (hLimit : board.length ≤ limit) {first last : WorkItem} (hFirst : board.First first)
    (hLast : board.Last last) (hSame : first.id = last.id) :
    ∃ row ∈ v.rows, row.Shows (.computed config.ranking) board v.report first last := by
  have hRanking : IsRanking v.report.standing (board.map WorkItem.id) v.report.ranked := by
    rw [h.report]
    exact Report.isRanking_ranked _ config board
  -- the ranking is no longer than the board, so that nothing of it is left out
  have hShort : v.report.ranked.length ≤ limit := by
    rw [hRanking.length_eq]
    have hCard := List.toFinset_card_le (board.map WorkItem.id)
    rw [List.length_map] at hCard
    omega
  have hMem := (hRanking.all first.id).mpr (List.mem_map_of_mem hFirst.mem)
  rw [← List.take_of_length_le hShort, ← h.ids] at hMem
  obtain ⟨row, hRow, hId⟩ := List.mem_map.mp hMem
  obtain ⟨first', last', hShows⟩ := h.rows row hRow
  obtain rfl := hShows.isFirst.1.eq hFirst (hShows.isFirst.2.trans hId)
  obtain rfl := hShows.isLast.1.eq hLast (hShows.isLast.2.trans (hId.trans hSame))
  exact ⟨row, hRow, hShows⟩

end TriageView

section Triage

variable {i : Invocation} {w : Workspace} {settings : Settings} {board : Board} {limit : Nat}

theorem Invocation.execute_triage (hAction : i.action = .triage limit)
    (hSettings : w.loadSettings = .ok settings) (hBoard : w.loadBoard i.items = .ok board)
    (terminal : Bool) :
    let config := settings.triage.toConfig
    execute i w terminal = ⟨0, (TriageView.of board
      (Report.compute (.computed config.ranking) config board) limit).render (i.mode w terminal),
      ""⟩ := by
  simp only [execute, run, hAction, hSettings, hBoard]
  rfl

/--
**Triage shows the ranking from its start**, if there are settings and a board. The rows have the
first ids of the ranking of the report, the limit or the number of distinct ids of them. A row has
the metrics of its id, whose first item decides whether it is critical; but its title is that of the
last item with the id, which is the title of the first one if all items with the id have it. Under
another limit the rows are others, and all else is the same.
-/
theorem Invocation.triage_shows_ranking (i : Invocation) (hSettings : w.loadSettings = .ok settings)
    (hBoard : w.loadBoard i.items = .ok board) (terminal : Bool) :
    ∃ view : Nat → TriageView,
      (∀ limit, (view limit).Shows settings.triage.toConfig board limit ∧
        execute { i with action := .triage limit } w terminal =
          ⟨0, (view limit).render (i.mode w terminal), ""⟩) ∧
      ∀ limit other, (view limit).SameButRows (view other) := by
  let config := settings.triage.toConfig
  let report := Report.compute (.computed config.ranking) config board
  refine ⟨TriageView.of board report, fun limit => ⟨TriageView.shows_of config board limit, ?_⟩,
    fun limit other => TriageView.sameButRows_of_report_eq rfl⟩
  exact execute_triage (i := { i with action := .triage limit }) rfl hSettings hBoard terminal

end Triage

/-- A workspace without settings. The item `a` is on file twice, the second time with another title
and another priority. -/
def Workspace.listedTwice : Workspace where
  formatVariable := none
  settingsPath := ".plank/config.toml"
  settings := none
  preferencesPath := "plank/config.toml"
  preferences := none
  items := .ok <|
    "[\x7b\"id\": \"a\", \"title\": \"first\", \"blocking\": [\"b\"]\x7d, " ++
    "\x7b\"id\": \"b\"\x7d, " ++
    "\x7b\"id\": \"a\", \"title\": \"second\", \"priority\": 1, \"blocking\": [\"c\"]\x7d, " ++
    "\x7b\"id\": \"c\", \"blockedBy\": [\"b\"]\x7d]"
  wording := default

theorem exists_ok_of_any {α : Type} {x : Except Failure α} {test : α → Bool}
    (h : x.toOption.any test = true) : ∃ a, x = .ok a ∧ test a = true := by
  cases x with
  | error f => cases h
  | ok a => exact ⟨a, rfl, h⟩

/-- What is on file about `a`, first and last. -/
theorem Workspace.load_listedTwice : ∃ board first last,
    listedTwice.loadBoard "items.json" = .ok board ∧ board.length ≤ 10 ∧
    (board.First first ∧ first.id = "a" ∧ first.title = "first" ∧ first.priority = .medium) ∧
    board.Last last ∧ last.id = "a" ∧ last.title = "second" := by
  have hRead : (listedTwice.loadBoard "items.json").toOption.any (fun board =>
      board.length ≤ 10 &&
      (board.find? fun item => item.id == "a").any (fun item =>
        item.title == "first" && item.priority == .medium) &&
      (board.reverse.find? fun item => item.id == "a").any fun item =>
        item.title == "second") = true := by
    decide +kernel
  obtain ⟨board, hBoard, hItems⟩ := exists_ok_of_any hRead
  simp only [Option.any_eq_true, Bool.and_eq_true, decide_eq_true_eq, beq_iff_eq] at hItems
  obtain ⟨⟨hLength, first, hFind, hTitle, hPriority⟩, last, hFindLast, hLastTitle⟩ := hItems
  obtain ⟨hFirst, hFirstId⟩ := Board.first_of_find? hFind
  obtain ⟨hLast, hLastId⟩ := Board.first_of_find? hFindLast
  exact ⟨board, first, last, hBoard, hLength, ⟨hFirst, hFirstId, hTitle, hPriority⟩,
    Board.first_reverse_iff.mp hLast, hLastId, hLastTitle⟩

/-- The row of `a` is not critical, although its title is that of an item with a critical
priority. -/
theorem Invocation.triage_shows_listedTwice : ∃ (view : TriageView) (row : TriageRow),
    row ∈ view.rows ∧ row.id = "a" ∧ row.title = "second" ∧ row.metrics.isCritical = false ∧
    execute { action := .triage 10 } .listedTwice true = ⟨0, view.render .pretty, ""⟩ := by
  obtain ⟨board, first, last, hBoard, hLength, ⟨hFirst, hFirstId, -, hPriority⟩, hLast, hLastId,
    hLastTitle⟩ := Workspace.load_listedTwice
  have hSettings : Workspace.listedTwice.loadSettings = .ok {} := rfl
  obtain ⟨view, hView, -⟩ :=
    Invocation.triage_shows_ranking { action := .triage 10 } hSettings hBoard true
  obtain ⟨hShows, hExecute⟩ := hView 10
  obtain ⟨row, hRow, hRowShows⟩ :=
    hShows.exists_row hLength hFirst hLast (hFirstId.trans hLastId.symm)
  refine ⟨view 10, row, hRow, hRowShows.isFirst.2.symm.trans hFirstId,
    hRowShows.title.trans hLastTitle, ?_, hExecute⟩
  rw [← Bool.not_eq_true, hRowShows.critical, hPriority]
  exact nofun

/-- A row with a title that its first item does not have. -/
theorem Invocation.triage_titles_later_item :
    let i : Invocation := { action := .triage 10 }
    ∃ (settings : Settings) (board : Board) (view : TriageView) (row : TriageRow)
      (first : WorkItem), Workspace.listedTwice.loadSettings = .ok settings ∧
      Workspace.listedTwice.loadBoard i.items = .ok board ∧
      execute i .listedTwice true = ⟨0, view.render .pretty, ""⟩ ∧
      view.Shows settings.triage.toConfig board 10 ∧
      row ∈ view.rows ∧ board.First first ∧ first.id = row.id ∧ row.title ≠ first.title := by
  intro i
  obtain ⟨board, first, last, hBoard, hLength, ⟨hFirst, hFirstId, hFirstTitle, -⟩, hLast, hLastId,
    hLastTitle⟩ := Workspace.load_listedTwice
  have hSettings : Workspace.listedTwice.loadSettings = .ok {} := rfl
  have hShows := TriageView.shows_of ({} : Settings).triage.toConfig board 10
  obtain ⟨row, hRow, hRowShows⟩ :=
    hShows.exists_row hLength hFirst hLast (hFirstId.trans hLastId.symm)
  have hExecute := Invocation.execute_triage (i := i) rfl hSettings hBoard true
  have hMode : i.mode .listedTwice true = .pretty := rfl
  rw [hMode] at hExecute
  refine ⟨_, board, _, row, first, hSettings, hBoard, hExecute, hShows, hRow, hFirst,
    hRowShows.isFirst.2, ?_⟩
  rw [hRowShows.title, hLastTitle, hFirstTitle]
  decide

end Taskboard
