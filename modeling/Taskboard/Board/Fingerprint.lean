import Taskboard.Board.Item

/-!
# Taskboard — the structure of a board as a text

Triage depends on ids, priorities and links alone. The fingerprint writes down just these, item by
item in the order of the board, each list of links in ascending order. Every id stands behind its
length in bytes, so that an id may contain any of the separators.

* `framed` — an id behind its length;
* `WorkItem.outline` — one item: id, ordinal, blockers, blocked items;
* `fingerprint` — a board.
-/

namespace Taskboard

/-- An id behind its length in UTF-8 bytes. -/
def framed (id : String) : String :=
  toString id.utf8ByteSize ++ ":" ++ id

/-- A list of links, whatever the order in which they are given. -/
def outlineLinks (ids : List String) : String :=
  ",".intercalate ((sortIds ids).map framed)

/-- The structure of one item. -/
def WorkItem.outline (item : WorkItem) : String :=
  "|".intercalate
    [framed item.id, toString item.priority.ordinal, outlineLinks item.blockers,
     outlineLinks item.blockedItems]

/-- The structure of a board. -/
def fingerprint (board : Board) : String :=
  ";".intercalate (board.map WorkItem.outline)

end Taskboard
