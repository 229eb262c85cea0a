import Taskboard.Query.Matching
import Taskboard.Query.Parser

/-!
# Taskboard — filters

A query is compiled once and then applied to many items. A filter lets everything through when
its query is empty or has a fault, so that a query that is still being typed hides nothing.

* `Filter.compile` — the filter of a query, blanks around it taken off;
* `Filter.active?` — the expression that decides, if there is one;
* `Filter.select`, `Filter.accepts` — the items that pass;
* `validate` — the fault of a query.
-/

namespace Taskboard.Query

/-- A query and what parsing it gave. -/
structure Filter where
  query  : String
  parsed : Except ParseError (Option Expr)

namespace Filter

/-- The filter of the empty query. -/
def matchAll : Filter :=
  ⟨"", .ok none⟩

/-- The filter of a query. -/
def compile (text : String) : Filter :=
  let query := Text.trim text
  ⟨query, Expr.parse query⟩

/-- The error of the query. -/
def error? (f : Filter) : Option ParseError :=
  match f.parsed with
  | .ok _ => none
  | .error e => some e

/-- The expression that decides; without one everything passes. -/
def active? (f : Filter) : Option Expr :=
  match f.parsed with
  | .ok e => e
  | .error _ => none

/-- Whether the query has no fault. -/
def isValid (f : Filter) : Bool :=
  f.error?.isNone

/-- Whether the filter is the one of the empty query. -/
def isMatchAll (f : Filter) : Bool :=
  f.query == "" && f.isValid && f.active?.isNone

/-- Whether an item passes. -/
def accepts (f : Filter) (item : WorkItem) : Bool :=
  match f.active? with
  | some e => e.holds item
  | none => true

/-- The items that pass, in their order. -/
def select (f : Filter) (board : Board) : Board :=
  match f.active? with
  | some e => board.filter e.holds
  | none => board

/-- The members that an error adds to a JSON value. -/
def errorMembers : Option ParseError → List (String × Json)
  | some e => [("error", .string e.fault.message), ("errorPosition", .ofNat e.position)]
  | none => []

/-- A filter as a JSON value. -/
def toJson (f : Filter) : Json :=
  .object
    ([("query", .string f.query), ("ast", .ofOption Expr.toJson f.active?),
      ("isValid", .bool f.isValid)] ++ errorMembers f.error?)

end Filter

/-- The fault of a query, blanks around it taken off. -/
def validate (text : String) : Option Fault :=
  match Expr.parse (Text.trim text) with
  | .ok _ => none
  | .error e => some e.fault

end Taskboard.Query
