import Taskboard.Query.Predicate

/-!
# Taskboard — query expressions

* `Expr` — a boolean combination of predicates;
* `Expr.render` — its text, every connective between two expressions in parentheses;
* `Expr.size` — the number of its predicates;
* `Expr.height` — the connectives on the longest way from the root to a predicate.
-/

namespace Taskboard.Query

/-- A query: predicates joined by and, or and not. -/
inductive Expr where
  | leaf (p : Predicate)
  | conj (left right : Expr)
  | disj (left right : Expr)
  | neg (operand : Expr)
  deriving DecidableEq, Repr

namespace Expr

/-- The number of predicates. -/
def size : Expr → Nat
  | .leaf _ => 1
  | .conj l r => l.size + r.size
  | .disj l r => l.size + r.size
  | .neg e => e.size

/-- The number of connectives on the longest way to a predicate. -/
def height : Expr → Nat
  | .leaf _ => 0
  | .conj l r => max l.height r.height + 1
  | .disj l r => max l.height r.height + 1
  | .neg e => e.height + 1

/-- The predicates from left to right. -/
def leaves : Expr → List Predicate
  | .leaf p => [p]
  | .conj l r => l.leaves ++ r.leaves
  | .disj l r => l.leaves ++ r.leaves
  | .neg e => e.leaves

/-- An expression as a query. -/
def render : Expr → String
  | .leaf p => p.render
  | .conj l r => "(" ++ l.render ++ " AND " ++ r.render ++ ")"
  | .disj l r => "(" ++ l.render ++ " OR " ++ r.render ++ ")"
  | .neg e => "NOT " ++ e.render

/-- An expression as a JSON value, tagged by its connective. -/
def toJson : Expr → Json
  | .leaf p => .object (("type", .string "field") :: p.members)
  | .conj l r => .object [("type", .string "and"), ("left", l.toJson), ("right", r.toJson)]
  | .disj l r => .object [("type", .string "or"), ("left", l.toJson), ("right", r.toJson)]
  | .neg e => .object [("type", .string "not"), ("operand", e.toJson)]

end Expr

end Taskboard.Query
