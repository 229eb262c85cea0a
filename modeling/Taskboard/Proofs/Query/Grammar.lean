import Taskboard.Query.Expr
import Taskboard.Query.Token

/-!
# Taskboard — the grammar of queries

The grammar as data, without a parser: a derivation is a tree of productions, from which the word
that it derives, the tree that it stands for and its deepest nesting are read off.

```text
expression := term (OR term)*
term       := factor (AND factor)*
factor     := NOT factor | FIELD | '(' expression ')'
```

* `Grammar.Expression`, `Grammar.Term`, `Grammar.Factor` — the derivations of the nonterminals;
* `kinds`, `tree`, `nesting` — what is read off them;
* `Grammar.Expression.leaves_tree` — a tree has the predicates of its word as leaves, in order.
-/

namespace Taskboard.Query

theorem Expr.leaves_ne_nil (e : Expr) : e.leaves ≠ [] := by
  induction e with
  | leaf p => simp [Expr.leaves]
  | conj l r ihl _ => simp [Expr.leaves, ihl]
  | disj l r ihl _ => simp [Expr.leaves, ihl]
  | neg e ih => exact ih

/-- The predicate of a term in a query. -/
def Kind.predicate? : Kind → Option Predicate
  | .field name value => some (Predicate.parse name value)
  | _ => none

/-! ## Derivations -/

namespace Grammar

mutual

/-- `expression := term (OR term)*`. A chain grows at its right end. -/
inductive Expression where
  | term (t : Term)
  | or (left : Expression) (right : Term)

/-- `term := factor (AND factor)*`. A chain grows at its right end. -/
inductive Term where
  | factor (f : Factor)
  | and (left : Term) (right : Factor)

/-- `factor := NOT factor | FIELD | '(' expression ')'`. -/
inductive Factor where
  | field (name value : String)
  | not (operand : Factor)
  | paren (inner : Expression)

end

mutual

/-- The word that a derivation derives. -/
def Expression.kinds : Expression → List Kind
  | .term t => t.kinds
  | .or left right => left.kinds ++ .or :: right.kinds

def Term.kinds : Term → List Kind
  | .factor f => f.kinds
  | .and left right => left.kinds ++ .and :: right.kinds

def Factor.kinds : Factor → List Kind
  | .field name value => [.field name value]
  | .not operand => .not :: operand.kinds
  | .paren inner => .leftParen :: (inner.kinds ++ [.rightParen])

end

mutual

/-- The tree of a derivation, chains associated to the left. Parentheses leave no trace in it. -/
def Expression.tree : Expression → Expr
  | .term t => t.tree
  | .or left right => .disj left.tree right.tree

def Term.tree : Term → Expr
  | .factor f => f.tree
  | .and left right => .conj left.tree right.tree

def Factor.tree : Factor → Expr
  | .field name value => .leaf (Predicate.parse name value)
  | .not operand => .neg operand.tree
  | .paren inner => inner.tree

end

mutual

/-- The deepest level at which a derivation has a parenthesis or a negation, zero if it has none.
The level of one that no other encloses is one. -/
def Expression.nesting : Expression → Nat
  | .term t => t.nesting
  | .or left right => max left.nesting right.nesting

def Term.nesting : Term → Nat
  | .factor f => f.nesting
  | .and left right => max left.nesting right.nesting

def Factor.nesting : Factor → Nat
  | .field _ _ => 0
  | .not operand => operand.nesting + 1
  | .paren inner => inner.nesting + 1

end

/-! ## Words and leaves -/

mutual

theorem Expression.endOfQuery_notMem : ∀ d : Expression, Kind.endOfQuery ∉ d.kinds
  | .term t => t.endOfQuery_notMem
  | .or left right => by
    simp [Expression.kinds, left.endOfQuery_notMem, right.endOfQuery_notMem]

theorem Term.endOfQuery_notMem : ∀ t : Term, Kind.endOfQuery ∉ t.kinds
  | .factor f => f.endOfQuery_notMem
  | .and left right => by
    simp [Term.kinds, left.endOfQuery_notMem, right.endOfQuery_notMem]

theorem Factor.endOfQuery_notMem : ∀ f : Factor, Kind.endOfQuery ∉ f.kinds
  | .field name value => by simp [Factor.kinds]
  | .not operand => by simp [Factor.kinds, operand.endOfQuery_notMem]
  | .paren inner => by simp [Factor.kinds, inner.endOfQuery_notMem]

end

mutual

/-- The leaves of a tree are the predicates of its word, in order. -/
theorem Expression.leaves_tree : ∀ d : Expression,
    d.tree.leaves = d.kinds.filterMap Kind.predicate?
  | .term t => t.leaves_tree
  | .or left right => by
    rw [Expression.tree, Expr.leaves, Expression.kinds, List.filterMap_append,
      List.filterMap_cons_none rfl, left.leaves_tree, right.leaves_tree]

theorem Term.leaves_tree : ∀ t : Term, t.tree.leaves = t.kinds.filterMap Kind.predicate?
  | .factor f => f.leaves_tree
  | .and left right => by
    rw [Term.tree, Expr.leaves, Term.kinds, List.filterMap_append, List.filterMap_cons_none rfl,
      left.leaves_tree, right.leaves_tree]

theorem Factor.leaves_tree : ∀ f : Factor, f.tree.leaves = f.kinds.filterMap Kind.predicate?
  | .field name value => rfl
  | .not operand => by
    rw [Factor.tree, Expr.leaves, Factor.kinds, List.filterMap_cons_none rfl, operand.leaves_tree]
  | .paren inner => by
    rw [Factor.tree, Factor.kinds, List.filterMap_cons_none rfl, List.filterMap_append,
      List.filterMap_cons_none rfl, List.filterMap_nil, List.append_nil, inner.leaves_tree]

end

theorem Expression.kinds_ne_nil (d : Expression) : d.kinds ≠ [] := by
  intro h
  have hLeaves := d.leaves_tree
  rw [h] at hLeaves
  exact Expr.leaves_ne_nil d.tree hLeaves

end Grammar

end Taskboard.Query
