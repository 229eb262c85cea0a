import Taskboard.Query.Expr
import Taskboard.Query.Token

/-!
# Taskboard — parsing queries

```text
expression := term (OR term)*
term       := factor (AND factor)*
factor     := NOT factor | FIELD | '(' expression ')'
```

Both chains associate to the left. Parentheses and negations may enclose one another up to
`maxNesting` levels; the parser carries the levels that are left, and its recursion is on them.

* `ParseError` — what is wrong, and where;
* `chain` — a chain of operands joined by an operator;
* `factor` — the innermost level of the grammar;
* `Expr.ofTokens` — the expression of a list of tokens, absent for an empty query;
* `Expr.parse` — the expression of a text.
-/

namespace Taskboard.Query

/-- How many parentheses and negations may enclose one another. -/
def maxNesting : Nat := 128

/-! ## Errors -/

/-- What is wrong with a query. -/
inductive Fault where
  /-- The query goes on behind a complete expression. -/
  | trailing (found : Kind)
  /-- A parenthesis or negation beyond the last level. -/
  | tooDeep
  /-- Something else stands where a parenthesis should close. -/
  | unclosed (opened : Nat) (found : Kind)
  /-- A parenthesis closes that was not opened. -/
  | strayParen
  /-- Something else stands where an operand should. -/
  | missingTerm (found : Kind)
  deriving DecidableEq, Repr

/-- The wording of a fault. -/
def Fault.message : Fault → String
  | .trailing found => "Unexpected " ++ found.describe ++ " after end of expression"
  | .tooDeep => "Query nests deeper than " ++ toString maxNesting ++ " levels"
  | .unclosed opened found =>
    "Expected closing parenthesis ')' for '(' at position " ++ toString opened ++ ", found " ++
      found.describe
  | .strayParen => "Unexpected ')'"
  | .missingTerm found => "Unexpected " ++ found.describe ++ ", expected a term"

/-- A fault and the position of the token at which it shows. -/
structure ParseError where
  fault    : Fault
  position : Nat
  deriving DecidableEq, Repr

/-- The wording of a fault with its position. -/
def ParseError.render (e : ParseError) : String :=
  e.fault.message ++ " (at position " ++ toString e.position ++ ")"

/-! ## The grammar -/

/-- What a parser returns: an expression and the tokens behind it, or an error. -/
abbrev Parsed := Except ParseError (Expr × List Token)

/-- The next token. Behind the last one the query ends, at the position `finish`. -/
def peek (finish : Nat) : List Token → Token
  | [] => ⟨.endOfQuery, finish⟩
  | t :: _ => t

/-- Goes on with a chain whose part so far is `left`. Each round consumes an operator, so `fuel`
need not exceed the number of tokens. -/
def chainFrom (operator : Kind) (join : Expr → Expr → Expr) (operand : List Token → Parsed) :
    Nat → Expr → List Token → Parsed
  | fuel + 1, left, t :: rest =>
    if t.kind = operator then do
      let (right, rest) ← operand rest
      -- what has been read so far becomes the left operand
      chainFrom operator join operand fuel (join left right) rest
    else .ok (left, t :: rest)
  | _, left, rest => .ok (left, rest)

/-- A chain of operands, joined to the left. -/
def chain (operator : Kind) (join : Expr → Expr → Expr) (operand : List Token → Parsed)
    (tokens : List Token) : Parsed := do
  let (left, rest) ← operand tokens
  chainFrom operator join operand rest.length left rest

/-- A disjunction of conjunctions of factors. -/
def expression (factor : List Token → Parsed) : List Token → Parsed :=
  chain .or .disj (chain .and .conj factor)

/-- The closing parenthesis of an expression that was opened at a position. -/
def closeParen (finish opened : Nat) (inner : Expr) (tokens : List Token) : Parsed :=
  let next := peek finish tokens
  if next.kind = .rightParen then .ok (inner, tokens.tail)
  else .error ⟨.unclosed opened next.kind, next.position⟩

/-- A factor, with `levels` levels of parentheses and negations left. -/
def factor (finish : Nat) : Nat → List Token → Parsed
  | levels, tokens =>
    let next := peek finish tokens
    match next.kind with
    | .field name value => .ok (.leaf (Predicate.parse name value), tokens.tail)
    | .not =>
      -- a level is spent before the operand is looked at
      match levels with
      | 0 => .error ⟨.tooDeep, next.position⟩
      | levels + 1 => do
        let (operand, rest) ← factor finish levels tokens.tail
        .ok (.neg operand, rest)
    | .leftParen =>
      match levels with
      | 0 => .error ⟨.tooDeep, next.position⟩
      | levels + 1 => do
        let (inner, rest) ← expression (factor finish levels) tokens.tail
        closeParen finish next.position inner rest
    | .rightParen => .error ⟨.strayParen, next.position⟩
    | .and => .error ⟨.missingTerm .and, next.position⟩
    | .or => .error ⟨.missingTerm .or, next.position⟩
    | .endOfQuery => .error ⟨.missingTerm .endOfQuery, next.position⟩

/-! ## Queries -/

/-- The expression of a list of tokens, `none` if no token stands before the end of the query. A
list that lacks the end is read as if it stood behind the last token, at that token's position. -/
def Expr.ofTokens (tokens : List Token) : Except ParseError (Option Expr) :=
  let finish := (tokens.getLast?.map Token.position).getD 0
  if (peek finish tokens).kind = .endOfQuery then .ok none
  else do
    let (e, rest) ← expression (factor finish maxNesting) tokens
    let next := peek finish rest
    -- a complete expression must be all there is
    if next.kind = .endOfQuery then .ok (some e)
    else .error ⟨.trailing next.kind, next.position⟩

/-- The expression of a query, `none` for an empty one. -/
def Expr.parse (text : String) : Except ParseError (Option Expr) :=
  Expr.ofTokens (tokenize text)

end Taskboard.Query
