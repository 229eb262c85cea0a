import Mathlib.Data.List.Forall2
import Taskboard.Proofs.Query.Recognition

/-!
# Taskboard — tokens that correspond

The parser asks of a token only what kind it is. The name and value of a term go into a predicate
that it never looks at, and a position goes into an error. So tokens that correspond are read alike:
as trees of one shape with corresponding predicates, or with errors at corresponding positions. What
it means that predicates correspond, and positions, is left open.

* `Expr.Alike`, `Kind.Alike`, `Token.Alike` — trees, kinds and tokens that correspond;
* `ReadAlike` — results that correspond;
* `factor_alike` — the parser of factors reads tokens alike, with the same levels left;
* `ofTokens_alike` — and so does the parser of queries.
-/

namespace Taskboard.Query

/-! ## What corresponds -/

/-- Trees of one shape whose predicates correspond place by place. -/
inductive Expr.Alike (P : Predicate → Predicate → Prop) : Expr → Expr → Prop
  | leaf {p p'} (predicate : P p p') : Alike P (.leaf p) (.leaf p')
  | conj {l l' r r'} (left : Alike P l l') (right : Alike P r r') :
      Alike P (.conj l r) (.conj l' r')
  | disj {l l' r r'} (left : Alike P l l') (right : Alike P r r') :
      Alike P (.disj l r) (.disj l' r')
  | neg {e e'} (operand : Alike P e e') : Alike P (.neg e) (.neg e')

/-- The same kind of token twice; of terms, the predicates correspond. -/
inductive Kind.Alike (P : Predicate → Predicate → Prop) : Kind → Kind → Prop
  | field {name value name' value'}
      (predicate : P (Predicate.parse name value) (Predicate.parse name' value')) :
      Alike P (.field name value) (.field name' value')
  | and : Alike P .and .and
  | or : Alike P .or .or
  | not : Alike P .not .not
  | leftParen : Alike P .leftParen .leftParen
  | rightParen : Alike P .rightParen .rightParen
  | endOfQuery : Alike P .endOfQuery .endOfQuery

/-- Tokens whose kinds and positions correspond. -/
structure Token.Alike (P : Predicate → Predicate → Prop) (Q : Nat → Nat → Prop) (t t' : Token) :
    Prop where
  kind     : t.kind.Alike P t'.kind
  position : Q t.position t'.position

/-- Results that are values which correspond, or errors at corresponding positions. -/
inductive ReadAlike {α : Type} (Q : Nat → Nat → Prop) (R : α → α → Prop) :
    Except ParseError α → Except ParseError α → Prop
  | ok {a a'} (value : R a a') : ReadAlike Q R (.ok a) (.ok a')
  | error {err err'} (position : Q err.position err'.position) :
      ReadAlike Q R (.error err) (.error err')

/-- What a parser has read, and what it has left. -/
structure PartAlike (P : Predicate → Predicate → Prop) (Q : Nat → Nat → Prop)
    (read read' : Expr × List Token) : Prop where
  tree : read.1.Alike P read'.1
  rest : List.Forall₂ (Token.Alike P Q) read.2 read'.2

/-- Parsers that read tokens which correspond alike. -/
def ParsersAlike (P : Predicate → Predicate → Prop) (Q : Nat → Nat → Prop)
    (p p' : List Token → Parsed) : Prop :=
  ∀ ⦃tokens tokens' : List Token⦄, List.Forall₂ (Token.Alike P Q) tokens tokens' →
    ReadAlike Q (PartAlike P Q) (p tokens) (p' tokens')

theorem Expr.Alike.eq {e e' : Expr} (h : e.Alike Eq e') : e = e' := by
  induction h with
  | leaf hPredicate => rw [hPredicate]
  | conj _ _ ihl ihr => rw [ihl, ihr]
  | disj _ _ ihl ihr => rw [ihl, ihr]
  | neg _ ih => rw [ih]

theorem Kind.alike_refl {P : Predicate → Predicate → Prop} (hP : ∀ p, P p p) (k : Kind) :
    k.Alike P k := by
  cases k with
  | field name value => exact .field (hP _)
  | and => exact .and
  | or => exact .or
  | not => exact .not
  | leftParen => exact .leftParen
  | rightParen => exact .rightParen
  | endOfQuery => exact .endOfQuery

section Parsing

variable {P : Predicate → Predicate → Prop} {Q : Nat → Nat → Prop} {t t' : Token}
  {tokens tokens' : List Token}

/-- Of kinds that correspond both are the operator, or neither is. -/
theorem Kind.Alike.eq_iff {k k' operator : Kind} (h : k.Alike P k')
    (hOperator : operator.predicate? = none) : k = operator ↔ k' = operator := by
  cases h with
  | field =>
    -- a term is no operator, whatever its name and value
    constructor
    all_goals
      rintro rfl
      cases hOperator
  | _ => exact Iff.rfl

theorem ReadAlike.bind {α β : Type} {R : α → α → Prop} {S : β → β → Prop}
    {x x' : Except ParseError α} {f f' : α → Except ParseError β} (h : ReadAlike Q R x x')
    (hf : ∀ {a a'}, R a a' → ReadAlike Q S (f a) (f' a')) :
    ReadAlike Q S (x.bind f) (x'.bind f') := by
  cases h with
  | ok hValue => exact hf hValue
  | error hPosition => exact .error hPosition

theorem peek_alike {finish finish' : Nat} (hFinish : Q finish finish')
    (h : List.Forall₂ (Token.Alike P Q) tokens tokens') :
    (peek finish tokens).Alike P Q (peek finish' tokens') := by
  cases h with
  | nil => exact ⟨.endOfQuery, hFinish⟩
  | cons hHead _ => exact hHead

theorem tail_alike (h : List.Forall₂ (Token.Alike P Q) tokens tokens') :
    List.Forall₂ (Token.Alike P Q) tokens.tail tokens'.tail := by
  cases h with
  | nil => exact .nil
  | cons _ hTail => exact hTail

/-! ## Chains -/

section Chains

variable {operator : Kind} {join : Expr → Expr → Expr} {p p' : List Token → Parsed}

theorem chainFrom_alike (hp : ParsersAlike P Q p p') (hOperator : operator.predicate? = none)
    (hJoin : ∀ {l l' r r'}, Expr.Alike P l l' → Expr.Alike P r r' →
      Expr.Alike P (join l r) (join l' r'))
    (fuel : Nat) {left left' : Expr} (hLeft : left.Alike P left')
    (h : List.Forall₂ (Token.Alike P Q) tokens tokens') :
    ReadAlike Q (PartAlike P Q) (chainFrom operator join p fuel left tokens)
      (chainFrom operator join p' fuel left' tokens') := by
  induction fuel generalizing left left' tokens tokens' with
  | zero => exact .ok ⟨hLeft, h⟩
  | succ fuel ih =>
    cases h with
    | nil => exact .ok ⟨hLeft, .nil⟩
    | @cons t t' rest rest' hHead hTail =>
      have hSame := hHead.kind.eq_iff hOperator
      by_cases ht : t.kind = operator
      · -- one more round on both sides: an operand, and the rest of the chain
        rw [chainFrom_cons ht, chainFrom_cons (hSame.mp ht)]
        refine (hp hTail).bind fun hRead => ?_
        exact ih (hJoin hLeft hRead.tree) hRead.rest
      · rw [chainFrom, if_neg ht, chainFrom, if_neg (mt hSame.mpr ht)]
        exact .ok ⟨hLeft, .cons hHead hTail⟩

theorem chain_alike (hp : ParsersAlike P Q p p') (hOperator : operator.predicate? = none)
    (hJoin : ∀ {l l' r r'}, Expr.Alike P l l' → Expr.Alike P r r' →
      Expr.Alike P (join l r) (join l' r')) :
    ParsersAlike P Q (chain operator join p) (chain operator join p') := by
  intro tokens tokens' h
  refine (hp h).bind fun {read read'} hRead => ?_
  show ReadAlike Q (PartAlike P Q) (chainFrom operator join p read.2.length read.1 read.2)
    (chainFrom operator join p' read'.2.length read'.1 read'.2)
  -- the fuel is the number of tokens left, which is the same on both sides
  rw [hRead.rest.length_eq]
  exact chainFrom_alike hp hOperator hJoin _ hRead.tree hRead.rest

theorem expression_alike (hp : ParsersAlike P Q p p') :
    ParsersAlike P Q (expression p) (expression p') := by
  have hConj : ParsersAlike P Q (chain .and .conj p) (chain .and .conj p') :=
    chain_alike hp rfl .conj
  exact chain_alike hConj rfl .disj

end Chains

/-! ## Factors -/

section Factors

variable {finish finish' : Nat}

theorem closeParen_alike (hFinish : Q finish finish') {opened opened' : Nat} {inner inner' : Expr}
    (hInner : inner.Alike P inner') (h : List.Forall₂ (Token.Alike P Q) tokens tokens') :
    ReadAlike Q (PartAlike P Q) (closeParen finish opened inner tokens)
      (closeParen finish' opened' inner' tokens') := by
  have hNext := peek_alike hFinish h
  have hSame :
      (peek finish tokens).kind = .rightParen ↔ (peek finish' tokens').kind = .rightParen :=
    hNext.kind.eq_iff rfl
  unfold closeParen
  by_cases hClose : (peek finish tokens).kind = .rightParen
  · rw [if_pos hClose, if_pos (hSame.mp hClose)]
    exact .ok ⟨hInner, tail_alike h⟩
  · rw [if_neg hClose, if_neg (mt hSame.mpr hClose)]
    exact .error hNext.position

/-- **The parser of factors reads tokens alike**, with the same levels left. -/
theorem factor_alike (hFinish : Q finish finish') (levels : Nat) :
    ParsersAlike P Q (factor finish levels) (factor finish' levels) := by
  -- the operand of a factor, and the factors between parentheses, have a level less
  induction levels using Nat.strongRecOn with
  | ind levels ih =>
    intro tokens tokens' h
    obtain ⟨hKind, hPosition⟩ := peek_alike hFinish h
    rw [factor.eq_def, factor.eq_def]
    dsimp only
    revert hKind
    generalize (peek finish tokens).kind = k, (peek finish' tokens').kind = k'
    intro hKind
    cases hKind with
    | field hPredicate => exact .ok ⟨.leaf hPredicate, tail_alike h⟩
    | not =>
      cases levels with
      | zero => exact .error hPosition
      | succ fewer =>
        have hOperand := ih fewer (Nat.lt_succ_self _) (tail_alike h)
        exact hOperand.bind fun hRead => .ok ⟨.neg hRead.tree, hRead.rest⟩
    | leftParen =>
      cases levels with
      | zero => exact .error hPosition
      | succ fewer =>
        have hInner := expression_alike (ih fewer (Nat.lt_succ_self _)) (tail_alike h)
        exact hInner.bind fun hRead => closeParen_alike hFinish hRead.tree hRead.rest
    | _ => exact .error hPosition

end Factors

/-! ## Queries -/

theorem lastPosition_cons (t : Token) (rest : List Token) (start : Nat) :
    ((t :: rest).getLast?.map Token.position).getD start =
      (rest.getLast?.map Token.position).getD t.position := by
  rw [List.getLast?_cons]
  cases rest.getLast? <;> rfl

/-- The positions of the last tokens correspond. -/
theorem lastPosition_alike (h : List.Forall₂ (Token.Alike P Q) tokens tokens') {start start' : Nat}
    (hStart : Q start start') :
    Q ((tokens.getLast?.map Token.position).getD start)
      ((tokens'.getLast?.map Token.position).getD start') := by
  induction h generalizing start start' with
  | nil => exact hStart
  | cons hHead _ ih =>
    rw [lastPosition_cons, lastPosition_cons]
    exact ih hHead.position

/--
**Tokens that correspond are read alike**: as nothing, as trees of one shape with corresponding
predicates, or with errors at corresponding positions.
-/
theorem ofTokens_alike (h : List.Forall₂ (Token.Alike P Q) tokens tokens') :
    ReadAlike Q (Option.Rel (Expr.Alike P)) (Expr.ofTokens tokens) (Expr.ofTokens tokens') := by
  cases h with
  | nil => exact .ok .none
  | @cons t t' rest rest' hHead hTail =>
    have hTokens : List.Forall₂ (Token.Alike P Q) (t :: rest) (t' :: rest') := .cons hHead hTail
    have hFinish := lastPosition_alike hTail hHead.position
    have hFirst := peek_alike hFinish hTokens
    have hSame : _ = Kind.endOfQuery ↔ _ = Kind.endOfQuery := hFirst.kind.eq_iff rfl
    unfold Expr.ofTokens
    simp only [lastPosition_cons]
    split
    · rename_i hEnd
      rw [if_pos (hSame.mp hEnd)]
      exact .ok .none
    · rename_i hMore
      rw [if_neg (mt hSame.mpr hMore)]
      have hRead := expression_alike (factor_alike hFinish maxNesting) hTokens
      refine hRead.bind fun {read read'} hPart => ?_
      -- what is left is the end on both sides, or goes on behind both expressions
      have hNext := peek_alike hFinish hPart.rest
      have hBoth : _ = Kind.endOfQuery ↔ _ = Kind.endOfQuery := hNext.kind.eq_iff rfl
      split
      · rename_i hDone
        rw [if_pos (hBoth.mp hDone)]
        exact .ok (.some hPart.tree)
      · rename_i hMore
        rw [if_neg (mt hBoth.mpr hMore)]
        exact .error hNext.position

end Parsing

end Taskboard.Query
