import Taskboard.Proofs.Query.Grammar
import Taskboard.Query.Parser

/-!
# Taskboard — the parser accepts the grammar

A parser **reads** a language (`Reads`) if it takes a word of the language from the front of the
tokens exactly when what follows does not go on with it. That is what an induction over the parser
can carry: every loop stops where the grammar says that a chain ends, and what is left begins with
the token at which it stopped.

* `Reads.chained` — a chain of operands is read if its operands are, whatever the operands;
* `reads_factor`, `Reads.expressions` — the parsers of the nonterminals read their derivations;
* `Grammar.Expression.tree_unique` — a word has one tree;
* `ofTokens_reads_grammar` — what a list of tokens is read as: nothing, the tree of its derivation,
  or an error.
-/

namespace Taskboard.Query

/-! ## Reading a language -/

/-- Words with the trees they stand for. -/
abbrev Language := List Kind → Expr → Prop

/-- Tokens that end or begin with none of some kinds. -/
def StopsBefore (kinds : List Kind) (rest : List Token) : Prop :=
  ∀ t ∈ rest.head?, t.kind ∉ kinds

theorem stopsBefore_cons {kinds : List Kind} {t : Token} {rest : List Token} :
    StopsBefore kinds (t :: rest) ↔ t.kind ∉ kinds := by
  simp [StopsBefore]

theorem stopsBefore_cons_kinds {k : Kind} {kinds : List Kind} {rest : List Token} :
    StopsBefore (k :: kinds) rest ↔ StopsBefore [k] rest ∧ StopsBefore kinds rest := by
  cases rest with
  | nil => simp [StopsBefore]
  | cons t rest => simp [stopsBefore_cons]

theorem stopsBefore_nil_kinds (rest : List Token) : StopsBefore [] rest := by
  simp [StopsBefore]

theorem stopsBefore_or_cons (k : Kind) (tokens : List Token) :
    StopsBefore [k] tokens ∨ ∃ t rest, tokens = t :: rest ∧ t.kind = k := by
  cases tokens with
  | nil => exact Or.inl (by simp [StopsBefore])
  | cons t rest =>
    by_cases ht : t.kind = k
    · exact Or.inr ⟨t, rest, rfl, ht⟩
    · exact Or.inl (stopsBefore_cons.mpr (by simpa using ht))

theorem bind_eq_ok {ε α β : Type} {x : Except ε α} {f : α → Except ε β} {b : β} :
    x.bind f = .ok b ↔ ∃ a, x = .ok a ∧ f a = .ok b := by
  cases x with
  | error err => simp [Except.bind]
  | ok a => simp [Except.bind]

/-- A parser that takes the words of a language from the front of the tokens, with their trees, and
leaves what does not go on with the word. -/
structure Reads (D : Language) (goesOn : List Kind) (p : List Token → Parsed) : Prop where
  sound    : ∀ {tokens rest : List Token} {e : Expr}, p tokens = .ok (e, rest) →
    ∃ front, tokens = front ++ rest ∧ D (front.map Token.kind) e ∧ StopsBefore goesOn rest
  complete : ∀ {front rest : List Token} {e : Expr}, D (front.map Token.kind) e →
    StopsBefore goesOn rest → p (front ++ rest) = .ok (e, rest)

theorem Reads.length_le {D : Language} {goesOn : List Kind} {p : List Token → Parsed}
    (hp : Reads D goesOn p) {tokens rest : List Token} {e : Expr} (h : p tokens = .ok (e, rest)) :
    rest.length ≤ tokens.length := by
  obtain ⟨front, rfl, -, -⟩ := hp.sound h
  rw [List.length_append]
  omega

/-! ## Chains -/

/-- The chains over a language: operands joined by an operator, to the left. -/
inductive Chained (operator : Kind) (join : Expr → Expr → Expr) (D : Language) : Language
  | one {w e} : D w e → Chained operator join D w e
  | snoc {w v l r} : Chained operator join D w l → D v r →
      Chained operator join D (w ++ operator :: v) (join l r)

section Chains

variable {operator : Kind} {join : Expr → Expr → Expr} {D : Language} {goesOn : List Kind}
  {p : List Token → Parsed}

theorem chainFrom_of_stopsBefore {fuel : Nat} {left : Expr} {tokens : List Token}
    (h : StopsBefore [operator] tokens) :
    chainFrom operator join p fuel left tokens = .ok (left, tokens) := by
  cases fuel with
  | zero => rfl
  | succ fuel =>
    cases tokens with
    | nil => rfl
    | cons t rest =>
      have hKind : t.kind ≠ operator := by
        simpa using stopsBefore_cons.mp h
      rw [chainFrom, if_neg hKind]

theorem chainFrom_cons {fuel : Nat} {left : Expr} {t : Token} {rest : List Token}
    (ht : t.kind = operator) :
    chainFrom operator join p (fuel + 1) left (t :: rest) =
      (p rest).bind fun read => chainFrom operator join p fuel (join left read.1) read.2 := by
  rw [chainFrom, if_pos ht]
  rfl

/-- More fuel than tokens changes nothing. -/
theorem chainFrom_fuel (hp : Reads D goesOn p) (n m : Nat) (left : Expr) (tokens : List Token)
    (hn : tokens.length ≤ n) (hm : tokens.length ≤ m) :
    chainFrom operator join p n left tokens = chainFrom operator join p m left tokens := by
  induction n generalizing m left tokens with
  | zero =>
    obtain rfl := List.length_eq_zero_iff.mp (Nat.le_zero.mp hn)
    cases m <;> rfl
  | succ n ih =>
    cases tokens with
    | nil => cases m <;> rfl
    | cons t rest =>
      obtain ⟨m, rfl⟩ : ∃ k, m = k + 1 := ⟨m - 1, by rw [List.length_cons] at hm; omega⟩
      rw [List.length_cons] at hn hm
      by_cases ht : t.kind = operator
      · rw [chainFrom_cons ht, chainFrom_cons ht]
        cases hRead : p rest with
        | error err => rfl
        | ok read =>
          have hLe := hp.length_le hRead
          exact ih m (join left read.1) read.2 (by omega) (by omega)
      · rw [chainFrom, if_neg ht, chainFrom, if_neg ht]

/-- What is read of a chain whose part so far is `left` goes on with that part, and ends where
neither an operator nor more of an operand comes. -/
theorem chainFrom_sound (hp : Reads D goesOn p) {fuel : Nat} {left e : Expr}
    {tokens rest : List Token} {w : List Kind} (hFuel : tokens.length ≤ fuel)
    (hLeft : Chained operator join D w left) (hStop : StopsBefore goesOn tokens)
    (h : chainFrom operator join p fuel left tokens = .ok (e, rest)) :
    ∃ front, tokens = front ++ rest ∧ Chained operator join D (w ++ front.map Token.kind) e ∧
      StopsBefore (operator :: goesOn) rest := by
  induction fuel generalizing left tokens w with
  | zero =>
    -- no fuel is left, but no token either
    obtain rfl := List.length_eq_zero_iff.mp (Nat.le_zero.mp hFuel)
    cases h
    exact ⟨[], rfl, by simpa using hLeft, by simp [StopsBefore]⟩
  | succ fuel ih =>
    rcases stopsBefore_or_cons operator tokens with hEnd | ⟨t, more, rfl, ht⟩
    · rw [chainFrom_of_stopsBefore hEnd] at h
      cases h
      exact ⟨[], rfl, by simpa using hLeft, stopsBefore_cons_kinds.mpr ⟨hEnd, hStop⟩⟩
    · rw [chainFrom_cons ht] at h
      obtain ⟨⟨right, after⟩, hRead, hMore⟩ := bind_eq_ok.mp h
      obtain ⟨front, rfl, hRight, hAfter⟩ := hp.sound hRead
      rw [List.length_cons, List.length_append] at hFuel
      -- the operand that was read extends the part so far
      obtain ⟨front', rfl, hChain, hEnd⟩ := ih (by omega) (hLeft.snoc hRight) hAfter hMore
      refine ⟨t :: front ++ front', by simp, ?_, hEnd⟩
      simpa [ht] using hChain

/-- A parser of chains that has read a chain goes on behind it. -/
theorem chain_eq_chainFrom (hp : Reads D goesOn p) (hOperator : operator ∉ goesOn)
    {w : List Kind} {e : Expr} (h : Chained operator join D w e) {front rest : List Token}
    (hFront : front.map Token.kind = w) (hStop : StopsBefore goesOn rest) :
    chain operator join p (front ++ rest) = chainFrom operator join p rest.length e rest := by
  induction h generalizing front rest with
  | one hOne =>
    rw [← hFront] at hOne
    rw [chain, hp.complete hOne hStop]
    rfl
  | @snoc w v l r hLeft hRight ih =>
    obtain ⟨before, behind, rfl, hBefore, hBehind⟩ := List.map_eq_append_iff.mp hFront
    obtain ⟨t, after, rfl, ht, hAfter⟩ := List.map_eq_cons_iff.mp hBehind
    have hStops : StopsBefore goesOn (t :: after ++ rest) :=
      stopsBefore_cons.mpr (ht ▸ hOperator)
    rw [← hAfter] at hRight
    -- the chain up to the last operator is read, then that operator and its operand
    rw [List.append_assoc, ih hBefore hStops, List.cons_append, List.length_cons, chainFrom_cons ht,
      hp.complete hRight hStop]
    exact chainFrom_fuel hp _ _ _ _ (by simp) (Nat.le_refl _)

/-- **A chain is read if its operands are.** Its operator must not go on with an operand. -/
theorem Reads.chained (hp : Reads D goesOn p) (hOperator : operator ∉ goesOn) :
    Reads (Chained operator join D) (operator :: goesOn) (chain operator join p) where
  sound := by
    intro tokens rest e h
    obtain ⟨⟨left, after⟩, hRead, hMore⟩ := bind_eq_ok.mp h
    obtain ⟨front, rfl, hLeft, hAfter⟩ := hp.sound hRead
    obtain ⟨front', rfl, hChain, hEnd⟩ :=
      chainFrom_sound hp (Nat.le_refl _) (Chained.one hLeft) hAfter hMore
    exact ⟨front ++ front', by simp, by simpa using hChain, hEnd⟩
  complete := by
    intro front rest e h hStop
    obtain ⟨hEnd, hGoesOn⟩ := stopsBefore_cons_kinds.mp hStop
    rw [chain_eq_chainFrom hp hOperator h rfl hGoesOn, chainFrom_of_stopsBefore hEnd]

end Chains

/-! ## The nonterminals -/

namespace Grammar

/-- The words of expressions with their trees, nested to some levels at most. -/
def Expression.Derives (levels : Nat) : Language := fun w e =>
  ∃ d : Expression, d.kinds = w ∧ d.tree = e ∧ d.nesting ≤ levels

/-- The words of terms with their trees, nested to some levels at most. -/
def Term.Derives (levels : Nat) : Language := fun w e =>
  ∃ t : Term, t.kinds = w ∧ t.tree = e ∧ t.nesting ≤ levels

/-- The words of factors with their trees, nested to some levels at most. -/
def Factor.Derives (levels : Nat) : Language := fun w e =>
  ∃ f : Factor, f.kinds = w ∧ f.tree = e ∧ f.nesting ≤ levels

variable {levels : Nat}

theorem Term.chained : ∀ t : Term, t.nesting ≤ levels →
    Chained .and .conj (Factor.Derives levels) t.kinds t.tree
  | .factor f, h => .one ⟨f, rfl, rfl, h⟩
  | .and left right, h => by
    rw [Term.nesting, Nat.max_le] at h
    exact .snoc (Term.chained left h.1) ⟨right, rfl, rfl, h.2⟩

theorem Expression.chained : ∀ d : Expression, d.nesting ≤ levels →
    Chained .or .disj (Term.Derives levels) d.kinds d.tree
  | .term t, h => .one ⟨t, rfl, rfl, h⟩
  | .or left right, h => by
    rw [Expression.nesting, Nat.max_le] at h
    exact .snoc (Expression.chained left h.1) ⟨right, rfl, rfl, h.2⟩

theorem chained_factor : Chained .and .conj (Factor.Derives levels) = Term.Derives levels := by
  funext w e
  rw [eq_iff_iff]
  constructor
  · intro h
    induction h with
    | one hOne =>
      obtain ⟨f, rfl, rfl, hLevels⟩ := hOne
      exact ⟨.factor f, rfl, rfl, hLevels⟩
    | snoc _ hRight ih =>
      obtain ⟨t, rfl, rfl, hLeft⟩ := ih
      obtain ⟨f, rfl, rfl, hLevels⟩ := hRight
      exact ⟨.and t f, rfl, rfl, Nat.max_le.mpr ⟨hLeft, hLevels⟩⟩
  · rintro ⟨t, rfl, rfl, hLevels⟩
    exact t.chained hLevels

theorem chained_term : Chained .or .disj (Term.Derives levels) = Expression.Derives levels := by
  funext w e
  rw [eq_iff_iff]
  constructor
  · intro h
    induction h with
    | one hOne =>
      obtain ⟨t, rfl, rfl, hLevels⟩ := hOne
      exact ⟨.term t, rfl, rfl, hLevels⟩
    | snoc _ hRight ih =>
      obtain ⟨d, rfl, rfl, hLeft⟩ := ih
      obtain ⟨t, rfl, rfl, hLevels⟩ := hRight
      exact ⟨.or d t, rfl, rfl, Nat.max_le.mpr ⟨hLeft, hLevels⟩⟩
  · rintro ⟨d, rfl, rfl, hLevels⟩
    exact d.chained hLevels

end Grammar

open Grammar

/-- The parser of expressions reads them if the parser of factors does. -/
theorem Reads.expressions {levels : Nat} {p : List Token → Parsed}
    (hp : Reads (Factor.Derives levels) [] p) :
    Reads (Expression.Derives levels) [.or, .and] (expression p) := by
  have hTerm : Reads (Term.Derives levels) [.and] (chain .and .conj p) :=
    chained_factor ▸ hp.chained (by simp)
  exact chained_term ▸ hTerm.chained (by simp)

section Factors

variable {finish levels : Nat} {t : Token} {tokens rest : List Token} {e : Expr}

theorem factor_field {name value : String} (ht : t.kind = .field name value) :
    factor finish levels (t :: rest) = .ok (.leaf (Predicate.parse name value), rest) := by
  rw [factor.eq_def]
  simp only [peek, ht, List.tail_cons]

theorem factor_not (ht : t.kind = .not) :
    factor finish (levels + 1) (t :: rest) =
      (factor finish levels rest).bind fun read => .ok (.neg read.1, read.2) := by
  rw [factor.eq_def]
  simp only [peek, ht, List.tail_cons]
  rfl

theorem factor_leftParen (ht : t.kind = .leftParen) :
    factor finish (levels + 1) (t :: rest) =
      (expression (factor finish levels) rest).bind fun read =>
        closeParen finish t.position read.1 read.2 := by
  rw [factor.eq_def]
  simp only [peek, ht, List.tail_cons]
  rfl

theorem closeParen_eq_ok {opened : Nat} {inner : Expr}
    (h : closeParen finish opened inner tokens = .ok (e, rest)) :
    inner = e ∧ ∃ close, tokens = close :: rest ∧ close.kind = .rightParen := by
  cases tokens with
  | nil => cases h
  | cons close tokens =>
    rw [closeParen, peek] at h
    split at h
    · rename_i hClose
      cases h
      exact ⟨rfl, close, rfl, hClose⟩
    · cases h

/-- **All the ways in which a factor is read.** -/
theorem factor_cases (h : factor finish levels tokens = .ok (e, rest)) :
    (∃ t name value, tokens = t :: rest ∧ t.kind = .field name value ∧
      e = .leaf (Predicate.parse name value)) ∨
    (∃ t more fewer operand, tokens = t :: more ∧ t.kind = .not ∧ levels = fewer + 1 ∧
      factor finish fewer more = .ok (operand, rest) ∧ e = .neg operand) ∨
    (∃ t more fewer close, tokens = t :: more ∧ t.kind = .leftParen ∧ levels = fewer + 1 ∧
      expression (factor finish fewer) more = .ok (e, close :: rest) ∧
      close.kind = .rightParen) := by
  cases tokens with
  | nil =>
    rw [factor.eq_def] at h
    cases h
  | cons t more =>
    cases ht : t.kind with
    | field name value =>
      rw [factor_field ht] at h
      cases h
      exact Or.inl ⟨t, name, value, rfl, ht, rfl⟩
    | not =>
      cases levels with
      | zero =>
        rw [factor.eq_def] at h
        simp only [peek, ht] at h
        cases h
      | succ fewer =>
        rw [factor_not ht] at h
        obtain ⟨⟨operand, after⟩, hRead, hOk⟩ := bind_eq_ok.mp h
        cases hOk
        exact Or.inr (Or.inl ⟨t, more, fewer, operand, rfl, ht, rfl, hRead, rfl⟩)
    | leftParen =>
      cases levels with
      | zero =>
        rw [factor.eq_def] at h
        simp only [peek, ht] at h
        cases h
      | succ fewer =>
        rw [factor_leftParen ht] at h
        obtain ⟨⟨inner, after⟩, hRead, hOk⟩ := bind_eq_ok.mp h
        obtain ⟨rfl, close, rfl, hClose⟩ := closeParen_eq_ok hOk
        exact Or.inr (Or.inr ⟨t, more, fewer, close, rfl, ht, rfl, hRead, hClose⟩)
    | _ =>
      rw [factor.eq_def] at h
      simp only [peek, ht] at h
      cases h

end Factors

section Levels

variable {finish levels : Nat}

/-- What a factor has been read from derives from `factor`. -/
theorem factor_sound
    (hFewer : ∀ fewer < levels, Reads (Factor.Derives fewer) [] (factor finish fewer))
    {tokens rest : List Token} {e : Expr} (h : factor finish levels tokens = .ok (e, rest)) :
    ∃ front, tokens = front ++ rest ∧ Factor.Derives levels (front.map Token.kind) e := by
  rcases factor_cases h with ⟨t, name, value, rfl, ht, rfl⟩ |
    ⟨t, more, fewer, operand, rfl, ht, rfl, hRead, rfl⟩ |
    ⟨t, more, fewer, close, rfl, ht, rfl, hRead, hClose⟩
  · have hKinds : (Factor.field name value).kinds = [t].map Token.kind := by
      rw [List.map_cons, List.map_nil, ht]
      rfl
    exact ⟨[t], rfl, .field name value, hKinds, rfl, Nat.zero_le _⟩
  · have hOperand := hFewer fewer (Nat.lt_succ_self _)
    obtain ⟨front, rfl, ⟨f, hKinds, rfl, hLevels⟩, -⟩ := hOperand.sound hRead
    refine ⟨t :: front, rfl, .not f, ?_, rfl, Nat.succ_le_succ hLevels⟩
    rw [Factor.kinds, hKinds, List.map_cons, ht]
  · have hInner := (hFewer fewer (Nat.lt_succ_self _)).expressions
    obtain ⟨front, rfl, ⟨d, hKinds, rfl, hLevels⟩, -⟩ := hInner.sound hRead
    -- the word of the factor goes on to the closing parenthesis, which was left
    refine ⟨t :: (front ++ [close]), by simp, .paren d, ?_, rfl, Nat.succ_le_succ hLevels⟩
    rw [Factor.kinds, hKinds, List.map_cons, List.map_append, List.map_singleton, ht, hClose]

/-- What derives from `factor` is read, whatever follows. -/
theorem factor_complete
    (hFewer : ∀ fewer < levels, Reads (Factor.Derives fewer) [] (factor finish fewer))
    {front : List Token} {e : Expr} (rest : List Token)
    (h : Factor.Derives levels (front.map Token.kind) e) :
    factor finish levels (front ++ rest) = .ok (e, rest) := by
  obtain ⟨f, hKinds, rfl, hLevels⟩ := h
  cases f with
  | field name value =>
    obtain ⟨t, after, rfl, ht, hAfter⟩ := List.map_eq_cons_iff.mp hKinds.symm
    obtain rfl := List.map_eq_nil_iff.mp hAfter
    exact factor_field ht
  | not operand =>
    obtain ⟨fewer, rfl⟩ : ∃ k, levels = k + 1 :=
      ⟨levels - 1, by rw [Factor.nesting] at hLevels; omega⟩
    obtain ⟨t, after, rfl, ht, hAfter⟩ := List.map_eq_cons_iff.mp hKinds.symm
    have hRead : factor finish fewer (after ++ rest) = .ok (operand.tree, rest) :=
      (hFewer fewer (Nat.lt_succ_self _)).complete
        ⟨operand, hAfter.symm, rfl, Nat.le_of_succ_le_succ hLevels⟩ (stopsBefore_nil_kinds rest)
    rw [List.cons_append, factor_not ht, hRead]
    rfl
  | paren inner =>
    obtain ⟨fewer, rfl⟩ : ∃ k, levels = k + 1 :=
      ⟨levels - 1, by rw [Factor.nesting] at hLevels; omega⟩
    obtain ⟨t, after, rfl, ht, hAfter⟩ := List.map_eq_cons_iff.mp hKinds.symm
    obtain ⟨body, last, rfl, hBody, hLast⟩ := List.map_eq_append_iff.mp hAfter
    obtain ⟨close, none, rfl, hClose, hNone⟩ := List.map_eq_cons_iff.mp hLast
    obtain rfl := List.map_eq_nil_iff.mp hNone
    -- the parenthesis behind the inner expression does not go on with it
    have hStop : StopsBefore [.or, .and] (close :: rest) :=
      stopsBefore_cons.mpr (by simp [hClose])
    have hRead : expression (factor finish fewer) (body ++ close :: rest) =
        .ok (inner.tree, close :: rest) :=
      (hFewer fewer (Nat.lt_succ_self _)).expressions.complete
        ⟨inner, hBody.symm, rfl, Nat.le_of_succ_le_succ hLevels⟩ hStop
    rw [List.cons_append, List.append_assoc, List.singleton_append, factor_leftParen ht, hRead]
    show closeParen finish t.position inner.tree (close :: rest) = .ok (inner.tree, rest)
    rw [closeParen, peek, if_pos hClose, List.tail_cons]

end Levels

/-- **The parser of factors reads them**, with the levels that it has left. -/
theorem reads_factor (finish levels : Nat) :
    Reads (Factor.Derives levels) [] (factor finish levels) := by
  -- the operand of a factor, and the factors between parentheses, have a level less
  induction levels using Nat.strongRecOn with
  | ind levels ih =>
    refine ⟨?_, ?_⟩
    · intro tokens rest e h
      obtain ⟨front, hTokens, hDerives⟩ := factor_sound ih h
      exact ⟨front, hTokens, hDerives, stopsBefore_nil_kinds rest⟩
    · intro front rest e hDerives _
      exact factor_complete ih rest hDerives

/-! ## Queries -/

/-- A word has one tree, however deep its derivations nest. -/
theorem Grammar.Expression.tree_unique {d d' : Expression} (h : d.kinds = d'.kinds) :
    d.tree = d'.tree := by
  -- a parser with levels for both of them reads one of them only
  let levels := max d.nesting d'.nesting
  let tokens := d.kinds.map fun kind => (⟨kind, 0⟩ : Token)
  have hRead : ∀ c : Expression, c.kinds = d.kinds → c.nesting ≤ levels →
      expression (factor 0 levels) (tokens ++ []) = .ok (c.tree, []) := by
    intro c hKinds hLevels
    have hWord : tokens.map Token.kind = d.kinds := by
      simp [tokens, Function.comp_def]
    exact (reads_factor 0 levels).expressions.complete
      ⟨c, hKinds.trans hWord.symm, rfl, hLevels⟩ (by simp [StopsBefore])
  have hTree := (hRead d rfl (Nat.le_max_left _ _)).symm.trans
    (hRead d' h.symm (Nat.le_max_right _ _))
  exact congrArg Prod.fst (Except.ok.inj hTree)

/-- The kinds of the tokens in front of the first end of the query. -/
def word (tokens : List Token) : List Kind :=
  (tokens.map Token.kind).takeWhile fun kind => kind != .endOfQuery

variable {finish : Nat} {tokens rest : List Token}

theorem peek_kind_eq_endOfQuery_iff :
    (peek finish tokens).kind = .endOfQuery ↔ word tokens = [] := by
  cases tokens with
  | nil => simp [peek, word]
  | cons t rest =>
    rw [peek, word, List.map_cons, List.takeWhile_cons]
    by_cases ht : t.kind = .endOfQuery
    · simp [ht]
    · simp [ht]

theorem word_append {front : List Token} (hFront : Kind.endOfQuery ∉ front.map Token.kind)
    (hRest : word rest = []) : word (front ++ rest) = front.map Token.kind := by
  rw [word, List.map_append, List.takeWhile_append_of_pos]
  · rw [show List.takeWhile _ _ = [] from hRest, List.append_nil]
  · intro kind hMem
    rw [bne_iff_ne]
    rintro rfl
    exact hFront hMem

theorem exists_word_append (tokens : List Token) :
    ∃ front rest, tokens = front ++ rest ∧ front.map Token.kind = word tokens ∧ word rest = [] := by
  induction tokens with
  | nil => exact ⟨[], [], rfl, rfl, rfl⟩
  | cons t tokens ih =>
    by_cases ht : t.kind = .endOfQuery
    · have hWord : word (t :: tokens) = [] := by simp [word, ht]
      exact ⟨[], t :: tokens, rfl, hWord.symm, hWord⟩
    · obtain ⟨front, rest, rfl, hFront, hRest⟩ := ih
      refine ⟨t :: front, rest, rfl, ?_, hRest⟩
      rw [List.map_cons, hFront, word, word, List.map_cons, List.takeWhile_cons,
        if_pos (by simpa using ht)]

theorem stopsBefore_of_word_eq_nil {kinds : List Kind} (hKinds : Kind.endOfQuery ∉ kinds)
    (h : word rest = []) : StopsBefore kinds rest := by
  cases rest with
  | nil => simp [StopsBefore]
  | cons t rest =>
    have ht : t.kind = .endOfQuery := (@peek_kind_eq_endOfQuery_iff 0 _).mpr h
    rw [stopsBefore_cons, ht]
    exact hKinds

/-- Tokens that have a word are read as an expression, and that must be all there is. -/
theorem ofTokens_of_word_ne_nil (h : word tokens ≠ [])
    (hFinish : (tokens.getLast?.map Token.position).getD 0 = finish) :
    Expr.ofTokens tokens = (expression (factor finish maxNesting) tokens).bind fun read =>
      if (peek finish read.2).kind = .endOfQuery then .ok (some read.1)
      else .error ⟨.trailing (peek finish read.2).kind, (peek finish read.2).position⟩ := by
  subst hFinish
  rw [Expr.ofTokens, if_neg (mt peek_kind_eq_endOfQuery_iff.mp h)]
  rfl

theorem ofTokens_of_word_eq_nil (h : word tokens = []) : Expr.ofTokens tokens = .ok none := by
  rw [Expr.ofTokens, if_pos (peek_kind_eq_endOfQuery_iff.mpr h)]

theorem ofTokens_eq_ok_none_iff : Expr.ofTokens tokens = .ok none ↔ word tokens = [] := by
  refine ⟨fun h => ?_, ofTokens_of_word_eq_nil⟩
  by_cases hWord : word tokens = []
  · exact hWord
  · rw [ofTokens_of_word_ne_nil hWord rfl] at h
    obtain ⟨read, -, hOk⟩ := bind_eq_ok.mp h
    split at hOk <;> cases hOk

theorem ofTokens_eq_ok_some_iff {e : Expr} :
    Expr.ofTokens tokens = .ok (some e) ↔ Expression.Derives maxNesting (word tokens) e := by
  by_cases hWord : word tokens = []
  · rw [ofTokens_of_word_eq_nil hWord, hWord]
    constructor
    · intro h
      cases h
    · rintro ⟨d, hKinds, -, -⟩
      exact absurd hKinds d.kinds_ne_nil
  · have hReads :=
      (reads_factor ((tokens.getLast?.map Token.position).getD 0) maxNesting).expressions
    rw [ofTokens_of_word_ne_nil hWord rfl, bind_eq_ok]
    constructor
    · rintro ⟨⟨e', rest⟩, hRead, hOk⟩
      split at hOk
      · rename_i hEnd
        cases hOk
        obtain ⟨front, hTokens, ⟨d, hKinds, hTree, hLevels⟩, -⟩ := hReads.sound hRead
        -- what was read holds no end, and the end comes next, so it is the word
        refine ⟨d, ?_, hTree, hLevels⟩
        rw [hTokens, hKinds]
        exact (word_append (hKinds ▸ d.endOfQuery_notMem)
          (peek_kind_eq_endOfQuery_iff.mp hEnd)).symm
      · cases hOk
    · rintro ⟨d, hKinds, rfl, hLevels⟩
      obtain ⟨front, rest, hTokens, hFront, hRest⟩ := exists_word_append tokens
      have hRead : expression (factor ((tokens.getLast?.map Token.position).getD 0) maxNesting)
          (front ++ rest) = .ok (d.tree, rest) :=
        hReads.complete ⟨d, hKinds.trans hFront.symm, rfl, hLevels⟩
          (stopsBefore_of_word_eq_nil (by decide) hRest)
      rw [← hTokens] at hRead
      exact ⟨(d.tree, rest), hRead, if_pos (peek_kind_eq_endOfQuery_iff.mpr hRest)⟩

/--
**The parser accepts exactly the grammar.** Let the word of a list of tokens, with or without an
end of the query, be what stands in front of the first one. The list is read as the empty query
exactly if its word is empty, and as a tree exactly if the word derives from `expression` with no
parenthesis or negation beyond the deepest level; the tree is the one of the derivation. All other
lists are errors. A word has one tree at most, whose leaves are the predicates of its terms, in
order.
-/
theorem ofTokens_reads_grammar (tokens : List Token) :
    (Expr.ofTokens tokens = .ok none ↔ word tokens = []) ∧
    (∀ e, Expr.ofTokens tokens = .ok (some e) ↔
      ∃ d : Grammar.Expression, d.kinds = word tokens ∧ d.tree = e ∧ d.nesting ≤ maxNesting) ∧
    ((∃ err, Expr.ofTokens tokens = .error err) ↔ word tokens ≠ [] ∧
      ¬ ∃ d : Grammar.Expression, d.kinds = word tokens ∧ d.nesting ≤ maxNesting) ∧
    (∀ d d' : Grammar.Expression, d.kinds = word tokens → d'.kinds = word tokens →
      d.tree = d'.tree) ∧
    (∀ e, Expr.ofTokens tokens = .ok (some e) →
      e.leaves = (word tokens).filterMap Kind.predicate?) := by
  refine ⟨ofTokens_eq_ok_none_iff, fun e => ofTokens_eq_ok_some_iff, ?_,
    fun d d' h h' => Expression.tree_unique (h.trans h'.symm), ?_⟩
  · rw [Ne, ← ofTokens_eq_ok_none_iff]
    constructor
    · rintro ⟨err, hErr⟩
      refine ⟨by simp [hErr], ?_⟩
      rintro ⟨d, hKinds, hLevels⟩
      have hOk := ofTokens_eq_ok_some_iff.mpr ⟨d, hKinds, rfl, hLevels⟩
      rw [hErr] at hOk
      cases hOk
    · rintro ⟨hSome, hNoTree⟩
      match hRead : Expr.ofTokens tokens with
      | .error err => exact ⟨err, rfl⟩
      | .ok none => exact absurd hRead hSome
      | .ok (some e) =>
        obtain ⟨d, hKinds, -, hLevels⟩ := ofTokens_eq_ok_some_iff.mp hRead
        exact absurd ⟨d, hKinds, hLevels⟩ hNoTree
  · intro e h
    obtain ⟨d, hKinds, rfl, -⟩ := ofTokens_eq_ok_some_iff.mp h
    rw [d.leaves_tree, hKinds]

end Taskboard.Query
