import Taskboard.Proofs.Query.Recognition

/-!
# Taskboard — how far a query has been read

What may come next in a query depends on the kinds before it in one way only: whether an operand or
an operator is due, how many levels enclose that place, and how many enclosed each parenthesis that
is still open. The parser keeps all this in its calls. Here it is a state, and reading is a walk
over kinds, so that it can be said where a walk ends that the parser gives up.

* `Progress` — a place in a query, as far as what may follow depends on it;
* `Progress.next`, `Progress.walk` — the place behind a token, and behind some;
* `Grammar.Expression.walk_kinds` — a derivation can be walked exactly if it nests within the limit;
* `Follows` — a parser that goes where the walk goes, and errs where it cannot go on;
* `stuck_of_ofTokens_eq_error` — the parser of queries is one.
-/

namespace Taskboard.Query

/-! ## Places -/

/-- A place in a query. `base` counts the levels that enclose the innermost expression that has
begun and not ended; `outer` does so for the expressions around it, the innermost first. -/
inductive Progress where
  /-- An operand is due, and `used` levels enclose it. -/
  | beforeOperand (used base : Nat) (outer : List Nat)
  /-- An operand has ended. -/
  | behindOperand (base : Nat) (outer : List Nat)
  /-- The query has ended. -/
  | ended
  deriving DecidableEq, Repr

namespace Progress

/-- The place behind a token, if the token may come. No more than `limit` levels may enclose
anything. -/
def next (limit : Nat) : Progress → Kind → Option Progress
  | .beforeOperand _ base outer, .field _ _ => some (.behindOperand base outer)
  | .beforeOperand used base outer, .not =>
    if used < limit then some (.beforeOperand (used + 1) base outer) else none
  | .beforeOperand used base outer, .leftParen =>
    if used < limit then some (.beforeOperand (used + 1) (used + 1) (base :: outer)) else none
  -- the negations in front of an operand end with it
  | .behindOperand base outer, .and => some (.beforeOperand base base outer)
  | .behindOperand base outer, .or => some (.beforeOperand base base outer)
  | .behindOperand _ (base :: outer), .rightParen => some (.behindOperand base outer)
  | .behindOperand _ [], .endOfQuery => some .ended
  | _, _ => none

/-- The place behind some tokens. -/
def walk (limit : Nat) (s : Progress) (w : List Kind) : Option Progress :=
  w.foldlM (next limit) s

/-- The place where a query begins. -/
def start : Progress :=
  .beforeOperand 0 0 []

/-- Whether a token opens a level at a place. -/
def opens : Progress → Kind → Bool
  | .beforeOperand _ _ _, .not => true
  | .beforeOperand _ _ _, .leftParen => true
  | _, _ => false

variable {limit : Nat} {s s' : Progress} {k : Kind} {v w : List Kind}

theorem walk_nil (limit : Nat) (s : Progress) : s.walk limit [] = some s := rfl

theorem walk_cons (limit : Nat) (s : Progress) (k : Kind) (w : List Kind) :
    s.walk limit (k :: w) = (s.next limit k).bind fun s' => s'.walk limit w := rfl

theorem walk_append (limit : Nat) (s : Progress) (v w : List Kind) :
    s.walk limit (v ++ w) = (s.walk limit v).bind fun s' => s'.walk limit w :=
  List.foldlM_append

theorem walk_append_of_eq_some (h : s.walk limit v = some s') (w : List Kind) :
    s.walk limit (v ++ w) = s'.walk limit w := by
  rw [walk_append, h, Option.bind_some]

theorem walk_cons_of_eq_some (h : s.next limit k = some s') (w : List Kind) :
    s.walk limit (k :: w) = s'.walk limit w := by
  rw [walk_cons, h, Option.bind_some]

theorem next_mono {limit' : Nat} (hLimit : limit ≤ limit') (h : s.next limit k = some s') :
    s.next limit' k = some s' := by
  have hLevel : ∀ used, used < limit → used < limit' :=
    fun _ hUsed => Nat.lt_of_lt_of_le hUsed hLimit
  unfold next at h ⊢
  split at h <;> simp_all

/-- More levels do not close a way. -/
theorem walk_mono {limit' : Nat} (hLimit : limit ≤ limit') (h : s.walk limit w = some s') :
    s.walk limit' w = some s' := by
  induction w generalizing s with
  | nil => exact h
  | cons k w ih =>
    rw [walk_cons, Option.bind_eq_some_iff] at h
    obtain ⟨t, hNext, hWalk⟩ := h
    rw [walk_cons_of_eq_some (next_mono hLimit hNext), ih hWalk]

/-- What more levels let pass opens one. -/
theorem opens_of_next {limit' : Nat} (h : s.next limit k = none) (h' : s.next limit' k = some s') :
    s.opens k = true := by
  unfold next at h h'
  unfold opens
  split at h' <;> simp_all

/-- Nothing comes behind the end of a query. -/
theorem endOfQuery_notMem_of_walk (h : s.walk limit w = some s') (hDone : s' ≠ .ended) :
    Kind.endOfQuery ∉ w := by
  intro hMem
  obtain ⟨v, v', rfl⟩ := List.append_of_mem hMem
  rw [walk_append, Option.bind_eq_some_iff] at h
  obtain ⟨t, -, hRest⟩ := h
  rw [walk_cons, Option.bind_eq_some_iff] at hRest
  obtain ⟨u, hNext, hRest⟩ := hRest
  have hu : u = .ended := by
    unfold next at hNext
    split at hNext <;> simp_all
  subst hu
  cases v' with
  | nil => exact hDone (Option.some.inj hRest).symm
  | cons k v' => cases hRest

end Progress

/-! ## Derivations -/

namespace Grammar

open Progress

variable {limit : Nat}

mutual

/-- **A derivation can be walked exactly if it nests within the limit.** -/
theorem Expression.walk_kinds {base : Nat} (hBase : base ≤ limit) (outer : List Nat) :
    ∀ d : Expression, (Progress.beforeOperand base base outer).walk limit d.kinds =
      if base + d.nesting ≤ limit then some (.behindOperand base outer) else none
  | .term t => t.walk_kinds hBase outer
  | .or left right => by
    rw [Expression.kinds, walk_append, left.walk_kinds hBase outer, Expression.nesting]
    by_cases hLeft : base + left.nesting ≤ limit
    · rw [if_pos hLeft, Option.bind_some, walk_cons_of_eq_some rfl, right.walk_kinds hBase outer]
      congr 1
      rw [eq_iff_iff]
      omega
    · rw [if_neg hLeft, if_neg (by omega), Option.bind_none]

theorem Term.walk_kinds {base : Nat} (hBase : base ≤ limit) (outer : List Nat) :
    ∀ t : Term, (Progress.beforeOperand base base outer).walk limit t.kinds =
      if base + t.nesting ≤ limit then some (.behindOperand base outer) else none
  | .factor f => f.walk_kinds hBase base outer
  | .and left right => by
    rw [Term.kinds, walk_append, left.walk_kinds hBase outer, Term.nesting]
    by_cases hLeft : base + left.nesting ≤ limit
    · rw [if_pos hLeft, Option.bind_some, walk_cons_of_eq_some rfl,
        right.walk_kinds hBase base outer]
      congr 1
      rw [eq_iff_iff]
      omega
    · rw [if_neg hLeft, if_neg (by omega), Option.bind_none]

theorem Factor.walk_kinds {used : Nat} (hUsed : used ≤ limit) (base : Nat) (outer : List Nat) :
    ∀ f : Factor, (Progress.beforeOperand used base outer).walk limit f.kinds =
      if used + f.nesting ≤ limit then some (.behindOperand base outer) else none
  | .field name value => (if_pos hUsed).symm
  | .not operand => by
    rw [Factor.kinds, walk_cons, Factor.nesting, next]
    by_cases hLevel : used < limit
    · rw [if_pos hLevel, Option.bind_some, operand.walk_kinds hLevel base outer]
      congr 1
      rw [eq_iff_iff]
      omega
    · rw [if_neg hLevel, if_neg (by omega), Option.bind_none]
  | .paren inner => by
    rw [Factor.kinds, walk_cons, Factor.nesting, next]
    by_cases hLevel : used < limit
    · rw [if_pos hLevel, Option.bind_some, walk_append, inner.walk_kinds hLevel (base :: outer)]
      by_cases hInner : used + 1 + inner.nesting ≤ limit
      · rw [if_pos hInner, if_pos (by omega)]
        rfl
      · rw [if_neg hInner, if_neg (by omega), Option.bind_none]
    · rw [if_neg hLevel, if_neg (by omega), Option.bind_none]

end

end Grammar

/-! ## Following the walk -/

/-- The walk over some tokens gets to one of them and no further, though the query has not ended,
and an error is about that token: that the query nests too deep exactly if it would open a level. -/
def Stuck (limit : Nat) (s : Progress) (tokens : List Token) (err : ParseError) : Prop :=
  ∃ front t rest s', tokens = front ++ t :: rest ∧
    s.walk limit (front.map Token.kind) = some s' ∧ s' ≠ .ended ∧ s'.next limit t.kind = none ∧
    err.position = t.position ∧ (err.fault = .tooDeep ↔ s'.opens t.kind = true)

/-- What a parser makes of some tokens follows the walk from one place to another: it takes tokens
over which the walk goes, or errs where the walk is stuck. Tokens that lack the end of the query are
left out of account, for the parser may run out of them. -/
def Follows (limit : Nat) (s s' : Progress) (tokens : List Token) : Parsed → Prop
  | .ok (_, rest) =>
    ∃ front, tokens = front ++ rest ∧ s.walk limit (front.map Token.kind) = some s'
  | .error err => Kind.endOfQuery ∈ tokens.map Token.kind → Stuck limit s tokens err

section Follows

variable {limit : Nat} {s s' s'' : Progress} {t : Token} {tokens rest : List Token}

theorem Stuck.here {err : ParseError} (hEnded : s ≠ .ended) (hNext : s.next limit t.kind = none)
    (hPosition : err.position = t.position)
    (hFault : err.fault = .tooDeep ↔ s.opens t.kind = true) : Stuck limit s (t :: rest) err :=
  ⟨[], t, rest, s, rfl, Progress.walk_nil limit s, hEnded, hNext, hPosition, hFault⟩

theorem Stuck.append {front : List Token} {err : ParseError}
    (hWalk : s.walk limit (front.map Token.kind) = some s') (h : Stuck limit s' rest err) :
    Stuck limit s (front ++ rest) err := by
  obtain ⟨front', t, rest', u, rfl, hWalk', hRest⟩ := h
  refine ⟨front ++ front', t, rest', u, (List.append_assoc _ _ _).symm, ?_, hRest⟩
  rw [List.map_append, Progress.walk_append_of_eq_some hWalk, hWalk']

theorem follows_ok (e : Expr) : Follows limit s s tokens (.ok (e, tokens)) :=
  ⟨[], rfl, Progress.walk_nil limit s⟩

theorem Follows.cons {r : Parsed} (hNext : s.next limit t.kind = some s')
    (hNotEnd : t.kind ≠ .endOfQuery) (h : Follows limit s' s'' rest r) :
    Follows limit s s'' (t :: rest) r := by
  have hWalk : s.walk limit ([t].map Token.kind) = some s' := by
    rw [List.map_singleton, Progress.walk_cons_of_eq_some hNext, Progress.walk_nil]
  cases r with
  | error err =>
    intro hEnd
    rw [List.map_cons, List.mem_cons] at hEnd
    exact Stuck.append hWalk (h (hEnd.resolve_left hNotEnd.symm))
  | ok read =>
    obtain ⟨front, rfl, hFront⟩ := h
    refine ⟨t :: front, rfl, ?_⟩
    rw [List.map_cons, Progress.walk_cons_of_eq_some hNext, hFront]

/-- One parser behind another. -/
theorem Follows.bind {r : Parsed} {f : Expr × List Token → Parsed}
    (h : Follows limit s s' tokens r) (hEnded : s' ≠ .ended)
    (hf : ∀ e rest, r = .ok (e, rest) → Follows limit s' s'' rest (f (e, rest))) :
    Follows limit s s'' tokens (r.bind f) := by
  match r, h with
  | .error err, h => exact h
  | .ok (e, rest), ⟨front, hTokens, hFront⟩ =>
    subst hTokens
    show Follows limit s s'' (front ++ rest) (f (e, rest))
    have hRest := hf e rest rfl
    match f (e, rest), hRest with
    | .error err, hRest =>
      intro hEnd
      rw [List.map_append, List.mem_append] at hEnd
      -- the first parser has not passed the end of the query
      have hNotMem := Progress.endOfQuery_notMem_of_walk hFront hEnded
      exact Stuck.append hFront (hRest (hEnd.resolve_left hNotMem))
    | .ok (e', rest'), ⟨front', hTokens, hFront'⟩ =>
      refine ⟨front ++ front', by rw [hTokens, List.append_assoc], ?_⟩
      rw [List.map_append, Progress.walk_append_of_eq_some hFront, hFront']

end Follows

/-! ## Chains -/

/-- A parser that follows the walk over one operand. -/
def FollowsOperand (limit used base : Nat) (outer : List Nat) (p : List Token → Parsed) : Prop :=
  ∀ tokens, Follows limit (.beforeOperand used base outer) (.behindOperand base outer) tokens
    (p tokens)

section Chains

variable {limit base : Nat} {outer : List Nat} {operator : Kind} {join : Expr → Expr → Expr}
  {p : List Token → Parsed}

theorem follows_chainFrom (hp : FollowsOperand limit base base outer p)
    (hOperator : (Progress.behindOperand base outer).next limit operator =
      some (.beforeOperand base base outer)) (hNotEnd : operator ≠ .endOfQuery)
    (fuel : Nat) (left : Expr) (tokens : List Token) :
    Follows limit (.behindOperand base outer) (.behindOperand base outer) tokens
      (chainFrom operator join p fuel left tokens) := by
  induction fuel generalizing left tokens with
  | zero => exact follows_ok left
  | succ fuel ih =>
    rcases stopsBefore_or_cons operator tokens with hStop | ⟨t, rest, rfl, rfl⟩
    · rw [chainFrom_of_stopsBefore hStop]
      exact follows_ok left
    · -- one more round: the operator, an operand, and the rest of the chain
      rw [chainFrom_cons rfl]
      exact ((hp rest).bind (by simp) fun e rest _ => ih _ rest).cons hOperator hNotEnd

/-- A chain follows the walk if its operands do. -/
theorem FollowsOperand.chain (hp : FollowsOperand limit base base outer p)
    (hOperator : (Progress.behindOperand base outer).next limit operator =
      some (.beforeOperand base base outer)) (hNotEnd : operator ≠ .endOfQuery) :
    FollowsOperand limit base base outer (chain operator join p) := by
  intro tokens
  refine (hp tokens).bind (by simp) fun e rest _ => ?_
  exact follows_chainFrom hp hOperator hNotEnd rest.length e rest

theorem FollowsOperand.expression (hp : FollowsOperand limit base base outer p) :
    FollowsOperand limit base base outer (expression p) := by
  have hConj : FollowsOperand limit base base outer (Query.chain .and .conj p) :=
    hp.chain rfl (by simp)
  exact hConj.chain rfl (by simp)

end Chains

/-! ## Factors -/

/-- Behind an operand only an operator can come, the parenthesis that closes the innermost one, or
the end of the query if none is open. -/
theorem next_behindOperand_eq_none {limit base : Nat} {outer : List Nat} {k : Kind}
    (hOperator : k ∉ [Kind.or, .and]) (hClose : k = .rightParen → outer = [])
    (hEnd : k = .endOfQuery → outer ≠ []) :
    (Progress.behindOperand base outer).next limit k = none := by
  cases k <;> cases outer <;> simp_all [Progress.next]

section Factors

variable {limit base finish : Nat} {outer : List Nat} {tokens : List Token}

theorem follows_closeParen {used opened : Nat} {inner : Expr}
    (hStop : StopsBefore [.or, .and] tokens) :
    Follows limit (.behindOperand used (base :: outer)) (.behindOperand base outer) tokens
      (closeParen finish opened inner tokens) := by
  cases tokens with
  | nil =>
    intro hEnd
    cases hEnd
  | cons t rest =>
    rw [closeParen, peek]
    by_cases hClose : t.kind = .rightParen
    · rw [if_pos hClose]
      exact (follows_ok inner).cons (by rw [hClose]; rfl) (by simp [hClose])
    · rw [if_neg hClose]
      refine fun _ => Stuck.here (by simp) ?_ rfl (by simp [Progress.opens])
      exact next_behindOperand_eq_none (stopsBefore_cons.mp hStop) (fun h => absurd h hClose)
        fun _ => List.cons_ne_nil _ _

/-- Without levels left the parser errs at a token that opens one. -/
theorem follows_noLevel {t : Token} {rest : List Token} {s : Progress} (finish : Nat)
    (hOpens : (Progress.beforeOperand limit base outer).opens t.kind = true) :
    Follows limit (.beforeOperand limit base outer) s (t :: rest)
      (factor finish 0 (t :: rest)) := by
  have hError : factor finish 0 (t :: rest) = .error ⟨.tooDeep, t.position⟩ ∧
      (Progress.beforeOperand limit base outer).next limit t.kind = none := by
    rw [factor.eq_def]
    cases ht : t.kind <;> simp_all [peek, Progress.opens, Progress.next]
  rw [hError.1]
  exact fun _ => Stuck.here (by simp) hError.2 rfl (by simp [hOpens])

/-- **The parser of factors follows the walk**, with the levels that it has left. -/
theorem followsOperand_factor (finish : Nat) {used levels : Nat} (hLevels : used + levels = limit)
    (base : Nat) (outer : List Nat) :
    FollowsOperand limit used base outer (factor finish levels) := by
  intro tokens
  -- a level left is a level that the walk may still open
  induction levels using Nat.strongRecOn generalizing used base outer tokens with
  | ind levels ih =>
    cases tokens with
    | nil =>
      rw [factor.eq_def]
      intro hEnd
      cases hEnd
    | cons t rest =>
      cases ht : t.kind with
      | field name value =>
        rw [factor_field ht]
        exact (follows_ok _).cons (by rw [ht]; rfl) (by simp [ht])
      | not =>
        cases levels with
        | zero =>
          obtain rfl : used = limit := hLevels
          exact follows_noLevel finish (by rw [ht]; rfl)
        | succ fewer =>
          have hFewer : used + 1 + fewer = limit := by omega
          have hOperand := ih fewer (Nat.lt_succ_self _) hFewer base outer rest
          rw [factor_not ht]
          refine Follows.cons ?_ (by simp [ht]) (hOperand.bind (by simp) fun _ _ _ => follows_ok _)
          rw [ht, Progress.next, if_pos (by omega)]
      | leftParen =>
        cases levels with
        | zero =>
          obtain rfl : used = limit := hLevels
          exact follows_noLevel finish (by rw [ht]; rfl)
        | succ fewer =>
          have hFewer : used + 1 + fewer = limit := by omega
          have hFactor : FollowsOperand limit (used + 1) (used + 1) (base :: outer)
              (factor finish fewer) :=
            ih fewer (Nat.lt_succ_self _) hFewer (used + 1) (base :: outer)
          have hInner := hFactor.expression rest
          rw [factor_leftParen ht]
          refine Follows.cons ?_ (by simp [ht]) (hInner.bind (by simp) fun e after hRead => ?_)
          · rw [ht, Progress.next, if_pos (by omega)]
          · -- the inner expression has been read to its end
            obtain ⟨-, -, -, hStop⟩ := (reads_factor finish fewer).expressions.sound hRead
            exact follows_closeParen hStop
      | _ =>
        -- an operator, a closing parenthesis or the end, where an operand is due
        rw [factor.eq_def]
        simp only [peek, ht]
        refine fun _ => Stuck.here (by simp) (by rw [ht]; rfl) rfl (by simp [Progress.opens, ht])

end Factors

/-! ## Queries -/

variable {tokens : List Token}

/-- **The parser of queries errs where the walk is stuck.** -/
theorem stuck_of_ofTokens_eq_error {err : ParseError}
    (hEnd : Kind.endOfQuery ∈ tokens.map Token.kind) (h : Expr.ofTokens tokens = .error err) :
    Stuck maxNesting .start tokens err := by
  have hWord : word tokens ≠ [] := by
    intro hNil
    rw [ofTokens_of_word_eq_nil hNil] at h
    cases h
  rw [ofTokens_of_word_ne_nil hWord rfl] at h
  generalize (tokens.getLast?.map Token.position).getD 0 = finish at h
  have hFactor : FollowsOperand maxNesting 0 0 [] (factor finish maxNesting) :=
    followsOperand_factor finish (Nat.zero_add maxNesting) 0 []
  have hFollows := hFactor.expression tokens
  cases hRead : expression (factor finish maxNesting) tokens with
  | error err' =>
    rw [hRead] at h hFollows
    cases h
    exact hFollows hEnd
  | ok read =>
    obtain ⟨e, rest⟩ := read
    obtain ⟨-, -, -, hStop⟩ := (reads_factor finish maxNesting).expressions.sound hRead
    rw [hRead] at h hFollows
    obtain ⟨front, rfl, hWalk⟩ := hFollows
    rw [List.map_append, List.mem_append] at hEnd
    have hNotMem := Progress.endOfQuery_notMem_of_walk hWalk (by simp)
    cases rest with
    | nil => cases hEnd.resolve_left hNotMem
    | cons t rest =>
      -- a complete expression goes on neither with an operator nor with the end
      by_cases ht : t.kind = .endOfQuery
      · rw [Except.bind, peek, if_pos ht] at h
        cases h
      · rw [Except.bind, peek, if_neg ht] at h
        cases h
        refine Stuck.append hWalk (Stuck.here (by simp) ?_ rfl (by simp [Progress.opens]))
        exact next_behindOperand_eq_none (stopsBefore_cons.mp hStop) (fun _ => rfl)
          fun h => absurd h ht

theorem walk_eq_none_of_stuck {limit : Nat} {s : Progress} {err : ParseError}
    (h : Stuck limit s tokens err) : s.walk limit (tokens.map Token.kind) = none := by
  obtain ⟨front, t, rest, s', rfl, hWalk, -, hNext, -⟩ := h
  rw [List.map_append, Progress.walk_append_of_eq_some hWalk, List.map_cons, Progress.walk_cons,
    hNext, Option.bind_none]

end Taskboard.Query
