import Taskboard.Proofs.Query.Lexing
import Taskboard.Proofs.Query.Progress

/-!
# Taskboard — where a query goes wrong

A query is rejected at the first token with which no query can begin any more, however it goes on.
From every place in front of the end a query can be completed: with an operand if one is due, and
then with the parentheses that are still missing. So the parser errs neither too early nor too late.

* `Viable` — the kinds with which some query begins;
* `Progress.completion` — what completes a query from a place;
* `exists_parse_eq_ok_of_walk` — a text that can be walked to its end is a query;
* `error_at_first_impossible_token` — the position of an error.
-/

namespace Taskboard.Query

/-- Kinds with which the tokens of some query begin. The end of the query is one of its kinds. -/
def Viable (w : List Kind) : Prop :=
  ∃ query read, Expr.parse query = .ok read ∧ w <+: (tokenize query).map Token.kind

theorem Viable.shorter {v w : List Kind} (hPrefix : v <+: w) (hw : Viable w) : Viable v := by
  obtain ⟨query, read, hRead, hBegins⟩ := hw
  exact ⟨query, read, hRead, hPrefix.trans hBegins⟩

/-! ## Completions -/

namespace Progress

/-- What completes a query from a place: an operand if one is due, and the parentheses that are
still missing. -/
def completion : Progress → List Char
  | .beforeOperand _ _ outer => ' ' :: 'x' :: List.replicate outer.length ')'
  | .behindOperand _ outer => List.replicate outer.length ')'
  | .ended => []

theorem apart_closings (n : Nat) : Apart (List.replicate n ')') := by
  cases n with
  | zero => exact apart_nil
  | succ n => exact apart_cons.mpr rfl

theorem apart_completion (s : Progress) : Apart s.completion := by
  cases s with
  | beforeOperand used base outer => exact apart_cons.mpr rfl
  | behindOperand base outer => exact apart_closings outer.length
  | ended => exact apart_nil

theorem lexed_closings (n : Nat) :
    lexed (List.replicate n ')') = List.replicate n .rightParen := by
  induction n with
  | zero => exact lexed_nil
  | succ n ih => rw [List.replicate_succ, lexed_rightParen, ih, List.replicate_succ]

theorem lexed_operand_closings (n : Nat) :
    ∃ name value, lexed (' ' :: 'x' :: List.replicate n ')') =
      .field name value :: List.replicate n .rightParen := by
  have hWord : IsWord ['x'] := ⟨by simp, by decide⟩
  have hKind : Kind.ofWord ['x'] = .field textField "x" := by decide +kernel
  have hLexed := lexed_word hWord (apart_closings n)
  rw [hKind, lexed_closings] at hLexed
  exact ⟨textField, "x", (lexed_blank rfl _).trans hLexed⟩

/-- Behind an operand the missing parentheses complete a query. -/
theorem walk_closings (limit base : Nat) (outer : List Nat) :
    (Progress.behindOperand base outer).walk limit
      (List.replicate outer.length .rightParen ++ [.endOfQuery]) = some .ended := by
  -- each parenthesis leads back to the expression around it
  induction outer generalizing base with
  | nil => rfl
  | cons outerBase outer ih => exact ih outerBase

/-- **From every place in front of the end a query can be completed.** -/
theorem walk_completion {s : Progress} (hEnded : s ≠ .ended) (limit : Nat) :
    s.walk limit (lexed s.completion ++ [.endOfQuery]) = some .ended := by
  cases s with
  | beforeOperand used base outer =>
    obtain ⟨name, value, hLexed⟩ := lexed_operand_closings outer.length
    rw [completion, hLexed, List.cons_append, walk_cons_of_eq_some rfl]
    exact walk_closings limit base outer
  | behindOperand base outer =>
    rw [completion, lexed_closings]
    exact walk_closings limit base outer
  | ended => exact absurd rfl hEnded

end Progress

/-! ## Queries and walks -/

section Queries

variable {text : String}

theorem map_kind_tokenize (text : String) :
    (tokenize text).map Token.kind = lexed text.toList ++ [.endOfQuery] :=
  map_kind_scan 0 text.toList

/-- An error is about a token at which the walk is stuck. -/
theorem stuck_of_parse_eq_error {err : ParseError} (h : Expr.parse text = .error err) :
    Stuck maxNesting .start (tokenize text) err :=
  stuck_of_ofTokens_eq_error (by simp [map_kind_tokenize]) h

/-- A text that can be walked to its end is a query. -/
theorem exists_parse_eq_ok_of_walk {s : Progress}
    (h : Progress.start.walk maxNesting ((tokenize text).map Token.kind) = some s) :
    ∃ read, Expr.parse text = .ok read := by
  cases hParse : Expr.parse text with
  | ok read => exact ⟨read, rfl⟩
  | error err =>
    rw [walk_eq_none_of_stuck (stuck_of_parse_eq_error hParse)] at h
    cases h

/-- A query with an expression can be walked to its end. -/
theorem walk_of_parse_eq_ok_some {e : Expr} (h : Expr.parse text = .ok (some e)) :
    Progress.start.walk maxNesting ((tokenize text).map Token.kind) = some .ended := by
  obtain ⟨d, hKinds, -, hNesting⟩ := parse_eq_ok_some_iff.mp h
  have hWalk := d.walk_kinds (Nat.zero_le maxNesting) []
  rw [if_pos (by rwa [Nat.zero_add])] at hWalk
  rw [map_kind_tokenize, ← hKinds]
  exact Progress.walk_append_of_eq_some hWalk _

/-- Kinds that begin a query can be walked, unless the query is over at once. -/
theorem walk_ne_none_of_viable {w : List Kind} (hw : Viable w) (hSome : ¬w <+: [.endOfQuery]) :
    Progress.start.walk maxNesting w ≠ none := by
  obtain ⟨query, read, hRead, hBegins⟩ := hw
  cases read with
  | none =>
    -- an empty query has the end as its only kind
    have hKinds := map_kind_tokenize query
    rw [parse_eq_ok_none_iff.mp hRead] at hKinds
    rw [hKinds] at hBegins
    exact absurd hBegins hSome
  | some e =>
    obtain ⟨rest, hRest⟩ := hBegins
    have hWalk := walk_of_parse_eq_ok_some hRead
    rw [← hRest, Progress.walk_append] at hWalk
    intro hNone
    rw [hNone, Option.bind_none] at hWalk
    cases hWalk

/-- The first token of a text that is rejected is not the end. -/
theorem not_prefix_of_parse_eq_error {err : ParseError} {front back : List Token} {t : Token}
    (h : Expr.parse text = .error err) (hTokens : tokenize text = front ++ t :: back) :
    ¬(front ++ [t]).map Token.kind <+: [.endOfQuery] := by
  intro hPrefix
  have hLength := hPrefix.length_le
  simp only [List.length_map, List.length_append, List.length_singleton] at hLength
  obtain rfl : front = [] := List.length_eq_zero_iff.mp (by omega)
  have hKind : t.kind = .endOfQuery := (List.cons_prefix_cons.mp hPrefix).1
  have hNone : Expr.parse text = .ok none := by
    refine ofTokens_eq_ok_none_iff.mpr ?_
    rw [hTokens]
    simp [word, hKind]
  rw [hNone] at h
  cases h

/-- **Tokens of a text that can be walked begin a query**: the text is cut behind them and
completed. -/
theorem viable_of_walk {position : Nat} {cs : List Char} {front back : List Token} {t : Token}
    {s : Progress} (hCut : CutAt position cs front t back)
    (hWalk : Progress.start.walk maxNesting (front.map Token.kind) = some s) (hEnded : s ≠ .ended) :
    Viable (front.map Token.kind) := by
  -- the text in front of the cut is a new text; what completes it does not run into its last word
  obtain ⟨before, -, -, -, hBefore, -⟩ := hCut
  have hKinds : (tokenize (String.ofList (before ++ s.completion))).map Token.kind =
      front.map Token.kind ++ (lexed s.completion ++ [.endOfQuery]) := by
    rw [map_kind_tokenize, String.toList_ofList, lexed_append before s.apart_completion, hBefore,
      List.append_assoc]
  have hCompleted : Progress.start.walk maxNesting
      ((tokenize (String.ofList (before ++ s.completion))).map Token.kind) = some .ended := by
    rw [hKinds, Progress.walk_append_of_eq_some hWalk]
    exact Progress.walk_completion hEnded maxNesting
  obtain ⟨read, hRead⟩ := exists_parse_eq_ok_of_walk hCompleted
  exact ⟨_, read, hRead, hKinds ▸ List.prefix_append _ _⟩

end Queries

/-! ## Errors -/

/-- A position in a text at which one of its tokens begins, such that the kinds of the tokens in
front of it begin a query, and those up to it do not. -/
def FirstImpossible (text : String) (position : Nat) : Prop :=
  ∃ front t back, tokenize text = front ++ t :: back ∧ CutAt 0 text.toList front t back ∧
    t.position = position ∧
    ∀ j, Viable (((tokenize text).take j).map Token.kind) ↔ j ≤ front.length

/--
**An error is at the first impossible token.** The parser neither gives up while what it has read
could still become a query, nor reads on behind the token with which it no longer can.
-/
theorem error_at_first_impossible_token (text : String) (err : ParseError)
    (h : Expr.parse text = .error err) : FirstImpossible text err.position := by
  obtain ⟨front, t, back, s, hTokens, hWalk, hEnded, hNext, hPosition, -⟩ :=
    stuck_of_parse_eq_error h
  have hCut : CutAt 0 text.toList front t back := cutAt_of_scan hTokens
  refine ⟨front, t, back, hTokens, hCut, hPosition.symm, fun j => ⟨fun hViable => ?_, fun hj => ?_⟩⟩
  · refine Nat.le_of_not_lt fun hj => ?_
    -- the walk gets no further than the token, so that no query has it there
    have hStuck : Progress.start.walk maxNesting ((front ++ [t]).map Token.kind) = none := by
      rw [List.map_append, Progress.walk_append_of_eq_some hWalk, List.map_singleton,
        Progress.walk_cons, hNext, Option.bind_none]
    have hTaken : front ++ [t] <+: (tokenize text).take j := by
      rw [List.prefix_take_iff, hTokens, List.length_append, List.length_singleton]
      exact ⟨⟨back, List.append_cons _ _ _ |>.symm⟩, hj⟩
    have hReached : Viable ((front ++ [t]).map Token.kind) :=
      hViable.shorter (hTaken.map Token.kind)
    exact walk_ne_none_of_viable hReached (not_prefix_of_parse_eq_error h hTokens) hStuck
  · -- the text in front of the token can be completed
    have hTaken : (tokenize text).take j <+: front := by
      rw [hTokens, List.take_append_of_le_length hj]
      exact List.take_prefix j front
    exact (viable_of_walk hCut hWalk hEnded).shorter (hTaken.map Token.kind)

/-- Behind a disjunction in parentheses a negation has no place: an operator is due there. -/
theorem error_at_negation_behind_parentheses :
    Expr.parse "(é OR b) NOT c" = .error ⟨.trailing .not, 9⟩ ∧
      FirstImpossible "(é OR b) NOT c" 9 := by
  have hError : Expr.parse "(é OR b) NOT c" = .error ⟨.trailing .not, 9⟩ := by
    decide +kernel
  exact ⟨hError, error_at_first_impossible_token _ _ hError⟩

end Taskboard.Query
