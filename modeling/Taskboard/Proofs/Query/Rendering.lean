import Taskboard.Proofs.Query.Value
import Taskboard.Proofs.Query.Viability

/-!
# Taskboard — expressions as queries

An expression is written with a pair of parentheses for each `AND` and `OR`, and without any for
`NOT`. So it nests as deep as it is high, however flat the query was that it was read from: what is
written is read as the same expression, unless it is too high, and then it nests too deep.

* `Predicate.Readable` — the predicates of terms;
* `Expr.written` — the derivation of what is written;
* `lexed_render` — what is written has the kinds of that derivation;
* `tooDeep_of_derivation` — what nests too deep is rejected for that;
* `parse_render` — expressions are read as they were written.
-/

namespace Taskboard.Query

open Grammar

/-! ## Terms -/

/-- A predicate of a term whose name is in lower case and has no colon, and whose name and value
consist of characters of words. -/
def Predicate.Readable (p : Predicate) : Prop :=
  ∃ name value, p = Predicate.parse name value ∧ Text.lowercase name = name ∧
    name.toList.all (fun c => isWordChar c && c != ':') = true ∧
    value.toList.all isWordChar = true

/-- A word splits at its first colon. -/
theorem Kind.ofTerm_colon {name : List Char} (hName : ∀ c ∈ name, c ≠ ':') (value : List Char) :
    Kind.ofTerm (name ++ ':' :: value) =
      .field (Text.lowercase (String.ofList name)) (String.ofList value) := by
  have hPass : ∀ c ∈ name, (c != ':') = true := fun c hc => bne_iff_ne.mpr (hName c hc)
  have hDrop : (name ++ ':' :: value).dropWhile (fun c => c != ':') = ':' :: value := by
    rw [List.dropWhile_append_of_pos hPass]
    rfl
  have hTake : (name ++ ':' :: value).takeWhile (fun c => c != ':') = name := by
    rw [List.takeWhile_append_of_pos hPass]
    exact List.append_nil name
  rw [Kind.ofTerm, hDrop, hTake]

/-- A word with a colon is no operator, whatever its name is. -/
theorem Kind.ofWord_of_colon_mem {w : List Char} (h : ':' ∈ w) : Kind.ofWord w = .ofTerm w := by
  -- a colon has no case, so it is still there when the letters are lower-cased
  have hLowered : ':' ∈ (String.ofList w).toLower.toList := by
    have hMap : (String.ofList w).toLower = (String.ofList w).map Char.toLower := rfl
    rw [hMap, String.toList_map, String.toList_ofList]
    exact List.mem_map.mpr ⟨':', h, rfl⟩
  have hOperator : ∀ operator : String, ':' ∉ operator.toList →
      (String.ofList w).toLower ≠ operator := by
    intro operator hNotMem hEq
    exact hNotMem (hEq ▸ hLowered)
  rw [Kind.ofWord]
  simp only [hOperator "and" (by decide), hOperator "or" (by decide), hOperator "not" (by decide),
    if_false]

/-- A name and a value with a colon between them are one word. -/
theorem isWord_term {name value : List Char} (hName : ∀ c ∈ name, isWordChar c = true)
    (hValue : ∀ c ∈ value, isWordChar c = true) : IsWord (name ++ ':' :: value) := by
  refine ⟨by simp, List.all_eq_true.mpr fun c hc => ?_⟩
  rw [List.mem_append, List.mem_cons] at hc
  rcases hc with hc | rfl | hc
  · exact hName c hc
  · decide
  · exact hValue c hc

/-- That word is a term. Its first colon is the one behind the name; those of the value stay in the
value. -/
theorem Kind.ofWord_term {name : List Char} (hName : ∀ c ∈ name, c ≠ ':') (value : List Char) :
    Kind.ofWord (name ++ ':' :: value) =
      .field (Text.lowercase (String.ofList name)) (String.ofList value) := by
  rw [Kind.ofWord_of_colon_mem (by simp), Kind.ofTerm_colon hName]

namespace Predicate.Readable

variable {p : Predicate}

/-- What is written for a predicate is read as it. -/
theorem parse_raw (h : p.Readable) : Predicate.parse p.field p.raw = p := by
  obtain ⟨name, value, rfl, -, -, -⟩ := h
  exact Predicate.parse_raw_parse name value

/-- What is written for a predicate is one word, a term. -/
theorem lexed_render (h : p.Readable) : lexed p.render.toList = [.field p.field p.raw] := by
  obtain ⟨name, value, rfl, hLower, hName, hValue⟩ := h
  simp only [List.all_eq_true, Bool.and_eq_true, bne_iff_ne] at hName hValue
  have hText : (Predicate.parse name value).render.toList =
      name.toList ++ ':' :: (Predicate.parse name value).raw.toList := by
    simp [Predicate.render, Predicate.parse]
  have hWord : IsWord (name.toList ++ ':' :: (Predicate.parse name value).raw.toList) :=
    isWord_term (fun c hc => (hName c hc).1)
      fun c hc => hValue c (Predicate.mem_of_mem_raw_parse hc)
  have hLexed := lexed_word hWord apart_nil
  rw [List.append_nil, lexed_nil, Kind.ofWord_term fun c hc => (hName c hc).2,
    String.ofList_toList, String.ofList_toList, hLower] at hLexed
  rw [hText]
  exact hLexed

end Predicate.Readable

/-! ## Expressions -/

namespace Expr

/-- The derivation of what is written for an expression. -/
def written : Expr → Factor
  | .leaf p => .field p.field p.raw
  | .conj l r => .paren (.term (.and (.factor l.written) r.written))
  | .disj l r => .paren (.or (.term (.factor l.written)) (.factor r.written))
  | .neg e => .not e.written

theorem nesting_written (e : Expr) : e.written.nesting = e.height := by
  induction e with
  | leaf p => rfl
  | conj l r ihl ihr =>
    rw [height, ← ihl, ← ihr]
    rfl
  | disj l r ihl ihr =>
    rw [height, ← ihl, ← ihr]
    rfl
  | neg e ih =>
    rw [height, ← ih]
    rfl

/-- The derivation stands for the expression itself. -/
theorem tree_written {e : Expr} (hLeaves : ∀ p ∈ e.leaves, p.Readable) : e.written.tree = e := by
  induction e with
  | leaf p =>
    have hp : p.Readable := hLeaves p List.mem_cons_self
    rw [written, Factor.tree, hp.parse_raw]
  | conj l r ihl ihr =>
    rw [leaves, List.forall_mem_append] at hLeaves
    have hTree : (conj l r).written.tree = .conj l.written.tree r.written.tree := rfl
    rw [hTree, ihl hLeaves.1, ihr hLeaves.2]
  | disj l r ihl ihr =>
    rw [leaves, List.forall_mem_append] at hLeaves
    have hTree : (disj l r).written.tree = .disj l.written.tree r.written.tree := rfl
    rw [hTree, ihl hLeaves.1, ihr hLeaves.2]
  | neg e ih =>
    have hTree : (neg e).written.tree = .neg e.written.tree := rfl
    rw [hTree, ih hLeaves]

/-- **What is written has the kinds of the derivation**: no word runs into another. -/
theorem lexed_render {e : Expr} (hLeaves : ∀ p ∈ e.leaves, p.Readable) :
    lexed e.render.toList = e.written.kinds := by
  induction e with
  | leaf p =>
    have hp : p.Readable := hLeaves p List.mem_cons_self
    exact hp.lexed_render
  | conj l r ihl ihr =>
    rw [leaves, List.forall_mem_append] at hLeaves
    have hText : (conj l r).render.toList =
        '(' :: ((l.render.toList ++ ' ' :: ("AND".toList ++ ' ' :: r.render.toList)) ++ [')']) := by
      simp [render]
    rw [hText, lexed_joined lexed_and, ihl hLeaves.1, ihr hLeaves.2]
    rfl
  | disj l r ihl ihr =>
    rw [leaves, List.forall_mem_append] at hLeaves
    have hText : (disj l r).render.toList =
        '(' :: ((l.render.toList ++ ' ' :: ("OR".toList ++ ' ' :: r.render.toList)) ++ [')']) := by
      simp [render]
    rw [hText, lexed_joined lexed_or, ihl hLeaves.1, ihr hLeaves.2]
    rfl
  | neg e ih =>
    have hText : (neg e).render.toList = "NOT".toList ++ ' ' :: e.render.toList := by
      simp [render]
    rw [hText, lexed_not, ih hLeaves]
    rfl

end Expr

/-! ## Queries that nest too deep -/

/-- Where the walk is stuck for want of levels, the error says so. -/
theorem tooDeep_of_stuck {limit levels : Nat} {s s' : Progress} {tokens : List Token}
    {err : ParseError} (hLevels : limit ≤ levels) (h : Stuck limit s tokens err)
    (hWalk : s.walk levels (tokens.map Token.kind) = some s') : err.fault = .tooDeep := by
  obtain ⟨front, t, rest, u, rfl, hFront, -, hNext, -, hFault⟩ := h
  -- with more levels the walk goes the same way, and on from where it was stuck
  have hSame := Progress.walk_mono hLevels hFront
  rw [List.map_append, Progress.walk_append_of_eq_some hSame, List.map_cons, Progress.walk_cons,
    Option.bind_eq_some_iff] at hWalk
  obtain ⟨v, hPasses, -⟩ := hWalk
  exact hFault.mpr (Progress.opens_of_next hNext hPasses)

/-- **A text that has a derivation, but nests too deep, is rejected for that.** -/
theorem tooDeep_of_derivation {text : String} {d : Expression}
    (hKinds : d.kinds = lexed text.toList) (hDeep : maxNesting < d.nesting) :
    ∃ position, Expr.parse text = .error ⟨.tooDeep, position⟩ := by
  have hWalk : ∀ limit, Progress.start.walk limit d.kinds =
      if 0 + d.nesting ≤ limit then some (.behindOperand 0 []) else none :=
    fun limit => d.walk_kinds (Nat.zero_le limit) []
  -- the walk of the derivation fails at the limit and succeeds at the nesting
  match hParse : Expr.parse text with
  | .ok none =>
    rw [parse_eq_ok_none_iff, ← hKinds] at hParse
    exact absurd hParse d.kinds_ne_nil
  | .ok (some e) =>
    have hEnds := walk_of_parse_eq_ok_some hParse
    rw [map_kind_tokenize, ← hKinds, Progress.walk_append, hWalk, if_neg (by omega)] at hEnds
    cases hEnds
  | .error ⟨fault, position⟩ =>
    have hEnds : Progress.start.walk d.nesting ((tokenize text).map Token.kind) = some .ended := by
      rw [map_kind_tokenize, ← hKinds, Progress.walk_append, hWalk, if_pos (by omega)]
      rfl
    obtain rfl : fault = .tooDeep :=
      tooDeep_of_stuck (Nat.le_of_lt hDeep) (stuck_of_parse_eq_error hParse) hEnds
    exact ⟨position, rfl⟩

/--
**Expressions are read as they were written**, if they are not higher than queries may nest, and
otherwise rejected because they nest too deep.
-/
theorem parse_render (e : Expr) (hLeaves : ∀ p ∈ e.leaves, p.Readable) :
    (e.height ≤ maxNesting → Expr.parse e.render = .ok (some e)) ∧
      (maxNesting < e.height → ∃ position, Expr.parse e.render = .error ⟨.tooDeep, position⟩) := by
  have hKinds : (Expression.term (.factor e.written)).kinds = lexed e.render.toList :=
    (Expr.lexed_render hLeaves).symm
  have hNesting : (Expression.term (.factor e.written)).nesting = e.height := e.nesting_written
  constructor
  · intro hHeight
    exact parse_eq_ok_some_iff.mpr ⟨_, hKinds, Expr.tree_written hLeaves, hNesting ▸ hHeight⟩
  · intro hHeight
    exact tooDeep_of_derivation hKinds (hNesting ▸ hHeight)

/-- A range, a wildcard, and a term with the name of an operator and a colon in its value; with 127
negations in front the query is too high. -/
theorem parse_render_range_or_wildcard :
    let e : Expr := .conj (.neg (.leaf ⟨"priority", .range "4", "1"⟩))
      (.disj (.leaf ⟨"title", .contains, "é"⟩) (.leaf ⟨"and", .notEqual, "x:y"⟩))
    e.render = "(NOT priority:1-4 AND (title:*é* OR and:!x:y))" ∧
      Expr.parse "(NOT priority:1-4 AND (title:*é* OR and:!x:y))" = .ok (some e) ∧
      ∃ position, Expr.parse (Nat.repeat Expr.neg 127 e).render = .error ⟨.tooDeep, position⟩ := by
  intro e
  have hRender : e.render = "(NOT priority:1-4 AND (title:*é* OR and:!x:y))" := by decide +kernel
  have hLeaves : ∀ p ∈ e.leaves, p.Readable := by
    intro p hp
    have hCases : p = ⟨"priority", .range "4", "1"⟩ ∨ p = ⟨"title", .contains, "é"⟩ ∨
        p = ⟨"and", .notEqual, "x:y"⟩ := by simpa [e, Expr.leaves] using hp
    rcases hCases with rfl | rfl | rfl
    · exact ⟨"priority", "1-4", by decide +kernel⟩
    · exact ⟨"title", "é**", by decide +kernel⟩
    · exact ⟨"and", "!x:y", by decide +kernel⟩
  refine ⟨hRender, hRender ▸ (parse_render e hLeaves).1 (by decide), ?_⟩
  exact (parse_render (Nat.repeat Expr.neg 127 e) hLeaves).2 (by decide +kernel)

end Taskboard.Query
