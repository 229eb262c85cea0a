import Taskboard.Proofs.Query.Composition

/-!
# Taskboard — the height of queries

The limit on nesting is one on parentheses and negations. A chain of `AND` or of `OR` needs neither,
and is joined to the left, so that each operand puts the ones in front of it a step further down: a
query without any nesting has a tree as high as it has operators. What the limit does bound is the
depth, in which a chain is one step however long it is. A level of nesting adds two steps to it, a
disjunction and a conjunction, and each step is at most as high as the longest chain.

* `Expr.depth`, `Expr.longestChain` — steps down to a predicate, and how high they are;
* `Expr.height_le_depth_mul` — the height, by depth and chains;
* `Grammar.Expression.depth_tree_le` — the depth, by nesting;
* `parse_bounds_depth` — the trees of queries;
* `exists_deepest_query` — a query that reaches the bound;
* `exists_flat_query`, `height_unbounded` — queries without nesting, as high as one likes.
-/

namespace Taskboard.Query

open Grammar

/-! ## Chains -/

namespace Expr

def isConj : Expr → Bool
  | .conj _ _ => true
  | _ => false

def isDisj : Expr → Bool
  | .disj _ _ => true
  | _ => false

/-- The depth of two operands that are joined. A left one with the same connective goes on with its
chain, which is no further step. -/
def joinedDepth (continues : Bool) (left right : Nat) : Nat :=
  max (if continues then left else left + 1) (right + 1)

/-- The connectives on the longest way to a predicate, where a chain that is joined to the left
counts as one. -/
def depth : Expr → Nat
  | .leaf _ => 0
  | .conj l r => joinedDepth l.isConj l.depth r.depth
  | .disj l r => joinedDepth l.isDisj l.depth r.depth
  | .neg e => e.depth + 1

/-- How often the connective at the root is repeated down the left. A negation is a chain of its
own. -/
def chainLength : Expr → Nat
  | .leaf _ => 0
  | .conj l _ => (if l.isConj then l.chainLength else 0) + 1
  | .disj l _ => (if l.isDisj then l.chainLength else 0) + 1
  | .neg _ => 1

/-- The length of the longest chain anywhere. -/
def longestChain : Expr → Nat
  | .leaf _ => 0
  | .conj l r => max (chainLength (.conj l r)) (max l.longestChain r.longestChain)
  | .disj l r => max (chainLength (.disj l r)) (max l.longestChain r.longestChain)
  | .neg e => max 1 e.longestChain

theorem chainLength_le_longestChain (e : Expr) : e.chainLength ≤ e.longestChain := by
  cases e with
  | leaf p => exact Nat.le_refl _
  | conj l r => exact Nat.le_max_left _ _
  | disj l r => exact Nat.le_max_left _ _
  | neg e => exact Nat.le_max_left _ _

theorem joinedDepth_pos (continues : Bool) (left right : Nat) :
    0 < joinedDepth continues left right :=
  Nat.lt_of_lt_of_le (Nat.succ_pos right) (Nat.le_max_right _ _)

theorem joinedDepth_le (continues : Bool) (left right : Nat) :
    joinedDepth continues left right ≤ max left right + 1 := by
  unfold joinedDepth
  split <;> omega

/-- Only a leaf has no depth, and a leaf has no height. -/
theorem height_eq_zero_of_depth_eq_zero {e : Expr} (h : e.depth = 0) : e.height = 0 := by
  cases e with
  | leaf p => rfl
  | conj l r => exact absurd h (Nat.ne_of_gt (joinedDepth_pos _ _ _))
  | disj l r => exact absurd h (Nat.ne_of_gt (joinedDepth_pos _ _ _))
  | neg e => exact absurd h (Nat.succ_ne_zero _)

section Height

variable {limit : Nat}

/-- An expression whose last step is as high as its chain is at most as high as all of its steps. -/
theorem height_le_mul_of_chain {e : Expr} (hChain : e.longestChain ≤ limit)
    (h : e.height ≤ (e.depth - 1) * limit + e.chainLength) : e.height ≤ e.depth * limit := by
  have hLast := Nat.le_trans e.chainLength_le_longestChain hChain
  rcases Nat.eq_zero_or_pos e.depth with hZero | hPos
  · rw [height_eq_zero_of_depth_eq_zero hZero]
    exact Nat.zero_le _
  · calc e.height ≤ (e.depth - 1) * limit + limit := by omega
      _ = (e.depth - 1 + 1) * limit := (Nat.succ_mul _ _).symm
      _ = e.depth * limit := by rw [Nat.sub_add_cancel hPos]

/-- Two operands that are joined: a chain on the left gets one connective longer, and everything
else is one step down. -/
theorem height_joined_le {l r : Expr} (continues : Bool)
    (hChain : l.height ≤ (l.depth - 1) * limit + l.chainLength)
    (hl : l.height ≤ l.depth * limit) (hr : r.height ≤ r.depth * limit) :
    max l.height r.height + 1 ≤ (joinedDepth continues l.depth r.depth - 1) * limit +
      ((if continues then l.chainLength else 0) + 1) := by
  -- the right operand is a step down in any case
  have hRight : r.depth * limit ≤ (joinedDepth continues l.depth r.depth - 1) * limit := by
    refine Nat.mul_le_mul_right limit ?_
    unfold joinedDepth
    omega
  cases continues with
  | true =>
    -- the last step of the left operand goes on, the others are below it
    have hLeft : (l.depth - 1) * limit ≤ (joinedDepth true l.depth r.depth - 1) * limit := by
      refine Nat.mul_le_mul_right limit ?_
      simp only [joinedDepth, if_true]
      omega
    rw [if_pos rfl]
    omega
  | false =>
    -- a new step, of one connective, above all steps of the left operand
    have hLeft : l.depth * limit ≤ (joinedDepth false l.depth r.depth - 1) * limit := by
      refine Nat.mul_le_mul_right limit ?_
      simp only [joinedDepth, Bool.false_eq_true, if_false]
      omega
    rw [if_neg Bool.false_ne_true]
    omega

/-- All steps but the last are as high as the longest chain, and the last as high as its own. -/
theorem height_le_chain {e : Expr} (h : e.longestChain ≤ limit) :
    e.height ≤ (e.depth - 1) * limit + e.chainLength := by
  induction e with
  | leaf p => exact Nat.zero_le _
  | conj l r ihl ihr =>
    obtain ⟨-, hOperands⟩ := Nat.max_le.mp h
    obtain ⟨hl, hr⟩ := Nat.max_le.mp hOperands
    exact height_joined_le l.isConj (ihl hl) (height_le_mul_of_chain hl (ihl hl))
      (height_le_mul_of_chain hr (ihr hr))
  | disj l r ihl ihr =>
    obtain ⟨-, hOperands⟩ := Nat.max_le.mp h
    obtain ⟨hl, hr⟩ := Nat.max_le.mp hOperands
    exact height_joined_le l.isDisj (ihl hl) (height_le_mul_of_chain hl (ihl hl))
      (height_le_mul_of_chain hr (ihr hr))
  | neg e ih =>
    have hOperand := (Nat.max_le.mp h).2
    exact Nat.succ_le_succ (height_le_mul_of_chain hOperand (ih hOperand))

end Height

/-- **An expression is at most as high as its depth times its longest chain.** -/
theorem height_le_depth_mul (e : Expr) : e.height ≤ e.depth * e.longestChain :=
  height_le_mul_of_chain (Nat.le_refl _) (height_le_chain (Nat.le_refl _))

end Expr

/-! ## Nesting -/

namespace Grammar

mutual

/-- **The depth is bounded by the nesting.** A level adds the disjunction and the conjunction that
it may have; the longer chains become, the depth stays the same. -/
theorem Expression.depth_tree_le : ∀ d : Expression, d.tree.depth ≤ 2 * d.nesting + 2
  | .term t => Nat.le_succ_of_le t.depth_tree_le
  | .or (.term t) right => by
    -- a first operand may be a disjunction only if parentheses enclose it, a level down
    have hLeft := t.depth_tree_le
    have hRight := right.depth_tree_le
    have hJoined := Expr.joinedDepth_le t.tree.isDisj t.tree.depth right.tree.depth
    show Expr.joinedDepth t.tree.isDisj t.tree.depth right.tree.depth ≤
      2 * max t.nesting right.nesting + 2
    omega
  | .or (.or left middle) right => by
    -- the chain goes on, at the depth that it has
    have hLeft := (Expression.or left middle).depth_tree_le
    have hRight := right.depth_tree_le
    show max (Expression.or left middle).tree.depth (right.tree.depth + 1) ≤
      2 * max (Expression.or left middle).nesting right.nesting + 2
    omega

theorem Term.depth_tree_le : ∀ t : Term, t.tree.depth ≤ 2 * t.nesting + 1
  | .factor f => Nat.le_succ_of_le f.depth_tree_le
  | .and (.factor f) right => by
    -- likewise a first operand that is a conjunction
    have hLeft := f.depth_tree_le
    have hRight := right.depth_tree_le
    have hJoined := Expr.joinedDepth_le f.tree.isConj f.tree.depth right.tree.depth
    show Expr.joinedDepth f.tree.isConj f.tree.depth right.tree.depth ≤
      2 * max f.nesting right.nesting + 1
    omega
  | .and (.and left middle) right => by
    have hLeft := (Term.and left middle).depth_tree_le
    have hRight := right.depth_tree_le
    show max (Term.and left middle).tree.depth (right.tree.depth + 1) ≤
      2 * max (Term.and left middle).nesting right.nesting + 1
    omega

theorem Factor.depth_tree_le : ∀ f : Factor, f.tree.depth ≤ 2 * f.nesting
  | .field _ _ => Nat.le_refl _
  | .not operand => by
    have hOperand := operand.depth_tree_le
    show operand.tree.depth + 1 ≤ 2 * (operand.nesting + 1)
    omega
  | .paren inner => by
    -- the two steps of the level that the parentheses open
    have hInner := inner.depth_tree_le
    show inner.tree.depth ≤ 2 * (inner.nesting + 1)
    omega

end

end Grammar

/--
**The limit on nesting bounds the depth of the trees of queries**, though not their height, which is
at most this bound times the length of the longest chain.
-/
theorem parse_bounds_depth (text : String) (e : Expr) (h : Expr.parse text = .ok (some e)) :
    NestsWithin maxNesting text ∧ e.depth ≤ 2 * maxNesting + 2 ∧
      e.height ≤ (2 * maxNesting + 2) * e.longestChain := by
  obtain ⟨d, hKinds, rfl, hNesting⟩ := parse_eq_ok_some_iff.mp h
  -- the parser accepts derivations within the limit only, and the nesting bounds the depth
  have hDepth : d.tree.depth ≤ 2 * maxNesting + 2 := by
    have := d.depth_tree_le
    omega
  refine ⟨⟨d, hKinds, hNesting⟩, hDepth, ?_⟩
  exact Nat.le_trans d.tree.height_le_depth_mul (Nat.mul_le_mul_right _ hDepth)

/-- Two chains, one in the other, and neither of them a step further for its third operand. -/
theorem depth_of_chains :
    let e : Expr := .conj (.conj (.leaf ⟨"_text", .equal, "a"⟩) (.disj (.disj
      (.leaf ⟨"_text", .equal, "b"⟩) (.leaf ⟨"_text", .equal, "c"⟩))
      (.leaf ⟨"_text", .equal, "d"⟩))) (.leaf ⟨"_text", .equal, "e"⟩)
    Expr.parse "a AND (b OR c OR d) AND e" = .ok (some e) ∧ e.height = 4 ∧ e.depth = 2 ∧
      e.longestChain = 2 ∧ e.height ≤ (2 * maxNesting + 2) * e.longestChain := by
  intro e
  let b (value : String) : Factor := .field "_text" value
  let inner : Expression := .or (.or (.term (.factor (b "b"))) (.factor (b "c"))) (.factor (b "d"))
  let d : Expression := .term (.and (.and (.factor (b "a")) (.paren inner)) (b "e"))
  have hParse : Expr.parse "a AND (b OR c OR d) AND e" = .ok (some e) :=
    parse_eq_ok_some_iff.mpr ⟨d, by decide +kernel, by decide +kernel, by decide⟩
  exact ⟨hParse, rfl, rfl, rfl, (parse_bounds_depth _ e hParse).2.2⟩

/-! ## Deepest queries -/

/-- A query in parentheses, behind a disjunction and a conjunction that are open, is a level and two
steps further down. -/
theorem derives_or_and_parens {levels : Nat} {text : String} {e : Expr}
    (h : Expression.Derives levels (lexed text.toList) e) :
    Expression.Derives (levels + 1) (lexed ("a OR a AND (" ++ text ++ ")").toList)
      (.disj (.leaf (Predicate.parse textField "a"))
        (.conj (.leaf (Predicate.parse textField "a")) e)) := by
  obtain ⟨d, hKinds, rfl, hNesting⟩ := h
  let a : Factor := .field textField "a"
  refine ⟨.or (.term (.factor a)) (.and (.factor a) (.paren d)), ?_, rfl, ?_⟩
  · have hText : ("a OR a AND (" ++ text ++ ")").toList =
        ['a'] ++ ' ' :: ("OR".toList ++ ' ' :: (['a'] ++ ' ' ::
          ("AND".toList ++ ' ' :: '(' :: (text.toList ++ [')'])))) := by
      simp
    have hWord : ∀ cs, lexed (['a'] ++ ' ' :: cs) = .field textField "a" :: lexed cs := by
      intro cs
      have hKind : Kind.ofWord ['a'] = .field textField "a" := by decide +kernel
      rw [lexed_word_blank ⟨by decide, by decide⟩, hKind]
    rw [hText, hWord, lexed_or, hWord, lexed_and, lexed_parens, lexed_nil, ← hKinds]
    rfl
  · show max 0 (max 0 (d.nesting + 1)) ≤ levels + 1
    omega

/-- **The bound on the depth is reached**, with every level of nesting that there is. -/
theorem exists_deepest_query :
    ∃ text e, Expr.parse text = .ok (some e) ∧ e.depth = 2 * maxNesting + 2 := by
  have hDeepest : ∀ levels, ∃ (text : String) (e : Expr),
      Expression.Derives levels (lexed text.toList) e ∧ e.depth = 2 * levels + 2 := by
    intro levels
    induction levels with
    | zero =>
      let a : Factor := .field textField "a"
      refine ⟨"a OR a AND a", _, ⟨.or (.term (.factor a)) (.and (.factor a) a), ?_, rfl, ?_⟩, rfl⟩
      · decide +kernel
      · exact Nat.le_refl _
    | succ levels ih =>
      -- neither operand goes on with the chain of the other, so both connectives count
      obtain ⟨text, e, hDerives, hDepth⟩ := ih
      refine ⟨_, _, derives_or_and_parens hDerives, ?_⟩
      show max (0 + 1) (max (0 + 1) (e.depth + 1) + 1) = 2 * (levels + 1) + 2
      omega
  obtain ⟨text, e, hDerives, hDepth⟩ := hDeepest maxNesting
  exact ⟨text, e, parse_eq_ok_some_iff.mpr hDerives, hDepth⟩

/-! ## Queries without nesting -/

/-- A query goes on with one more operand, on no further level, and its tree gets higher. -/
theorem derives_append_or {levels : Nat} {text : String} {e : Expr}
    (h : Expression.Derives levels (lexed text.toList) e) :
    Expression.Derives levels (lexed (text ++ " OR a").toList)
      (.disj e (.leaf (Predicate.parse textField "a"))) := by
  obtain ⟨d, hKinds, rfl, hNesting⟩ := h
  refine ⟨.or d (.factor (.field textField "a")), ?_, rfl, ?_⟩
  · have hText : (text ++ " OR a").toList =
        text.toList ++ ' ' :: ("OR".toList ++ ' ' :: "a".toList) := by
      simp
    have hLast : lexed "a".toList = [.field textField "a"] := by decide +kernel
    rw [hText, lexed_append _ (apart_cons.mpr (by decide)), lexed_blank (by decide), lexed_or,
      hLast, ← hKinds]
    rfl
  · exact Nat.max_le.mpr ⟨hNesting, Nat.zero_le _⟩

/-- **Without any nesting, a query may be as high as one likes.** -/
theorem exists_flat_query (n : Nat) :
    ∃ text e, NestsWithin 0 text ∧ Expr.parse text = .ok (some e) ∧ e.height = n := by
  -- said of derivations, so that the induction keeps what the extension of a query needs
  have hFlat : ∃ (text : String) (e : Expr),
      Expression.Derives 0 (lexed text.toList) e ∧ e.height = n := by
    induction n with
    | zero =>
      refine ⟨"a", .leaf (Predicate.parse textField "a"), ?_, rfl⟩
      exact ⟨.term (.factor (.field textField "a")), by decide +kernel, rfl, Nat.le_refl _⟩
    | succ n ih =>
      obtain ⟨text, e, hDerives, hHeight⟩ := ih
      refine ⟨_, _, derives_append_or hDerives, ?_⟩
      show max e.height 0 + 1 = n + 1
      omega
  obtain ⟨text, e, hDerives, hHeight⟩ := hFlat
  refine ⟨text, e, ?_, parse_eq_ok_some_iff.mpr (hDerives.mono (Nat.zero_le _)), hHeight⟩
  obtain ⟨d, hKinds, -, hNesting⟩ := hDerives
  exact ⟨d, hKinds, hNesting⟩

/-- No height bounds the trees of all queries. -/
theorem height_unbounded :
    ¬∃ bound, ∀ text e, Expr.parse text = .ok (some e) → e.height ≤ bound := by
  rintro ⟨bound, hBound⟩
  obtain ⟨text, e, -, hParse, hHeight⟩ := exists_flat_query (bound + 1)
  have := hBound text e hParse
  omega

end Taskboard.Query
