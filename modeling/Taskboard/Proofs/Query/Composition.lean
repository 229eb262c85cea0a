import Taskboard.Proofs.Query.Lexing
import Taskboard.Query.Filter

/-!
# Taskboard — queries put together as text

Two queries in parentheses with a connective between them are a query again, and so is `NOT` in
front of one in parentheses. However loose the parts are, the parentheses hold them together: what
is read is the tree of both trees, and what passes is what the connective says.

* `NestsWithin` — the nesting of a text, by the derivation of its kinds;
* `Filter.Decides` — a filter that has a tree and lets through what satisfies a test;
* `Filter.select_eq_filter` — a filter selects the items that it accepts;
* `compile_combined` — conjunction, disjunction and negation of queries as text.
-/

namespace Taskboard.Query

open Grammar

/-- A text whose parentheses and negations have no higher level than some. The level of one is one
more than the number of pairs of parentheses and of negations that enclose it. -/
def NestsWithin (levels : Nat) (text : String) : Prop :=
  ∃ d : Expression, d.kinds = word (tokenize text) ∧ d.nesting ≤ levels

namespace Filter

/-- A filter without a fault whose tree is `e` and that lets through what satisfies a test, from
every board and in its order. -/
structure Decides (f : Filter) (e : Expr) (test : WorkItem → Bool) : Prop where
  isValid : f.isValid = true
  active  : f.active? = some e
  accepts : ∀ item, f.accepts item = test item
  select  : ∀ board, f.select board = board.filter test

/-- **A filter selects the items that it accepts**, in their order. -/
theorem select_eq_filter (f : Filter) (board : Board) :
    f.select board = board.filter f.accepts := by
  unfold select accepts
  cases f.active? with
  | none => exact (List.filter_eq_self.mpr fun _ _ => rfl).symm
  | some e => rfl

theorem accepts_of_parsed {f : Filter} {e : Expr} (h : f.parsed = .ok (some e)) :
    f.accepts = e.holds := by
  funext item
  rw [accepts, active?, h]

theorem decides_of_parsed {f : Filter} {e : Expr} {test : WorkItem → Bool}
    (h : f.parsed = .ok (some e)) (hTest : e.holds = test) : f.Decides e test where
  isValid := by rw [isValid, error?, h]; rfl
  active := by rw [active?, h]
  accepts := by
    intro item
    rw [accepts_of_parsed h, hTest]
  select := by
    intro board
    rw [select_eq_filter, accepts_of_parsed h, hTest]

/-- A text compiles to the tree of a derivation of its kinds. -/
theorem compile_parsed_iff {text : String} {e : Expr} :
    (compile text).parsed = .ok (some e) ↔ Expression.Derives maxNesting (lexed text.toList) e :=
  parse_trim_eq_ok_some_iff.trans parse_eq_ok_some_iff

end Filter

/-! ## Trees -/

/-- A text that compiles to a tree, and nests within some levels, has a derivation of that tree
within those levels. -/
theorem derives_of_nestsWithin {levels : Nat} {text : String} {e : Expr}
    (h : (Filter.compile text).parsed = .ok (some e)) (hNests : NestsWithin levels text) :
    Expression.Derives levels (lexed text.toList) e := by
  obtain ⟨c, hKinds, rfl, -⟩ := Filter.compile_parsed_iff.mp h
  obtain ⟨d, hWord, hLevels⟩ := hNests
  -- both derive the word of the text, which has one tree only
  exact ⟨d, hWord, Expression.tree_unique (hWord.trans hKinds.symm), hLevels⟩

section Derivations

variable {levels : Nat} {v w : List Kind} {a b : Expr}

theorem derives_conj (hv : Expression.Derives levels v a) (hw : Expression.Derives levels w b) :
    Expression.Derives (levels + 1)
      (.leftParen :: (v ++ .rightParen :: .and :: .leftParen :: (w ++ [.rightParen])))
      (.conj a b) := by
  obtain ⟨c, rfl, rfl, hc⟩ := hv
  obtain ⟨d, rfl, rfl, hd⟩ := hw
  refine ⟨.term (.and (.factor (.paren c)) (.paren d)), ?_, rfl, ?_⟩
  · simp [Expression.kinds, Term.kinds, Factor.kinds]
  · exact Nat.max_le.mpr ⟨Nat.succ_le_succ hc, Nat.succ_le_succ hd⟩

theorem derives_disj (hv : Expression.Derives levels v a) (hw : Expression.Derives levels w b) :
    Expression.Derives (levels + 1)
      (.leftParen :: (v ++ .rightParen :: .or :: .leftParen :: (w ++ [.rightParen])))
      (.disj a b) := by
  obtain ⟨c, rfl, rfl, hc⟩ := hv
  obtain ⟨d, rfl, rfl, hd⟩ := hw
  refine ⟨.or (.term (.factor (.paren c))) (.factor (.paren d)), ?_, rfl, ?_⟩
  · simp [Expression.kinds, Term.kinds, Factor.kinds]
  · exact Nat.max_le.mpr ⟨Nat.succ_le_succ hc, Nat.succ_le_succ hd⟩

theorem derives_neg (hv : Expression.Derives levels v a) :
    Expression.Derives (levels + 2) (.not :: .leftParen :: (v ++ [.rightParen])) (.neg a) := by
  obtain ⟨c, rfl, rfl, hc⟩ := hv
  refine ⟨.term (.factor (.not (.paren c))), ?_, rfl, ?_⟩
  · simp [Expression.kinds, Term.kinds, Factor.kinds]
  · exact Nat.succ_le_succ (Nat.succ_le_succ hc)

theorem Grammar.Expression.Derives.mono {levels' : Nat} (h : levels ≤ levels')
    (hv : Expression.Derives levels v a) : Expression.Derives levels' v a := by
  obtain ⟨d, hKinds, hTree, hLevels⟩ := hv
  exact ⟨d, hKinds, hTree, Nat.le_trans hLevels h⟩

end Derivations

/--
**Queries compose as text.** Let two texts compile to trees, and leave two levels free. Then the
texts in parentheses joined by a connective, and `NOT` in front of one in parentheses, compile to
the trees joined by it; and of every board they select, in its order, what both select, what one of
them does, and what the one does not.
-/
theorem compile_combined (q r : String) (a b : Expr)
    (hq : (Filter.compile q).parsed = .ok (some a)) (hr : (Filter.compile r).parsed = .ok (some b))
    (hqNests : NestsWithin (maxNesting - 2) q) (hrNests : NestsWithin (maxNesting - 2) r) :
    (Filter.compile q).Decides a (Filter.compile q).accepts ∧
    (Filter.compile r).Decides b (Filter.compile r).accepts ∧
    (Filter.compile ("(" ++ q ++ ") AND (" ++ r ++ ")")).Decides (.conj a b)
      (fun item => (Filter.compile q).accepts item && (Filter.compile r).accepts item) ∧
    (Filter.compile ("(" ++ q ++ ") OR (" ++ r ++ ")")).Decides (.disj a b)
      (fun item => (Filter.compile q).accepts item || (Filter.compile r).accepts item) ∧
    (Filter.compile ("NOT (" ++ q ++ ")")).Decides (.neg a)
      (fun item => !(Filter.compile q).accepts item) := by
  -- both parts have derivations with two levels to spare, one for the parentheses, one for `NOT`
  have hDerivesQ := derives_of_nestsWithin hq hqNests
  have hDerivesR := derives_of_nestsWithin hr hrNests
  have hAcceptsQ := Filter.accepts_of_parsed hq
  have hAcceptsR := Filter.accepts_of_parsed hr
  rw [hAcceptsQ, hAcceptsR]
  refine ⟨Filter.decides_of_parsed hq rfl, Filter.decides_of_parsed hr rfl,
    Filter.decides_of_parsed (Filter.compile_parsed_iff.mpr ?_) rfl,
    Filter.decides_of_parsed (Filter.compile_parsed_iff.mpr ?_) rfl,
    Filter.decides_of_parsed (Filter.compile_parsed_iff.mpr ?_) rfl⟩
  · have hText : ("(" ++ q ++ ") AND (" ++ r ++ ")").toList =
        '(' :: (q.toList ++ ')' :: ' ' :: ("AND".toList ++ ' ' :: '(' :: (r.toList ++ [')']))) := by
      simp
    rw [hText, lexed_parens, lexed_blank (by decide), lexed_and, lexed_parens, lexed_nil]
    exact (derives_conj hDerivesQ hDerivesR).mono (by decide)
  · have hText : ("(" ++ q ++ ") OR (" ++ r ++ ")").toList =
        '(' :: (q.toList ++ ')' :: ' ' :: ("OR".toList ++ ' ' :: '(' :: (r.toList ++ [')']))) := by
      simp
    rw [hText, lexed_parens, lexed_blank (by decide), lexed_or, lexed_parens, lexed_nil]
    exact (derives_disj hDerivesQ hDerivesR).mono (by decide)
  · have hText : ("NOT (" ++ q ++ ")").toList =
        "NOT".toList ++ ' ' :: '(' :: (q.toList ++ [')']) := by
      simp
    rw [hText, lexed_not, lexed_parens, lexed_nil]
    exact derives_neg hDerivesQ

/-- A disjunction and a negation with blanks around it, which are looser than the `AND` between
them. -/
theorem compile_disjunction_and_negation :
    let a : Expr := .disj (.leaf ⟨"_text", .equal, "a"⟩) (.leaf ⟨"_text", .contains, "b"⟩)
    let b : Expr := .neg (.leaf ⟨"priority", .greater, "1"⟩)
    (Filter.compile "a OR *b").parsed = .ok (some a) ∧
      (Filter.compile " not Priority:>1 ").parsed = .ok (some b) ∧
      (Filter.compile "(a OR *b) AND ( not Priority:>1 )").Decides (.conj a b) fun item =>
        (Filter.compile "a OR *b").accepts item &&
          (Filter.compile " not Priority:>1 ").accepts item := by
  intro a b
  -- the derivations that the two texts have
  let c : Expression := .or (.term (.factor (.field "_text" "a"))) (.factor (.field "_text" "*b"))
  let d : Expression := .term (.factor (.not (.field "priority" ">1")))
  have hc : c.kinds = word (tokenize "a OR *b") := by decide +kernel
  have hd : d.kinds = word (tokenize " not Priority:>1 ") := by decide +kernel
  have hq : (Filter.compile "a OR *b").parsed = .ok (some a) :=
    Filter.compile_parsed_iff.mpr ⟨c, hc, by decide +kernel, by decide⟩
  have hr : (Filter.compile " not Priority:>1 ").parsed = .ok (some b) :=
    Filter.compile_parsed_iff.mpr ⟨d, hd, by decide +kernel, by decide⟩
  have hCombined := compile_combined _ _ a b hq hr ⟨c, hc, by decide⟩ ⟨d, hd, by decide⟩
  exact ⟨hq, hr, hCombined.2.2.1⟩

end Taskboard.Query
