import Mathlib.Data.List.DropRight
import Taskboard.Proofs.Query.Recognition

/-!
# Taskboard — texts put together

A text is made of blanks, parentheses and words. The tokens of a part do not depend on what stands
in front of it, and where no word goes on a text may be cut: the kinds of the whole are those of
both parts. So queries can be written from parts, and every token of a query begins at such a cut.

* `text_induction` — what holds of all texts, said piece by piece;
* `pairwise_position_scan` — positions ascend, so that a position tells a token;
* `lexed` — the kinds of a text without the end of the query;
* `lexed_append` — the kinds of a text that is cut;
* `cutAt_of_scan` — the cut in front of a token;
* `lexed_stripEnds` — blanks around a text do not count;
* `parse_eq_ok_some_iff` — a text is read as the tree of a derivation of its kinds.
-/

namespace Taskboard.Query

/-! ## The pieces of a text -/

/-- A text in which no word can go on. -/
def Apart (cs : List Char) : Prop :=
  ∀ c ∈ cs.head?, isWordChar c = false

/-- Some characters that a word consists of. -/
def IsWord (w : List Char) : Prop :=
  w ≠ [] ∧ w.all isWordChar = true

theorem isWordChar_iff {c : Char} :
    isWordChar c = true ↔ Text.isBlank c = false ∧ c ≠ '(' ∧ c ≠ ')' := by
  rw [isWordChar, Bool.and_eq_true, Bool.and_eq_true, Bool.not_eq_true', bne_iff_ne, bne_iff_ne,
    and_assoc]

theorem isWordChar_of_isBlank {c : Char} (h : Text.isBlank c = true) : isWordChar c = false := by
  rw [← Bool.not_eq_true, isWordChar_iff, h]
  simp

theorem apart_nil : Apart [] := by
  simp [Apart]

theorem apart_cons {c : Char} {cs : List Char} : Apart (c :: cs) ↔ isWordChar c = false := by
  simp [Apart]

theorem Apart.append {cs ds : List Char} (hcs : Apart cs) (hds : Apart ds) : Apart (cs ++ ds) := by
  cases cs with
  | nil => exact hds
  | cons c cs => exact apart_cons.mpr (apart_cons.mp hcs)

theorem Apart.of_append {cs ds : List Char} (h : Apart (cs ++ ds)) : Apart cs := by
  cases cs with
  | nil => exact apart_nil
  | cons c cs => exact apart_cons.mpr (apart_cons.mp h)

/-- A character of a word begins a longest word. -/
theorem exists_word_of_isWordChar {c : Char} (hc : isWordChar c = true) (cs : List Char) :
    IsWord (c :: cs.takeWhile isWordChar) ∧ Apart (cs.dropWhile isWordChar) ∧
      c :: cs = (c :: cs.takeWhile isWordChar) ++ cs.dropWhile isWordChar := by
  refine ⟨⟨List.cons_ne_nil _ _, ?_⟩, ?_, ?_⟩
  · rw [List.all_cons, hc, List.all_takeWhile, Bool.and_self]
  · intro x hx
    have hNot := List.head?_dropWhile_not isWordChar cs
    rw [Option.mem_def.mp hx] at hNot
    exact hNot
  · rw [List.cons_append, List.takeWhile_append_dropWhile]

/-- **A text is made of blanks, parentheses and words.** -/
theorem text_induction {motive : List Char → Prop} (nil : motive [])
    (blank : ∀ c cs, Text.isBlank c = true → motive cs → motive (c :: cs))
    (leftParen : ∀ cs, motive cs → motive ('(' :: cs))
    (rightParen : ∀ cs, motive cs → motive (')' :: cs))
    (word : ∀ w cs, IsWord w → Apart cs → motive cs → motive (w ++ cs)) (cs : List Char) :
    motive cs := by
  -- a word is taken off as a whole, so the induction is on the length and not on the list
  induction hLength : cs.length using Nat.strongRecOn generalizing cs with
  | ind n ih =>
    subst hLength
    cases cs with
    | nil => exact nil
    | cons c cs =>
      by_cases hBlank : Text.isBlank c = true
      · exact blank c cs hBlank (ih _ (by simp) cs rfl)
      by_cases hLeft : c = '('
      · exact hLeft ▸ leftParen cs (ih _ (by simp) cs rfl)
      by_cases hRight : c = ')'
      · exact hRight ▸ rightParen cs (ih _ (by simp) cs rfl)
      have hc : isWordChar c = true :=
        isWordChar_iff.mpr ⟨Bool.eq_false_iff.mpr hBlank, hLeft, hRight⟩
      obtain ⟨hWord, hApart, hSplit⟩ := exists_word_of_isWordChar hc cs
      rw [hSplit]
      refine word _ _ hWord hApart (ih _ ?_ _ rfl)
      exact Nat.lt_succ_of_le (length_dropWhile_le _ _)

/-! ## Scanning -/

theorem scan_nil (position : Nat) : scan position [] = [⟨.endOfQuery, position⟩] := by
  rw [scan]

theorem scan_blank {c : Char} (h : Text.isBlank c = true) (position : Nat) (cs : List Char) :
    scan position (c :: cs) = scan (position + 1) cs := by
  rw [scan, if_pos h]

theorem scan_leftParen (position : Nat) (cs : List Char) :
    scan position ('(' :: cs) = ⟨.leftParen, position⟩ :: scan (position + 1) cs := by
  rw [scan, if_neg (by decide), if_pos rfl]

theorem scan_rightParen (position : Nat) (cs : List Char) :
    scan position (')' :: cs) = ⟨.rightParen, position⟩ :: scan (position + 1) cs := by
  rw [scan, if_neg (by decide), if_neg (by decide), if_pos rfl]

theorem scan_word {w cs : List Char} (hw : IsWord w) (hcs : Apart cs) (position : Nat) :
    scan position (w ++ cs) = ⟨.ofWord w, position⟩ :: scan (position + w.length) cs := by
  obtain ⟨hne, hAll⟩ := hw
  rw [List.all_eq_true] at hAll
  obtain ⟨c, w, rfl⟩ := List.exists_cons_of_ne_nil hne
  obtain ⟨hBlank, hLeft, hRight⟩ := isWordChar_iff.mp (hAll c List.mem_cons_self)
  have hRest : ∀ x ∈ w, isWordChar x = true := fun x hx => hAll x (List.mem_cons_of_mem _ hx)
  -- the word stops where the text is cut, and not before
  have hTake : (w ++ cs).takeWhile isWordChar = w := by
    rw [List.takeWhile_append_of_pos hRest]
    cases cs with
    | nil => simp
    | cons d cs => simp [apart_cons.mp hcs]
  have hDrop : (w ++ cs).dropWhile isWordChar = cs := by
    rw [List.dropWhile_append_of_pos hRest]
    cases cs with
    | nil => rfl
    | cons d cs => simp [apart_cons.mp hcs]
  rw [List.cons_append, scan, if_neg (by simp [hBlank]), if_neg hLeft, if_neg hRight, hTake, hDrop]

theorem Kind.ofTerm_eq_field (w : List Char) : ∃ name value, Kind.ofTerm w = .field name value := by
  rw [Kind.ofTerm]
  split <;> exact ⟨_, _, rfl⟩

theorem Kind.ofWord_ne_endOfQuery (w : List Char) : Kind.ofWord w ≠ .endOfQuery := by
  obtain ⟨name, value, hTerm⟩ := Kind.ofTerm_eq_field w
  rw [Kind.ofWord, hTerm]
  repeat' split
  all_goals simp

/-! ## Positions -/

theorem le_position_of_mem_scan {position : Nat} {cs : List Char} {t : Token}
    (h : t ∈ scan position cs) : position ≤ t.position := by
  induction cs using text_induction generalizing position with
  | nil =>
    rw [scan_nil, List.mem_singleton] at h
    rw [h]
  | blank c cs hc ih =>
    rw [scan_blank hc] at h
    have := ih h
    omega
  | leftParen cs ih =>
    rw [scan_leftParen, List.mem_cons] at h
    rcases h with rfl | h
    · exact Nat.le_refl _
    · have := ih h
      omega
  | rightParen cs ih =>
    rw [scan_rightParen, List.mem_cons] at h
    rcases h with rfl | h
    · exact Nat.le_refl _
    · have := ih h
      omega
  | word w cs hw hcs ih =>
    rw [scan_word hw hcs, List.mem_cons] at h
    rcases h with rfl | h
    · exact Nat.le_refl _
    · have := ih h
      omega

/-- **Positions ascend**: each token takes up a character, and the end comes behind all of them. -/
theorem pairwise_position_scan (position : Nat) (cs : List Char) :
    (scan position cs).Pairwise fun t u => t.position < u.position := by
  induction cs using text_induction generalizing position with
  | nil =>
    rw [scan_nil]
    exact List.pairwise_singleton _ _
  | blank c cs hc ih =>
    rw [scan_blank hc]
    exact ih _
  | leftParen cs ih =>
    rw [scan_leftParen, List.pairwise_cons]
    exact ⟨fun u hu => le_position_of_mem_scan hu, ih _⟩
  | rightParen cs ih =>
    rw [scan_rightParen, List.pairwise_cons]
    exact ⟨fun u hu => le_position_of_mem_scan hu, ih _⟩
  | word w cs hw hcs ih =>
    rw [scan_word hw hcs, List.pairwise_cons]
    refine ⟨fun u hu => ?_, ih _⟩
    -- a word has a character at least, so what comes behind it stands further on
    have hLength := List.length_pos_of_ne_nil hw.1
    have hAfter := le_position_of_mem_scan hu
    show position < u.position
    omega

/-! ## Kinds -/

/-- The kinds of the tokens of a text, without the end of the query. -/
def lexed (cs : List Char) : List Kind :=
  word (scan 0 cs)

theorem word_cons {t : Token} (ht : t.kind ≠ .endOfQuery) (tokens : List Token) :
    word (t :: tokens) = t.kind :: word tokens := by
  rw [word, List.map_cons, List.takeWhile_cons, if_pos (by simpa using ht), word]

/-- The kinds of a text do not depend on what stands in front of it. -/
theorem word_scan (position : Nat) (cs : List Char) : word (scan position cs) = lexed cs := by
  rw [lexed]
  generalize 0 = other
  induction cs using text_induction generalizing position other with
  | nil => rw [scan_nil, scan_nil]; rfl
  | blank c cs hc ih => rw [scan_blank hc, scan_blank hc, ih]
  | leftParen cs ih =>
    rw [scan_leftParen, scan_leftParen, word_cons (by simp), word_cons (by simp), ih]
  | rightParen cs ih =>
    rw [scan_rightParen, scan_rightParen, word_cons (by simp), word_cons (by simp), ih]
  | word w cs hw hcs ih =>
    rw [scan_word hw hcs, scan_word hw hcs, word_cons (Kind.ofWord_ne_endOfQuery w),
      word_cons (Kind.ofWord_ne_endOfQuery w), ih]

theorem lexed_nil : lexed [] = [] := by
  rw [lexed, scan_nil]
  rfl

theorem lexed_blank {c : Char} (h : Text.isBlank c = true) (cs : List Char) :
    lexed (c :: cs) = lexed cs := by
  rw [lexed, scan_blank h, word_scan]

theorem lexed_leftParen (cs : List Char) : lexed ('(' :: cs) = .leftParen :: lexed cs := by
  rw [lexed, scan_leftParen, word_cons (by simp), word_scan]

theorem lexed_rightParen (cs : List Char) : lexed (')' :: cs) = .rightParen :: lexed cs := by
  rw [lexed, scan_rightParen, word_cons (by simp), word_scan]

theorem lexed_word {w cs : List Char} (hw : IsWord w) (hcs : Apart cs) :
    lexed (w ++ cs) = .ofWord w :: lexed cs := by
  rw [lexed, scan_word hw hcs, word_cons (Kind.ofWord_ne_endOfQuery w), word_scan]

/-- The end of the query comes once, and last. -/
theorem map_kind_scan (position : Nat) (cs : List Char) :
    (scan position cs).map Token.kind = lexed cs ++ [.endOfQuery] := by
  induction cs using text_induction generalizing position with
  | nil => rw [scan_nil, lexed_nil]; rfl
  | blank c cs hc ih => rw [scan_blank hc, lexed_blank hc, ih]
  | leftParen cs ih => rw [scan_leftParen, lexed_leftParen, List.map_cons, ih, List.cons_append]
  | rightParen cs ih => rw [scan_rightParen, lexed_rightParen, List.map_cons, ih, List.cons_append]
  | word w cs hw hcs ih =>
    rw [scan_word hw hcs, lexed_word hw hcs, List.map_cons, ih, List.cons_append]

/-! ## Cuts -/

/-- **A text may be cut where no word goes on.** -/
theorem lexed_append (cs : List Char) {ds : List Char} (hds : Apart ds) :
    lexed (cs ++ ds) = lexed cs ++ lexed ds := by
  induction cs using text_induction with
  | nil => rw [lexed_nil, List.nil_append, List.nil_append]
  | blank c cs hc ih => rw [List.cons_append, lexed_blank hc, lexed_blank hc, ih]
  | leftParen cs ih =>
    rw [List.cons_append, lexed_leftParen, lexed_leftParen, ih, List.cons_append]
  | rightParen cs ih =>
    rw [List.cons_append, lexed_rightParen, lexed_rightParen, ih, List.cons_append]
  | word w cs hw hcs ih =>
    rw [List.append_assoc, lexed_word hw (hcs.append hds), lexed_word hw hcs, ih, List.cons_append]

theorem lexed_parens (cs ds : List Char) :
    lexed ('(' :: (cs ++ ')' :: ds)) = .leftParen :: (lexed cs ++ .rightParen :: lexed ds) := by
  rw [lexed_leftParen, lexed_append cs (apart_cons.mpr (by decide)), lexed_rightParen]

theorem lexed_word_blank {w : List Char} (hw : IsWord w) (cs : List Char) :
    lexed (w ++ ' ' :: cs) = .ofWord w :: lexed cs := by
  rw [lexed_word hw (apart_cons.mpr (by decide)), lexed_blank (by decide)]

theorem lexed_and (cs : List Char) : lexed ("AND".toList ++ ' ' :: cs) = .and :: lexed cs := by
  have hKind : Kind.ofWord "AND".toList = .and := by decide +kernel
  rw [lexed_word_blank ⟨by decide, by decide⟩, hKind]

theorem lexed_or (cs : List Char) : lexed ("OR".toList ++ ' ' :: cs) = .or :: lexed cs := by
  have hKind : Kind.ofWord "OR".toList = .or := by decide +kernel
  rw [lexed_word_blank ⟨by decide, by decide⟩, hKind]

theorem lexed_not (cs : List Char) : lexed ("NOT".toList ++ ' ' :: cs) = .not :: lexed cs := by
  have hKind : Kind.ofWord "NOT".toList = .not := by decide +kernel
  rw [lexed_word_blank ⟨by decide, by decide⟩, hKind]

/-- Two texts in parentheses with an operator between them. -/
theorem lexed_joined {w : List Char} {k : Kind}
    (hOperator : ∀ cs, lexed (w ++ ' ' :: cs) = k :: lexed cs) (cs ds : List Char) :
    lexed ('(' :: ((cs ++ ' ' :: (w ++ ' ' :: ds)) ++ [')'])) =
      .leftParen :: ((lexed cs ++ k :: lexed ds) ++ [.rightParen]) := by
  rw [lexed_parens, lexed_append cs (apart_cons.mpr (by decide)), lexed_blank (by decide),
    hOperator, lexed_nil]

/-- A text is cut in front of a token: what stands before the cut has the kinds of the tokens
before, and what stands behind it begins with the token. -/
def CutAt (position : Nat) (cs : List Char) (front : List Token) (t : Token) (back : List Token) :
    Prop :=
  ∃ before after, cs = before ++ after ∧ t.position = position + before.length ∧
    lexed before = front.map Token.kind ∧ scan t.position after = t :: back ∧
    ∀ c ∈ after.head?, Text.isBlank c = false

/-- Behind a piece that is a token there is a cut if there is one in the rest. -/
theorem cutAt_of_piece (piece : List Char) {cs : List Char} {k : Kind} {position : Nat}
    {front back : List Token} {t : Token} {tokens : List Token}
    (hScan : scan position (piece ++ cs) = ⟨k, position⟩ :: tokens)
    (hHead : ∀ c ∈ (piece ++ cs).head?, Text.isBlank c = false)
    (hLexed : ∀ before after, cs = before ++ after → lexed (piece ++ before) = k :: lexed before)
    (hRest : ∀ {front}, tokens = front ++ t :: back →
      CutAt (position + piece.length) cs front t back)
    (h : scan position (piece ++ cs) = front ++ t :: back) :
    CutAt position (piece ++ cs) front t back := by
  cases front with
  | nil =>
    have ht : t = ⟨k, position⟩ := (List.cons.inj (hScan.symm.trans h)).1.symm
    refine ⟨[], piece ++ cs, rfl, by rw [ht]; rfl, lexed_nil, ?_, hHead⟩
    rw [ht] at h ⊢
    exact h
  | cons u front =>
    -- the piece is one of the tokens in front, and goes before the cut with them
    obtain ⟨rfl, hTokens⟩ := List.cons.inj (hScan.symm.trans h)
    obtain ⟨before, after, hcs, hPosition, hBefore, hAfter⟩ := hRest hTokens
    refine ⟨piece ++ before, after, by rw [hcs, List.append_assoc], ?_, ?_, hAfter⟩
    · rw [hPosition, List.length_append, Nat.add_assoc]
    · rw [hLexed before after hcs, hBefore, List.map_cons]

/-- **Every token begins at a cut.** -/
theorem cutAt_of_scan {position : Nat} {cs : List Char} {front back : List Token} {t : Token}
    (h : scan position cs = front ++ t :: back) : CutAt position cs front t back := by
  induction cs using text_induction generalizing position front with
  | nil =>
    have hScan := h
    rw [scan_nil] at h
    obtain ⟨rfl, ht⟩ := List.append_eq_singleton_iff.mp h.symm |>.resolve_right (by simp)
    obtain ⟨rfl, -⟩ := List.cons.inj ht
    exact ⟨[], [], rfl, rfl, lexed_nil, hScan, by simp⟩
  | blank c cs hc ih =>
    rw [scan_blank hc] at h
    obtain ⟨before, after, rfl, hPosition, hBefore, hAfter⟩ := ih h
    refine ⟨c :: before, after, rfl, ?_, by rw [lexed_blank hc, hBefore], hAfter⟩
    rw [hPosition, List.length_cons, Nat.add_assoc, Nat.add_comm 1]
  | leftParen cs ih =>
    refine cutAt_of_piece ['('] (scan_leftParen position cs) ?_ (fun before _ _ => ?_) ih h
    · intro c hc
      cases hc
      rfl
    · exact lexed_leftParen before
  | rightParen cs ih =>
    refine cutAt_of_piece [')'] (scan_rightParen position cs) ?_ (fun before _ _ => ?_) ih h
    · intro c hc
      cases hc
      rfl
    · exact lexed_rightParen before
  | word w cs hw hcs ih =>
    refine cutAt_of_piece w (scan_word hw hcs position) ?_ (fun before after hSplit => ?_) ih h
    · intro c hc
      rw [List.head?_append_of_ne_nil _ hw.1] at hc
      have hChar := List.all_eq_true.mp hw.2 c (List.mem_of_mem_head? hc)
      exact (isWordChar_iff.mp hChar).1
    · -- a cut further on leaves the word as it is
      exact lexed_word hw (hSplit ▸ hcs).of_append

/-! ## Blanks around a text -/

theorem lexed_of_forall_isBlank {cs : List Char} (h : ∀ c ∈ cs, Text.isBlank c = true) :
    lexed cs = [] := by
  induction cs with
  | nil => exact lexed_nil
  | cons c cs ih =>
    rw [lexed_blank (h c List.mem_cons_self), ih fun x hx => h x (List.mem_cons_of_mem _ hx)]

theorem lexed_dropWhile_isBlank (cs : List Char) :
    lexed (cs.dropWhile Text.isBlank) = lexed cs := by
  induction cs with
  | nil => rfl
  | cons c cs ih =>
    by_cases hc : Text.isBlank c = true
    · rw [List.dropWhile_cons_of_pos hc, ih, lexed_blank hc]
    · rw [List.dropWhile_cons_of_neg hc]

theorem lexed_append_blanks (cs : List Char) {blanks : List Char}
    (h : ∀ c ∈ blanks, Text.isBlank c = true) : lexed (cs ++ blanks) = lexed cs := by
  have hApart : Apart blanks :=
    fun c hc => isWordChar_of_isBlank (h c (List.mem_of_mem_head? hc))
  rw [lexed_append cs hApart, lexed_of_forall_isBlank h, List.append_nil]

/-- **Blanks around a text do not count.** -/
theorem lexed_stripEnds (cs : List Char) : lexed (Text.stripEnds Text.isBlank cs) = lexed cs := by
  have hEnd : ∀ ds : List Char, lexed (ds.rdropWhile Text.isBlank) = lexed ds := by
    intro ds
    -- what is taken off at the end is a run of blanks
    have hBlanks := lexed_append_blanks (ds.rdropWhile Text.isBlank)
      fun c (hc : c ∈ ds.rtakeWhile Text.isBlank) => List.mem_rtakeWhile_imp hc
    rw [List.rdropWhile_append_rtakeWhile] at hBlanks
    exact hBlanks.symm
  show lexed ((cs.dropWhile Text.isBlank).rdropWhile Text.isBlank) = lexed cs
  rw [hEnd, lexed_dropWhile_isBlank]

/-! ## Queries -/

variable {text : String} {e : Expr}

theorem parse_eq_ok_none_iff : Expr.parse text = .ok none ↔ lexed text.toList = [] :=
  ofTokens_eq_ok_none_iff

/-- A text is read as the tree of a derivation of its kinds. -/
theorem parse_eq_ok_some_iff :
    Expr.parse text = .ok (some e) ↔
      Grammar.Expression.Derives maxNesting (lexed text.toList) e :=
  ofTokens_eq_ok_some_iff

/-- A query may have blanks around it. -/
theorem parse_trim_eq_ok_some_iff :
    Expr.parse (Text.trim text) = .ok (some e) ↔ Expr.parse text = .ok (some e) := by
  rw [parse_eq_ok_some_iff, parse_eq_ok_some_iff, Text.trim, String.toList_ofList, lexed_stripEnds]

end Taskboard.Query
