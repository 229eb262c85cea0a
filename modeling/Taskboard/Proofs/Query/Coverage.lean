import Mathlib.Data.List.Sort
import Taskboard.Proofs.Query.Rendering
import Taskboard.Proofs.Text.LetterCase

/-!
# Taskboard — what the tokens of a text cover

A token keeps where it starts, but not where it ends, and of its text a word keeps no more than its
kind. Both can be found again: a parenthesis is one character, and a word goes as far as words can
go. Read so, the tokens of a text leave out its blanks and nothing else, and no character belongs to
two of them. This says so much of them that no other list of tokens has the property.

* `IsLongestRun` — a run of characters of words that goes on on neither side;
* `WordKind` — the kind that a word has, by its text;
* `Token.Spans` — where a token ends, and that its kind fits the text up to there;
* `Token.Spans.eq_of_covers` — tokens that share a character are one token;
* `Pieces` — tokens that cover a text from some place on;
* `Lossless` — tokens that cover the characters of a text, but its blanks, each once;
* `tokenize_lossless` — the tokens of a text do, and no others.
-/

namespace Taskboard.Query

/-! ## Words in a text -/

/-- From `start` up to `stop`, and no further on either side, there are characters of words. -/
structure IsLongestRun (cs : List Char) (start stop : Nat) : Prop where
  nonempty : start < stop
  inText   : stop ≤ cs.length
  inside   : ∀ i, start ≤ i → i < stop → ∀ c ∈ cs[i]?, isWordChar c = true
  before   : ∀ i, i + 1 = start → ∀ c ∈ cs[i]?, isWordChar c = false
  behind   : ∀ c ∈ cs[stop]?, isWordChar c = false

/-- The words that are operators, in small letters, with their kinds. -/
def operators : List (List Char × Kind) :=
  [("and".toList, .and), ("or".toList, .or), ("not".toList, .not)]

/-- The kind of a word. An operator may have its letters in any case; another word splits at its
first colon into a name, of which the lower-case form counts, and a value; one without a colon is a
term for the text. -/
inductive WordKind : List Char → Kind → Prop where
  | operator {w : List Char} {kind : Kind} (h : (w.map Char.toLower, kind) ∈ operators) :
      WordKind w kind
  | named {name value : List Char} (hName : ':' ∉ name) : WordKind (name ++ ':' :: value)
      (.field (Text.lowercase (String.ofList name)) (String.ofList value))
  | bare {w : List Char} (hOperator : w.map Char.toLower ∉ operators.map Prod.fst)
      (hColon : ':' ∉ w) : WordKind w (.field textField (String.ofList w))

/-- The parentheses, with their kinds. -/
def parens : List (Char × Kind) :=
  [('(', .leftParen), (')', .rightParen)]

/-- A token ends in front of `stop`: it is a parenthesis, or a longest run that has its kind. -/
inductive Token.Spans (cs : List Char) : Token → Nat → Prop where
  | paren {p : Nat} {c : Char} {kind : Kind} (hChar : cs[p]? = some c)
      (hParen : (c, kind) ∈ parens) : Spans cs ⟨kind, p⟩ (p + 1)
  | word {p stop : Nat} {kind : Kind} (hRun : IsLongestRun cs p stop)
      (hKind : WordKind (cs.extract p stop) kind) : Spans cs ⟨kind, p⟩ stop

/-- The character at `i` is one of those from the start of a token to its end. -/
def Token.Covers (cs : List Char) (t : Token) (i : Nat) : Prop :=
  ∃ stop, t.Spans cs stop ∧ t.position ≤ i ∧ i < stop

/-- Tokens in ascending order, the end of the query last, that cover each character of a text once,
but for its blanks, which none of them covers. -/
structure Lossless (cs : List Char) (tokens : List Token) : Prop where
  ascending : tokens.Pairwise fun t u => t.position < u.position
  ends      : ∃ front, tokens = front ++ [⟨.endOfQuery, cs.length⟩] ∧
    ∀ t ∈ front, t.kind ≠ .endOfQuery ∧ ∃ stop, t.Spans cs stop
  once      : ∀ i c, cs[i]? = some c → Text.isBlank c = false →
    ∃! t, t ∈ tokens ∧ t.Covers cs i
  noBlanks  : ∀ i c, cs[i]? = some c → Text.isBlank c = true →
    ∀ t ∈ tokens, ¬ t.Covers cs i

/-! ## Kinds of words -/

section Kinds

variable {w : List Char} {kind : Kind}

theorem mem_operators {small : List Char} :
    (small, kind) ∈ operators ↔ small = "and".toList ∧ kind = .and ∨
      small = "or".toList ∧ kind = .or ∨ small = "not".toList ∧ kind = .not := by
  simp only [operators, List.mem_cons, Prod.mk.injEq, List.not_mem_nil, or_false]

theorem toLower_ofList_eq_iff {operator : String} :
    (String.ofList w).toLower = operator ↔ w.map Char.toLower = operator.toList := by
  rw [Text.toLower_ofList, ← String.toList_inj, String.toList_ofList]

theorem Kind.ofWord_of_mem_operators (h : (w.map Char.toLower, kind) ∈ operators) :
    Kind.ofWord w = kind := by
  rw [Kind.ofWord]
  simp only [toLower_ofList_eq_iff]
  rcases mem_operators.mp h with ⟨hSmall, rfl⟩ | ⟨hSmall, rfl⟩ | ⟨hSmall, rfl⟩
  · rw [if_pos hSmall]
  · rw [hSmall, if_neg (by decide), if_pos rfl]
  · rw [hSmall, if_neg (by decide), if_neg (by decide), if_pos rfl]

theorem Kind.ofWord_of_notMem_operators (h : w.map Char.toLower ∉ operators.map Prod.fst) :
    Kind.ofWord w = .ofTerm w := by
  simp only [operators, List.map_cons, List.map_nil, List.mem_cons, List.not_mem_nil, or_false,
    not_or] at h
  obtain ⟨hAnd, hOr, hNot⟩ := h
  rw [Kind.ofWord]
  simp only [toLower_ofList_eq_iff]
  rw [if_neg hAnd, if_neg hOr, if_neg hNot]

theorem Kind.ofTerm_of_colon_notMem (h : ':' ∉ w) :
    Kind.ofTerm w = .field textField (String.ofList w) := by
  have hDrop : w.dropWhile (fun c => c != ':') = [] := by
    rw [List.dropWhile_eq_nil_iff]
    exact fun c hc => bne_iff_ne.mpr fun hColon => h (hColon ▸ hc)
  rw [Kind.ofTerm, hDrop]

/-- **A word has one kind.** -/
theorem wordKind_iff : WordKind w kind ↔ kind = .ofWord w := by
  constructor
  · intro h
    cases h with
    | operator h => exact (Kind.ofWord_of_mem_operators h).symm
    | named hName =>
      exact (Kind.ofWord_term (fun c hc hColon => hName (hColon ▸ hc)) _).symm
    | bare hOperator hColon =>
      rw [Kind.ofWord_of_notMem_operators hOperator, Kind.ofTerm_of_colon_notMem hColon]
  · rintro rfl
    by_cases hColon : ':' ∈ w
    · obtain ⟨name, value, rfl, hName⟩ := List.eq_append_cons_of_mem hColon
      rw [Kind.ofWord_term fun c hc hEq => hName (hEq ▸ hc)]
      exact .named hName
    by_cases hOperator : w.map Char.toLower ∈ operators.map Prod.fst
    · obtain ⟨⟨small, kind⟩, hMem, rfl⟩ := List.mem_map.mp hOperator
      rw [Kind.ofWord_of_mem_operators hMem]
      exact .operator hMem
    · rw [Kind.ofWord_of_notMem_operators hOperator, Kind.ofTerm_of_colon_notMem hColon]
      exact .bare hOperator hColon

end Kinds

/-! ## Tokens that share a character -/

section Shared

variable {cs : List Char} {p q s s' i : Nat}

theorem IsLongestRun.isWordChar (h : IsLongestRun cs p s) (hp : p ≤ i) (hs : i < s) :
    ∃ c, cs[i]? = some c ∧ isWordChar c = true := by
  have hi : i < cs.length := lt_of_lt_of_le hs h.inText
  exact ⟨cs[i], List.getElem?_eq_getElem hi, h.inside i hp hs _ (List.getElem?_eq_getElem hi)⟩

/-- Of two runs that share a character none begins later, since it would go on in front. -/
theorem IsLongestRun.start_le (h : IsLongestRun cs p s) (h' : IsLongestRun cs q s') (hs : i < s)
    (hq : q ≤ i) : q ≤ p := by
  by_contra hLater
  obtain ⟨c, hc, hWord⟩ := h.isWordChar (i := q - 1) (by omega) (by omega)
  have hEdge := h'.before (q - 1) (by omega) c hc
  rw [hWord] at hEdge
  cases hEdge

/-- And none ends sooner, since it would go on behind. -/
theorem IsLongestRun.stop_le (h : IsLongestRun cs p s) (h' : IsLongestRun cs q s') (hp : p ≤ i)
    (hs' : i < s') : s ≤ s' := by
  by_contra hSooner
  obtain ⟨c, hc, hWord⟩ := h.isWordChar (i := s') (by omega) (by omega)
  have hEdge := h'.behind c hc
  rw [hWord] at hEdge
  cases hEdge

section Parens

variable {c : Char} {kind other : Kind}

theorem mem_parens :
    (c, kind) ∈ parens ↔ c = '(' ∧ kind = .leftParen ∨ c = ')' ∧ kind = .rightParen := by
  simp only [parens, List.mem_cons, Prod.mk.injEq, List.not_mem_nil, or_false]

theorem paren_is_no_word (h : (c, kind) ∈ parens) :
    isWordChar c = false ∧ Text.isBlank c = false := by
  rcases mem_parens.mp h with ⟨rfl, -⟩ | ⟨rfl, -⟩ <;> decide

theorem paren_kind_unique (h : (c, kind) ∈ parens) (h' : (c, other) ∈ parens) : kind = other := by
  rcases mem_parens.mp h with ⟨rfl, rfl⟩ | ⟨rfl, rfl⟩ <;> simpa [mem_parens, eq_comm] using h'

end Parens

namespace Token.Spans

variable {t u : Token}

theorem lt_stop (h : t.Spans cs s) : t.position < s := by
  cases h with
  | paren hChar hParen => exact Nat.lt_succ_self _
  | word hRun hKind => exact hRun.nonempty

theorem kind_ne_endOfQuery (h : t.Spans cs s) : t.kind ≠ .endOfQuery := by
  cases h with
  | paren hChar hParen =>
    rcases mem_parens.mp hParen with ⟨-, rfl⟩ | ⟨-, rfl⟩ <;> simp
  | word hRun hKind =>
    rw [wordKind_iff.mp hKind]
    exact Kind.ofWord_ne_endOfQuery _

/-- A token has no blanks in it. -/
theorem exists_char (h : t.Spans cs s) (hp : t.position ≤ i) (hs : i < s) :
    ∃ c, cs[i]? = some c ∧ Text.isBlank c = false := by
  cases h with
  | @paren p c kind hChar hParen =>
    obtain rfl : i = p := le_antisymm (Nat.lt_succ_iff.mp hs) hp
    exact ⟨c, hChar, (paren_is_no_word hParen).2⟩
  | word hRun hKind =>
    obtain ⟨c, hc, hWord⟩ := hRun.isWordChar hp hs
    exact ⟨c, hc, (isWordChar_iff.mp hWord).1⟩

/-- A parenthesis is a token of its own. -/
theorem eq_paren {c : Char} {kind : Kind} (h : t.Spans cs s) (hp : t.position ≤ i) (hs : i < s)
    (hi : cs[i]? = some c) (hParen : (c, kind) ∈ parens) : t = ⟨kind, i⟩ := by
  cases h with
  | @paren p d other hChar hOther =>
    obtain rfl : i = p := le_antisymm (Nat.lt_succ_iff.mp hs) hp
    obtain rfl : c = d := Option.some.inj (hi.symm.trans hChar)
    rw [paren_kind_unique hOther hParen]
  | word hRun hKind =>
    have hWord := hRun.inside i hp hs c hi
    rw [(paren_is_no_word hParen).1] at hWord
    cases hWord

/-- **Tokens that share a character are one token.** -/
theorem eq_of_covers (h : t.Covers cs i) (h' : u.Covers cs i) : t = u := by
  obtain ⟨s, hSpans, hp, hs⟩ := h
  obtain ⟨s', hSpans', hq, hs'⟩ := h'
  cases hSpans with
  | @paren p c kind hChar hParen =>
    obtain rfl : i = p := le_antisymm (Nat.lt_succ_iff.mp hs) hp
    exact (hSpans'.eq_paren hq hs' hChar hParen).symm
  | word hRun hKind =>
    have hSpans := Token.Spans.word hRun hKind
    cases hSpans' with
    | @paren q c kind hChar hParen =>
      obtain rfl : i = q := le_antisymm (Nat.lt_succ_iff.mp hs') hq
      exact hSpans.eq_paren hp hs hChar hParen
    | word hRun' hKind' =>
      obtain rfl := le_antisymm (hRun'.start_le hRun hs' hp) (hRun.start_le hRun' hs hq)
      obtain rfl := le_antisymm (hRun.stop_le hRun' hp hs') (hRun'.stop_le hRun hq hs)
      rw [wordKind_iff.mp hKind, wordKind_iff.mp hKind']

end Token.Spans
end Shared

/-! ## The tokens of a text -/

/-- Tokens of a text that cover it from `start` on, but for blanks. -/
structure Pieces (cs : List Char) (start : Nat) (tokens : List Token) : Prop where
  spans  : ∀ t ∈ tokens, ∃ stop, t.Spans cs stop
  covers : ∀ i c, start ≤ i → cs[i]? = some c → Text.isBlank c = false →
    ∃ t ∈ tokens, t.Covers cs i

namespace Pieces

variable {cs : List Char} {start : Nat} {tokens : List Token}

theorem nil (h : cs.length ≤ start) : Pieces cs start [] where
  spans t ht := absurd ht List.not_mem_nil
  covers i c hi hc _ := by
    rw [List.getElem?_eq_none (h.trans hi)] at hc
    cases hc

/-- A blank needs no token. -/
theorem blank {c : Char} (hc : cs[start]? = some c) (hBlank : Text.isBlank c = true)
    (h : Pieces cs (start + 1) tokens) : Pieces cs start tokens where
  spans := h.spans
  covers i d hi hd hNot := by
    rcases eq_or_lt_of_le hi with rfl | hLater
    · rw [hc] at hd
      cases hd
      rw [hBlank] at hNot
      cases hNot
    · exact h.covers i d hLater hd hNot

/-- A token covers what is in front of the place where the others start. -/
theorem cons {t : Token} {stop : Nat} (hSpans : t.Spans cs stop) (h : Pieces cs stop tokens) :
    Pieces cs t.position (t :: tokens) where
  spans := List.forall_mem_cons.mpr ⟨⟨stop, hSpans⟩, h.spans⟩
  covers i c hi hc hNot := by
    rcases lt_or_ge i stop with hInside | hBehind
    · exact ⟨t, List.mem_cons_self, stop, hSpans, hi, hInside⟩
    · obtain ⟨u, hu, hCovers⟩ := h.covers i c hBehind hc hNot
      exact ⟨u, List.mem_cons_of_mem _ hu, hCovers⟩

end Pieces

section Scan

variable {front cs w : List Char}

theorem getElem?_front (front : List Char) (c : Char) (cs : List Char) :
    (front ++ c :: cs)[front.length]? = some c := by
  rw [List.getElem?_append_right (Nat.le_refl _), Nat.sub_self]
  rfl

/-- A word is a longest run where no word goes on in front of it or behind it. -/
theorem isLongestRun_word (hw : IsWord w) (hcs : Apart cs)
    (hFront : ∀ c ∈ front.getLast?, isWordChar c = false) :
    IsLongestRun (front ++ (w ++ cs)) front.length (front.length + w.length) where
  nonempty := by
    have := List.length_pos_of_ne_nil hw.1
    omega
  inText := by simp
  inside i hi hStop c hc := by
    rw [List.getElem?_append_right hi, List.getElem?_append_left (by omega)] at hc
    exact List.all_eq_true.mp hw.2 c (List.mem_of_getElem? hc)
  before i hi c hc := by
    refine hFront c ?_
    rw [List.getElem?_append_left (by omega)] at hc
    rw [List.getLast?_eq_getElem?, ← hi]
    exact hc
  behind c hc := by
    refine hcs c ?_
    rw [← List.append_assoc, List.getElem?_append_right (by simp), List.length_append,
      Nat.sub_self] at hc
    rw [List.head?_eq_getElem?]
    exact hc

theorem extract_word (front w cs : List Char) :
    (front ++ (w ++ cs)).extract front.length (front.length + w.length) = w := by
  rw [List.extract_eq_take_drop, List.drop_left, Nat.add_sub_cancel_left, List.take_left]

/-- The tokens of the rest of a text, if no word goes on into it. -/
theorem exists_pieces (front cs : List Char)
    (hFront : Apart cs ∨ ∀ c ∈ front.getLast?, isWordChar c = false) :
    ∃ words, scan front.length cs = words ++ [⟨.endOfQuery, (front ++ cs).length⟩] ∧
      Pieces (front ++ cs) front.length words := by
  -- a word ends at a parenthesis, a blank or the end, so behind it the next may begin
  induction cs using text_induction generalizing front with
  | nil => exact ⟨[], by rw [scan_nil, List.append_nil, List.nil_append], .nil (by simp)⟩
  | blank c cs hc ih =>
    obtain ⟨words, hScan, hPieces⟩ := ih (front ++ [c]) (.inr (by simp [isWordChar_of_isBlank hc]))
    rw [List.length_append, List.append_assoc] at hScan hPieces
    refine ⟨words, by rw [scan_blank hc]; exact hScan, ?_⟩
    exact .blank (getElem?_front front c cs) hc hPieces
  | leftParen cs ih =>
    obtain ⟨words, hScan, hPieces⟩ := ih (front ++ ['(']) (.inr (by simp; decide))
    rw [List.length_append, List.append_assoc] at hScan hPieces
    refine ⟨⟨.leftParen, front.length⟩ :: words, ?_, ?_⟩
    · rw [scan_leftParen, List.cons_append]
      exact congrArg _ hScan
    · exact .cons (.paren (getElem?_front front '(' cs) (by simp [parens])) hPieces
  | rightParen cs ih =>
    obtain ⟨words, hScan, hPieces⟩ := ih (front ++ [')']) (.inr (by simp; decide))
    rw [List.length_append, List.append_assoc] at hScan hPieces
    refine ⟨⟨.rightParen, front.length⟩ :: words, ?_, ?_⟩
    · rw [scan_rightParen, List.cons_append]
      exact congrArg _ hScan
    · exact .cons (.paren (getElem?_front front ')' cs) (by simp [parens])) hPieces
  | word w cs hw hcs ih =>
    obtain ⟨words, hScan, hPieces⟩ := ih (front ++ w) (.inl hcs)
    rw [List.length_append, List.append_assoc] at hScan hPieces
    have hEdge : ∀ c ∈ front.getLast?, isWordChar c = false := by
      refine hFront.resolve_left fun hApart => ?_
      obtain ⟨c, w, rfl⟩ := List.exists_cons_of_ne_nil hw.1
      have hNot := hApart c rfl
      rw [List.all_eq_true.mp hw.2 c List.mem_cons_self] at hNot
      cases hNot
    refine ⟨⟨.ofWord w, front.length⟩ :: words, ?_, ?_⟩
    · rw [scan_word hw hcs, List.cons_append, hScan]
    · have hKind : WordKind ((front ++ (w ++ cs)).extract front.length
          (front.length + w.length)) (.ofWord w) := by
        rw [extract_word]
        exact wordKind_iff.mpr rfl
      exact .cons (.word (isLongestRun_word hw hcs hEdge) hKind) hPieces

end Scan

namespace Lossless

variable {cs : List Char} {tokens : List Token} {t : Token}

/-- Nothing is left to choose: the tokens are the end and all that the text has. -/
theorem mem_iff (h : Lossless cs tokens) :
    t ∈ tokens ↔ t = ⟨.endOfQuery, cs.length⟩ ∨ ∃ stop, t.Spans cs stop := by
  obtain ⟨front, hEnds, hFront⟩ := h.ends
  constructor
  · intro ht
    rw [hEnds, List.mem_append, List.mem_singleton] at ht
    exact ht.symm.imp_right fun hMem => (hFront t hMem).2
  · rintro (rfl | ⟨stop, hSpans⟩)
    · simp [hEnds]
    · -- some token covers the first character of `t`, and so it is `t`
      have hCovers : t.Covers cs t.position := ⟨stop, hSpans, Nat.le_refl _, hSpans.lt_stop⟩
      obtain ⟨c, hc, hBlank⟩ := hSpans.exists_char (Nat.le_refl _) hSpans.lt_stop
      obtain ⟨u, ⟨hu, hOther⟩, -⟩ := h.once _ c hc hBlank
      exact Token.Spans.eq_of_covers hCovers hOther ▸ hu

end Lossless

/--
**Tokens lose nothing of a text but its blanks.** Their positions ascend, and the last, and only the
last, is the end of the query, behind all characters. The others are parentheses and longest runs of
other characters, each of the kind that its characters have, and each character of the text that is
no blank belongs to one of them, a blank to none. No other list of tokens is like that.
-/
theorem tokenize_lossless (text : String) :
    Lossless text.toList (tokenize text) ∧
      ∀ tokens, Lossless text.toList tokens → tokens = tokenize text := by
  have hLossless : Lossless text.toList (tokenize text) := by
    obtain ⟨words, hScan, hPieces⟩ := exists_pieces [] text.toList (.inr (by simp))
    rw [List.nil_append] at hPieces hScan
    have hTokens : tokenize text = words ++ [⟨.endOfQuery, text.toList.length⟩] := hScan
    refine ⟨pairwise_position_scan 0 text.toList, ⟨words, hTokens, fun t ht => ?_⟩, ?_, ?_⟩
    · obtain ⟨stop, hSpans⟩ := hPieces.spans t ht
      exact ⟨hSpans.kind_ne_endOfQuery, stop, hSpans⟩
    · intro i c hc hBlank
      obtain ⟨t, ht, hCovers⟩ := hPieces.covers i c (Nat.zero_le _) hc hBlank
      refine ⟨t, ⟨by simp [hTokens, ht], hCovers⟩, ?_⟩
      exact fun u hu => Token.Spans.eq_of_covers hu.2 hCovers
    · rintro i c hc hBlank t - ⟨stop, hSpans, hp, hs⟩
      obtain ⟨d, hd, hNot⟩ := hSpans.exists_char hp hs
      rw [hc] at hd
      cases hd
      rw [hBlank] at hNot
      cases hNot
  refine ⟨hLossless, fun tokens h => ?_⟩
  have : Std.Irrefl fun t u : Token => t.position < u.position := ⟨fun t => Nat.lt_irrefl _⟩
  have : Std.Antisymm fun t u : Token => t.position < u.position :=
    ⟨fun t u ht hu => absurd (ht.trans hu) (Nat.lt_irrefl _)⟩
  exact h.ascending.eq_of_mem_iff hLossless.ascending fun t => h.mem_iff.trans hLossless.mem_iff.symm

end Taskboard.Query
