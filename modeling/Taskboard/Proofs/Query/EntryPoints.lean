import Taskboard.Proofs.Query.Correspondence
import Taskboard.Proofs.Query.Viability
import Taskboard.Query.Filter

/-!
# Taskboard — one meaning for a query

A query means what the kinds of its tokens mean, in their order; where they stand, and so all blanks
between them, only moves the positions of errors. Compiling and validating take the blanks around a
query off first. They come to the same result as parsing it as it is, but for the place of an error:
it is about the same token, and its position counts in the text that the filter keeps.

* `Blames`, `SameToken` — the token that an error is about, by its index;
* `parse_of_same_kinds` — texts with the same kinds are read alike;
* `entry_points_agree` — and so do parsing, compiling and validating.
-/

namespace Taskboard.Query

/-! ## The token of an error -/

/-- An error in a text is about the token with some index: the text is cut in front of that token,
and the error is at the cut. -/
def Blames (text : String) (err : ParseError) (index : Nat) : Prop :=
  ∃ front t back, tokenize text = front ++ t :: back ∧ CutAt 0 text.toList front t back ∧
    front.length = index ∧ t.position = err.position

/-- Errors in two texts are about tokens with one index, and about no others. -/
def SameToken (q r : String) (err err' : ParseError) : Prop :=
  ∃ index, ∀ i, (Blames q err i ↔ i = index) ∧ (Blames r err' i ↔ i = index)

section Blames

variable {text : String} {err : ParseError} {i : Nat}

theorem blames_iff_getElem? :
    Blames text err i ↔ ∃ t, (tokenize text)[i]? = some t ∧ t.position = err.position := by
  constructor
  · rintro ⟨front, t, back, hTokens, -, rfl, hPosition⟩
    refine ⟨t, ?_, hPosition⟩
    rw [hTokens, List.getElem?_append_right (Nat.le_refl _), Nat.sub_self, List.getElem?_cons_zero]
  · rintro ⟨t, h, hPosition⟩
    obtain ⟨hLength, hToken⟩ := List.getElem?_eq_some_iff.mp h
    have hSplit : tokenize text = (tokenize text).take i ++ t :: (tokenize text).drop (i + 1) := by
      rw [← hToken, ← List.drop_eq_getElem_cons hLength, List.take_append_drop]
    exact ⟨_, t, _, hSplit, cutAt_of_scan hSplit, List.length_take_of_le (Nat.le_of_lt hLength),
      hPosition⟩

/-- An error is about one token only. -/
theorem Blames.index_eq {j : Nat} (h : Blames text err i) (h' : Blames text err j) : i = j := by
  obtain ⟨t, ht, hPosition⟩ := blames_iff_getElem?.mp h
  obtain ⟨t', ht', hPosition'⟩ := blames_iff_getElem?.mp h'
  obtain ⟨hi, rfl⟩ := List.getElem?_eq_some_iff.mp ht
  obtain ⟨hj, rfl⟩ := List.getElem?_eq_some_iff.mp ht'
  have hPairwise : (tokenize text).Pairwise fun t u => t.position < u.position :=
    pairwise_position_scan 0 text.toList
  have hAscending := List.pairwise_iff_getElem.mp hPairwise
  -- of two tokens at different places one stands in front of the other
  rcases Nat.lt_trichotomy i j with hLt | hEq | hGt
  · have := hAscending i j hi hj hLt
    omega
  · exact hEq
  · have := hAscending j i hj hi hGt
    omega

theorem sameToken_of_blames {q r : String} {err err' : ParseError} (h : Blames q err i)
    (h' : Blames r err' i) : SameToken q r err err' := by
  refine ⟨i, fun j => ⟨⟨fun hj => hj.index_eq h, ?_⟩, ⟨fun hj => hj.index_eq h', ?_⟩⟩⟩
  · rintro rfl
    exact h
  · rintro rfl
    exact h'

end Blames

/-! ## Texts with the same kinds -/

/-- Positions of tokens with one index. -/
def AtSameIndex (tokens tokens' : List Token) (position position' : Nat) : Prop :=
  ∃ (i : Nat) (t t' : Token), tokens[i]? = some t ∧ tokens'[i]? = some t' ∧
    t.position = position ∧ t'.position = position'

theorem forall₂_of_same_kinds {tokens tokens' : List Token}
    (h : tokens.map Token.kind = tokens'.map Token.kind) :
    List.Forall₂ (Token.Alike Eq (AtSameIndex tokens tokens')) tokens tokens' := by
  have hLength : tokens.length = tokens'.length := by
    rw [← List.length_map Token.kind, h, List.length_map]
  rw [List.forall₂_iff_get]
  refine ⟨hLength, fun i hi hi' => ⟨?_, i, _, _, ?_, ?_, rfl, rfl⟩⟩
  · have hKind : tokens[i].kind = tokens'[i].kind := by
      have hSame := congrArg (fun kinds : List Kind => kinds[i]?) h
      simpa [hi, hi'] using hSame
    show Kind.Alike Eq tokens[i].kind tokens'[i].kind
    rw [hKind]
    exact Kind.alike_refl (fun _ => rfl) _
  · exact List.getElem?_eq_getElem hi
  · exact List.getElem?_eq_getElem hi'

/-- **Texts with the same kinds are read alike**: as the same tree, or with errors about tokens with
the same index. -/
theorem parse_of_same_kinds {q r : String}
    (h : (tokenize q).map Token.kind = (tokenize r).map Token.kind) :
    (∃ read, Expr.parse q = .ok read ∧ Expr.parse r = .ok read) ∨
    ∃ err err', Expr.parse q = .error err ∧ Expr.parse r = .error err' ∧
      SameToken q r err err' := by
  -- tokens with the same kinds correspond, at positions with the same index
  have hRead := ofTokens_alike (forall₂_of_same_kinds h)
  have hq : Expr.ofTokens (tokenize q) = Expr.parse q := rfl
  have hr : Expr.ofTokens (tokenize r) = Expr.parse r := rfl
  rw [hq, hr] at hRead
  generalize Expr.parse q = x, Expr.parse r = y at hRead
  cases hRead with
  | @ok read read' hTrees =>
    refine Or.inl ⟨read, rfl, ?_⟩
    cases hTrees with
    | none => rfl
    | some hTree => rw [hTree.eq]
  | @error err err' hPosition =>
    obtain ⟨i, t, t', ht, ht', hHere, hThere⟩ := hPosition
    refine Or.inr ⟨err, err', rfl, rfl, ?_⟩
    exact sameToken_of_blames (blames_iff_getElem?.mpr ⟨t, ht, hHere⟩)
      (blames_iff_getElem?.mpr ⟨t', ht', hThere⟩)

/-- The blanks around a text are no tokens. -/
theorem map_kind_tokenize_trim (text : String) :
    (tokenize (Text.trim text)).map Token.kind = (tokenize text).map Token.kind := by
  rw [map_kind_tokenize, map_kind_tokenize, Text.trim, String.toList_ofList, lexed_stripEnds]

/--
**A query has one meaning.** Texts whose tokens have the same kinds, in the same order, are read as
the same tree or go wrong at the token with the same index. A text is parsed, compiled and validated
with one result: all of them accept it or none does, the tree of the filter is the one that parsing
gives, and the error of the filter is about the token that the error of parsing is about, at the
place where that token stands in the text of the filter.
-/
theorem entry_points_agree :
    (∀ q r : String, (tokenize q).map Token.kind = (tokenize r).map Token.kind →
      (∃ read, Expr.parse q = .ok read ∧ Expr.parse r = .ok read) ∨
      ∃ err err', Expr.parse q = .error err ∧ Expr.parse r = .error err' ∧
        SameToken q r err err') ∧
    ∀ text : String,
      (Filter.compile text).query = Text.trim text ∧
      ((Filter.compile text).isValid = true ↔ ∃ read, Expr.parse text = .ok read) ∧
      (validate text = none ↔ ∃ read, Expr.parse text = .ok read) ∧
      (∀ read, Expr.parse text = .ok read → (Filter.compile text).active? = read) ∧
      (∀ err, Expr.parse text = .error err →
        ∃ err', (Filter.compile text).error? = some err' ∧ (Filter.compile text).active? = none ∧
          validate text = some err'.fault ∧
          SameToken text (Filter.compile text).query err err') := by
  refine ⟨fun q r h => parse_of_same_kinds h, fun text => ⟨rfl, ?_⟩⟩
  -- all three entry points come down to the text and the text without the blanks around it
  have hParsed : (Filter.compile text).parsed = Expr.parse (Text.trim text) := rfl
  unfold validate Filter.isValid Filter.active? Filter.error?
  rw [hParsed]
  rcases parse_of_same_kinds (map_kind_tokenize_trim text).symm with
    ⟨read, hRead, hTrimmed⟩ | ⟨err, err', hError, hTrimmed, hToken⟩
  · rw [hRead, hTrimmed]
    refine ⟨by simp, by simp, fun read' hRead' => ?_, fun err hError => ?_⟩
    · exact Except.ok.inj hRead'
    · cases hError
  · rw [hError, hTrimmed]
    refine ⟨by simp, by simp, fun read hRead => ?_, fun err₀ hError₀ => ?_⟩
    · cases hRead
    · cases hError₀
      exact ⟨err', rfl, rfl, rfl, hToken⟩

end Taskboard.Query
