import Taskboard.Proofs.Query.Composition
import Taskboard.Proofs.Query.Coverage
import Taskboard.Proofs.Query.Operators
import Taskboard.Proofs.Text.Occurrence

/-!
# Taskboard — searching for what is there

A search compares lower-case forms, that of the operand and that of the text, each taken as a whole.
So what occurs in a text as it stands is found if its form in the text is the form that it has
alone. That is so of every operand without a capital sigma, and of one with capital sigmas where
they end the same words in the text as in the operand. A capital sigma at the end of an operand that
is cut from within a word is lost.

* `IsBareWord` — a text that is read as one bare term;
* `Filter.compile_bareWord` — and the query that it is;
* `occursInText_of_sigmasKept` — what occurs as it stands occurs;
* `Predicate.holds_contains` — a search in a field that has a text, the current user included;
* `Predicate.holds_bare` — a search in title and description;
* `search_finds_occurrence` — what occurs as it stands is found;
* `search_misses_cut_sigma` — an operand that is cut behind a sigma, and is not.
-/

namespace Taskboard.Query

/-! ## Bare words -/

/-- A text that is one word, has no colon and is no operator. -/
structure IsBareWord (w : String) : Prop where
  isWord      : IsWord w.toList
  notOperator : w.toList.map Char.toLower ∉ operators.map Prod.fst
  noColon     : ':' ∉ w.toList

theorem IsBareWord.lexed {w : String} (h : IsBareWord w) :
    lexed w.toList = [.field textField w] := by
  have hKind : Kind.ofWord w.toList = .field textField w := by
    rw [Kind.ofWord_of_notMem_operators h.notOperator, Kind.ofTerm_of_colon_notMem h.noColon,
      String.ofList_toList]
  have hLexed := lexed_word h.isWord apart_nil
  rw [List.append_nil, lexed_nil, hKind] at hLexed
  exact hLexed

/-- A bare word is a query for one predicate. -/
theorem Filter.compile_bareWord {w : String} (h : IsBareWord w) :
    (compile w).parsed = .ok (some (.leaf (.parse textField w))) :=
  compile_parsed_iff.mpr
    ⟨.term (.factor (.field textField w)), h.lexed.symm, rfl, Nat.zero_le _⟩

/-! ## Occurrences -/

section Occurrences

variable {item : WorkItem} {field s pre w post : String}

/-- **What occurs in a text as it stands occurs**, if its sigmas are kept. -/
theorem occursInText_of_sigmasKept
    (h : Text.SigmasKept pre.toList w.toList post.toList) :
    occursInText w (pre ++ w ++ post) = true := by
  unfold occursInText Text.lowercase
  rw [Text.occursIn_iff, String.toList_ofList, String.toList_ofList, String.toList_append,
    String.toList_append]
  exact h.lowercase_infix

/-- What names the current user has a sign in it that is no blank. -/
theorem at_mem_of_asksForUser {comparison : Comparison}
    (h : Predicate.asksForUser ⟨field, comparison, w⟩ = true) :
    field = "assignee" ∧ '@' ∈ w.toList := by
  rw [Predicate.asksForUser, Bool.and_eq_true, beq_iff_eq, Text.sameIgnoringCase_iff] at h
  have hChars : w.toList.map Char.toLower = currentUser.toLower.toList := by
    rw [← Text.toList_toLower]
    exact congrArg String.toList h.2
  rw [show currentUser.toLower.toList = ['@', 'm', 'e'] by decide +kernel] at hChars
  obtain ⟨c, rest, hw, hFirst, -⟩ := List.map_eq_cons_iff.mp hChars
  have hAt : c = '@' := (Text.toLower_eq_iff (by decide) c).mp hFirst
  exact ⟨h.1, by rw [hw, hAt]; exact List.mem_cons_self⟩

theorem resolve_assignee (item : WorkItem) :
    resolve item "assignee" = .ofText? item.assignee := rfl

theorem resolve_textField (item : WorkItem) : resolve item textField = .text (fullText item) :=
  rfl

/-- An assignee with `@me` in the name is someone. -/
theorem isAssigned_of_asksForUser {comparison : Comparison}
    (hUser : Predicate.asksForUser ⟨field, comparison, w⟩ = true)
    (hField : resolve item field = .text (pre ++ w ++ post)) : isAssigned item = true := by
  obtain ⟨rfl, hAt⟩ := at_mem_of_asksForUser hUser
  rw [resolve_assignee] at hField
  cases hAssignee : item.assignee with
  | none =>
    rw [hAssignee] at hField
    cases hField
  | some name =>
    rw [hAssignee] at hField
    obtain rfl : name = pre ++ w ++ post := FieldValue.text.inj hField
    have hSome : Text.trim (pre ++ w ++ post) ≠ "" :=
      Text.trim_ne_empty (c := '@') (by simp [hAt]) (by decide)
    rw [isAssigned, hAssignee, Option.any_some, bne_iff_ne]
    exact hSome

namespace Predicate

/-- A search in a field that has a text. -/
theorem holds_contains (hField : resolve item field = .text (pre ++ w ++ post))
    (hSigmas : Text.SigmasKept pre.toList w.toList post.toList) :
    holds ⟨field, .contains, w⟩ item = true := by
  have hOccurs : (resolve item field).contains w = true := by
    rw [hField]
    exact occursInText_of_sigmasKept hSigmas
  unfold holds
  split
  · rename_i hUser
    exact isAssigned_of_asksForUser hUser hField
  split
  · exact hOccurs
  · exact hOccurs

/-- A search in title and description, by a bare term. -/
theorem holds_bare (hText : fullText item = pre ++ w ++ post)
    (hSigmas : Text.SigmasKept pre.toList w.toList post.toList) :
    holds ⟨textField, .equal, w⟩ item = true := by
  have hUser : asksForUser ⟨textField, .equal, w⟩ = false := by
    have hField : textField ≠ "assignee" := by decide
    rw [asksForUser, beq_eq_false_iff_ne.mpr hField, Bool.false_and]
  rw [holds, hUser, if_neg Bool.false_ne_true, if_pos rfl, resolve_textField, hText]
  exact occursInText_of_sigmasKept hSigmas

end Predicate

/-- What occurs in the title or the description occurs in both together, and a space between them
keeps apart their words. -/
theorem exists_fullText (hOccurs : item.title = pre ++ w ++ post ∨
      item.description = some (pre ++ w ++ post))
    (hSigmas : Text.SigmasKept pre.toList w.toList post.toList) :
    ∃ pre' post', fullText item = pre' ++ w ++ post' ∧
      Text.SigmasKept pre'.toList w.toList post'.toList := by
  rcases hOccurs with hTitle | hDescription
  · cases hDescription : item.description with
    | none => exact ⟨pre, post, by rw [fullText, hDescription, hTitle], hSigmas⟩
    | some d =>
      refine ⟨pre, post ++ " " ++ d, ?_, ?_⟩
      · rw [fullText, hDescription, hTitle]
        simp only [String.append_assoc]
      · have hBeyond := hSigmas.append_blank d.toList
        simpa using hBeyond
  · refine ⟨item.title ++ " " ++ pre, post, ?_, ?_⟩
    · rw [fullText, hDescription]
      simp only [String.append_assoc]
    · have hBeyond := hSigmas.blank_append item.title.toList
      simpa using hBeyond

end Occurrences

/--
**What occurs as it stands is found**, if its capital sigmas end words in the text where they do in
the operand alone. Between stars an operand finds its occurrences in every field that has a text,
and as a bare word, if it is one and carries no comparison, those in title and description.
-/
theorem search_finds_occurrence (item : WorkItem) (pre w post : String)
    (hStars : isStarred w.toList = false)
    (hSigmas : Text.SigmasKept pre.toList w.toList post.toList) :
    (∀ field, resolve item field = .text (pre ++ w ++ post) →
      (Predicate.parse field ("*" ++ w ++ "*")).holds item = true) ∧
    ((item.title = pre ++ w ++ post ∨ item.description = some (pre ++ w ++ post)) →
      IsBareWord w → (Predicate.parse textField w).comparison = .equal →
      (Filter.compile w).accepts item = true) := by
  constructor
  · intro field hField
    have hParse := Predicate.parse_enclosed field (stripEnds_of_not_isStarred hStars)
    rw [String.ofList_toList] at hParse
    rw [hParse]
    exact Predicate.holds_contains hField hSigmas
  · intro hOccurs hBare hEqual
    obtain ⟨pre', post', hText, hKept⟩ := exists_fullText hOccurs hSigmas
    rw [Filter.accepts_of_parsed (Filter.compile_bareWord hBare), Expr.holds,
      Predicate.parse_of_equal textField hEqual]
    exact Predicate.holds_bare hText hKept

/-- A word with a sigma at its end, and the whole of it as the operand. -/
theorem search_finds_whole_word :
    let item : WorkItem := { id := "a", title := "ΟΔΟΣ ΣΙΣΥΦΟΥ" }
    Text.SigmasKept "".toList "ΟΔΟΣ".toList " ΣΙΣΥΦΟΥ".toList ∧ IsBareWord "ΟΔΟΣ" ∧
      resolve item "title" = .text ("" ++ "ΟΔΟΣ" ++ " ΣΙΣΥΦΟΥ") ∧
      (Predicate.parse "title" ("*" ++ "ΟΔΟΣ" ++ "*")).holds item = true ∧
      (Filter.compile "ΟΔΟΣ").accepts item = true := by
  intro item
  have hSigmas : Text.SigmasKept "".toList "ΟΔΟΣ".toList " ΣΙΣΥΦΟΥ".toList := by decide +kernel
  have hBare : IsBareWord "ΟΔΟΣ" :=
    ⟨⟨by decide, by decide +kernel⟩, by decide +kernel, by decide⟩
  have hTitle : item.title = "" ++ "ΟΔΟΣ" ++ " ΣΙΣΥΦΟΥ" := by decide +kernel
  have hField : resolve item "title" = .text ("" ++ "ΟΔΟΣ" ++ " ΣΙΣΥΦΟΥ") :=
    congrArg FieldValue.text hTitle
  have hFound := search_finds_occurrence item "" "ΟΔΟΣ" " ΣΙΣΥΦΟΥ" (by decide) hSigmas
  exact ⟨hSigmas, hBare, hField, hFound.1 "title" hField,
    hFound.2 (.inl hTitle) hBare (by decide +kernel)⟩

/-- The first three letters of a word, the last of them a sigma within the word. Alone it is at the
end of one, and neither search finds it. -/
theorem search_misses_cut_sigma :
    let item : WorkItem := { id := "a", title := "ΣΙΣΥΦΟΣ" }
    ¬ Text.SigmasKept "".toList "ΣΙΣ".toList "ΥΦΟΣ".toList ∧ IsBareWord "ΣΙΣ" ∧
      isStarred "ΣΙΣ".toList = false ∧ (Predicate.parse textField "ΣΙΣ").comparison = .equal ∧
      item.title = "" ++ "ΣΙΣ" ++ "ΥΦΟΣ" ∧
      resolve item "title" = .text ("" ++ "ΣΙΣ" ++ "ΥΦΟΣ") ∧
      (Predicate.parse "title" ("*" ++ "ΣΙΣ" ++ "*")).holds item = false ∧
      (Filter.compile "ΣΙΣ").accepts item = false := by
  intro item
  have hBare : IsBareWord "ΣΙΣ" :=
    ⟨⟨by decide, by decide +kernel⟩, by decide +kernel, by decide⟩
  have hTitle : item.title = "" ++ "ΣΙΣ" ++ "ΥΦΟΣ" := by decide +kernel
  refine ⟨by decide +kernel, hBare, by decide, by decide +kernel, hTitle,
    congrArg FieldValue.text hTitle, by decide +kernel, ?_⟩
  rw [Filter.accepts_of_parsed (Filter.compile_bareWord hBare)]
  decide +kernel

end Taskboard.Query
