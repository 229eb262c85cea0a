import Mathlib.Data.List.DropRight
import Taskboard.Query.Predicate

/-!
# Taskboard — the values of terms

The comparison that a value carries is found by rules that are tried in order, so that what one rule
writes must not be caught by another. Only the stars of a wildcard are not kept as they are: however
many there are, and on whichever side, a value is written with one on each.

* `isWildcard`, `innerText` — the wildcards, said of their characters, and what they search for;
* `Predicate.raw_parse_cases` — a value is written as it was read, or is a wildcard;
* `Predicate.parse_of_isWildcard` — a wildcard is read as what stands between its stars;
* `Predicate.parse_raw_parse` — what is written is read as the same predicate;
* `Predicate.mem_of_mem_raw_parse` — no character is written that was not read;
* `Predicate.parse_raw_of_sign`, `Predicate.parse_range`, `Predicate.parse_of_equal` — the values
  with a sign, of a range, and without any comparison.
-/

namespace Taskboard

/-! ## Stripping -/

namespace Text

variable {α : Type} {p : α → Bool}

theorem stripEnds_eq (p : α → Bool) (xs : List α) :
    stripEnds p xs = (xs.dropWhile p).rdropWhile p := rfl

theorem stripEnds_sublist (p : α → Bool) (xs : List α) : (stripEnds p xs).Sublist xs := by
  rw [stripEnds_eq]
  exact (List.rdropWhile_prefix p _).sublist.trans (List.dropWhile_sublist p)

/-- What has been stripped has nothing left to strip. -/
theorem stripEnds_idempotent (xs : List α) : stripEnds p (stripEnds p xs) = stripEnds p xs := by
  have hFront : (stripEnds p xs).dropWhile p = stripEnds p xs := by
    rw [List.dropWhile_eq_self_iff]
    intro hLength
    -- the first element left is the one at which the leading run stopped
    have hPrefix : stripEnds p xs <+: xs.dropWhile p := List.rdropWhile_prefix p _
    have hStopped := List.dropWhile_eq_self_iff.mp (List.dropWhile_idempotent p xs)
    rw [hPrefix.getElem hLength]
    exact hStopped (Nat.lt_of_lt_of_le hLength hPrefix.length_le)
  rw [stripEnds_eq p (stripEnds p xs), hFront, stripEnds_eq, List.rdropWhile_idempotent]

/-- An element of the class on both sides is stripped with the others. -/
theorem stripEnds_enclosed {a : α} (ha : p a = true) (xs : List α) :
    stripEnds p (a :: (xs ++ [a])) = stripEnds p xs := by
  rw [stripEnds_eq, stripEnds_eq, List.dropWhile_cons_of_pos ha, List.dropWhile_append]
  split
  · rename_i hAll
    rw [List.isEmpty_iff.mp hAll, List.dropWhile_cons_of_pos ha]
    rfl
  · rw [List.rdropWhile_concat_pos p _ a ha]

/-- A text with a character that is no blank is more than blanks. -/
theorem trim_ne_empty {s : String} {c : Char} (hc : c ∈ s.toList)
    (hBlank : isBlank c = false) : trim s ≠ "" := by
  intro hEmpty
  rw [trim, ← String.toList_inj, String.toList_ofList, String.toList_empty, stripEnds_eq,
    List.rdropWhile_eq_nil_iff] at hEmpty
  rw [← List.takeWhile_append_dropWhile (p := isBlank) (l := s.toList), List.mem_append] at hc
  have hTrue : isBlank c = true := hc.elim List.mem_takeWhile_imp (hEmpty c)
  rw [hBlank] at hTrue
  cases hTrue

end Text

namespace Query

/-! ## Rules -/

theorem isDigits_iff {cs : List Char} :
    isDigits cs = true ↔ cs ≠ [] ∧ ∀ c ∈ cs, c.isDigit = true := by
  rw [isDigits, Bool.and_eq_true, Bool.not_eq_true', List.isEmpty_eq_false_iff, List.all_eq_true]

/-- A range is two texts with a dash between them. -/
theorem eq_of_splitRange? {cs lower upper : List Char}
    (h : splitRange? cs = some (lower, upper)) : cs = lower ++ '-' :: upper := by
  rw [splitRange?] at h
  split at h
  · cases h
  · rename_i dash rest hDrop
    dsimp only at h
    split at h
    · cases h
      have hDash := List.head?_dropWhile_not (fun c => c != '-') cs
      rw [hDrop] at hDash
      obtain rfl : dash = '-' := by simpa using hDash
      rw [← hDrop, List.takeWhile_append_dropWhile]
    · cases h

theorem isDigits_of_splitRange? {cs lower upper : List Char}
    (h : splitRange? cs = some (lower, upper)) : isDigits lower = true ∧ isDigits upper = true := by
  unfold splitRange? at h
  split at h
  · cases h
  · dsimp only at h
    split at h
    · rename_i hBoth
      cases h
      exact Bool.and_eq_true_iff.mp hBoth
    · cases h

theorem splitRange?_of_isDigits {lower upper : List Char} (hLower : isDigits lower = true)
    (hUpper : isDigits upper = true) :
    splitRange? (lower ++ '-' :: upper) = some (lower, upper) := by
  -- a digit is no dash, so the first dash is the one between the ends
  have hPass : ∀ c ∈ lower, (c != '-') = true := by
    intro c hc
    have hDigit := (isDigits_iff.mp hLower).2 c hc
    rw [bne_iff_ne]
    rintro rfl
    cases hDigit
  rw [splitRange?, List.dropWhile_append_of_pos hPass, List.takeWhile_append_of_pos hPass]
  simp [hLower, hUpper]

/-- A range begins and ends with a digit. -/
theorem splitRange?_of_isStarred {cs : List Char} (h : isStarred cs = true) :
    splitRange? cs = none := by
  rw [Option.eq_none_iff_forall_ne_some]
  rintro ⟨lower, upper⟩ hRange
  obtain ⟨hLower, hUpper⟩ := isDigits_of_splitRange? hRange
  rw [isDigits_iff] at hLower hUpper
  rw [eq_of_splitRange? hRange, isStarred, Bool.or_eq_true, beq_iff_eq, beq_iff_eq,
    List.head?_append_of_ne_nil _ hLower.1, List.getLast?_append_cons,
    List.getLast?_cons_of_ne_nil hUpper.1] at h
  rcases h with hHead | hLast
  · exact absurd (hLower.2 '*' (List.mem_of_head? hHead)) (by decide)
  · exact absurd (hUpper.2 '*' (List.mem_of_getLast? hLast)) (by decide)

/-- Stars are stripped from the ends only. -/
theorem stripEnds_of_not_isStarred {cs : List Char} (h : isStarred cs = false) :
    Text.stripEnds (· == '*') cs = cs := by
  rw [isStarred, Bool.or_eq_false_iff, beq_eq_false_iff_ne, beq_eq_false_iff_ne] at h
  have hFront : cs.dropWhile (· == '*') = cs := by
    rw [List.dropWhile_eq_self_iff]
    intro hLength hStar
    rw [List.head?_eq_getElem?, List.getElem?_eq_getElem hLength, beq_iff_eq.mp hStar] at h
    exact h.1 rfl
  rw [Text.stripEnds_eq, hFront, List.rdropWhile_eq_self_iff]
  intro hNonempty hStar
  rw [List.getLast?_eq_some_getLast hNonempty, beq_iff_eq.mp hStar] at h
  exact h.2 rfl

/-- Without a sign in front the rules for values without one count. -/
theorem split_eq_splitUnsigned {cs : List Char}
    (h : ∀ c ∈ cs.head?, ¬(c = '!' ∨ c = '>' ∨ c = '<')) :
    Comparison.split cs = Comparison.splitUnsigned cs := by
  rw [Comparison.split.eq_def]
  split
  case h_6 => rfl
  all_goals exact absurd (by simp) (h _ rfl)

theorem mem_of_isStarred {cs : List Char} (h : isStarred cs = true) : '*' ∈ cs := by
  rw [isStarred, Bool.or_eq_true, beq_iff_eq, beq_iff_eq] at h
  rcases h with h | h
  · exact List.mem_of_head? h
  · exact List.mem_of_getLast? h

/-! ## Wildcards -/

/-- Whether a character is the sign of a comparison, or begins one. -/
def isSign (c : Char) : Bool :=
  c == '!' || c == '>' || c == '<'

/-- Whether a value begins or ends with a star and has no sign in front. -/
def isWildcard (value : String) : Bool :=
  isStarred value.toList && !value.toList.head?.any isSign

/-- A value without the stars at its ends. -/
def innerText (value : String) : String :=
  String.ofList (Text.stripEnds (· == '*') value.toList)

theorem isWildcard_iff {value : String} :
    isWildcard value = true ↔ isStarred value.toList = true ∧
      ∀ c ∈ value.toList.head?, ¬(c = '!' ∨ c = '>' ∨ c = '<') := by
  rw [isWildcard, Bool.and_eq_true, Bool.not_eq_true', Option.any_eq_false]
  simp [isSign, and_assoc]

theorem isWildcard_enclosed (s : String) : isWildcard ("*" ++ s ++ "*") = true := by
  have hText : ("*" ++ s ++ "*").toList = '*' :: (s.toList ++ ['*']) := by simp
  rw [isWildcard, hText]
  rfl

namespace Predicate

/-- **A value is written as it was read, or is a wildcard.** -/
theorem raw_parse_cases (field value : String) :
    (parse field value).raw = value ∨ isWildcard value = true := by
  rw [parse, Comparison.split.eq_def]
  split
  -- a sign in front is written back in front
  iterate 5
    rename_i hText
    exact Or.inl (String.toList_inj.mp (by simp [raw, hText]))
  case h_6 hNotEqual hGreaterOrEqual hLessOrEqual hGreater hLess =>
    rw [Comparison.splitUnsigned]
    split
    · rename_i lower upper hRange
      exact Or.inl (String.toList_inj.mp (by simp [raw, eq_of_splitRange? hRange]))
    · by_cases hStarred : isStarred value.toList = true
      · refine Or.inr (isWildcard_iff.mpr ⟨hStarred, fun c hc => ?_⟩)
        obtain ⟨rest, hRest⟩ := List.head?_eq_some_iff.mp hc
        rintro (rfl | rfl | rfl)
        · exact hNotEqual rest hRest
        · exact hGreater rest hRest
        · exact hLess rest hRest
      · rw [if_neg hStarred]
        exact Or.inl String.ofList_toList

/-- A wildcard is caught by the rule of the stars, and by no rule before it. -/
theorem parse_of_isWildcard (field : String) {value : String} (h : isWildcard value = true) :
    parse field value = ⟨field, .contains, innerText value⟩ := by
  obtain ⟨hStarred, hSign⟩ := isWildcard_iff.mp h
  rw [parse, split_eq_splitUnsigned hSign, Comparison.splitUnsigned,
    splitRange?_of_isStarred hStarred, if_pos hStarred]
  rfl

/-- An inequality, and the bounds that a value may reach, are read as they are written. The sign of
a strict bound is not: in front of an operand that begins with `=` it is another sign. -/
theorem parse_raw_of_sign (p : Predicate) (h : p.comparison = .notEqual ∨
    p.comparison = .greaterOrEqual ∨ p.comparison = .lessOrEqual) : parse p.field p.raw = p := by
  obtain ⟨field, comparison, v⟩ := p
  rcases h with rfl | rfl | rfl
  all_goals simp [parse, raw, Comparison.split]

theorem raw_of_equal {p : Predicate} (h : p.comparison = .equal) : p.raw = p.operand := by
  rw [raw, h]

/-- A value is its own operand if it is read as plain equality. -/
theorem parse_of_equal (field : String) {v : String} (h : (parse field v).comparison = .equal) :
    parse field v = ⟨field, .equal, v⟩ := by
  rcases raw_parse_cases field v with hSame | hWildcard
  · rw [raw_of_equal h] at hSame
    calc parse field v = ⟨field, (parse field v).comparison, (parse field v).operand⟩ := rfl
      _ = ⟨field, .equal, v⟩ := by rw [h, hSame]
  · rw [parse_of_isWildcard field hWildcard] at h
    cases h

theorem parse_range (field : String) {lower upper : String} (hLower : isDigits lower.toList = true)
    (hUpper : isDigits upper.toList = true) :
    parse field (lower ++ "-" ++ upper) = ⟨field, .range upper, lower⟩ := by
  have hText : (lower ++ "-" ++ upper).toList = lower.toList ++ '-' :: upper.toList := by simp
  -- a digit is no sign
  have hSplit : Comparison.split (lower.toList ++ '-' :: upper.toList) =
      Comparison.splitUnsigned (lower.toList ++ '-' :: upper.toList) := by
    refine split_eq_splitUnsigned fun c hc => ?_
    obtain ⟨hNonempty, hDigits⟩ := isDigits_iff.mp hLower
    rw [List.head?_append_of_ne_nil _ hNonempty] at hc
    have hDigit := hDigits c (List.mem_of_mem_head? hc)
    rintro (rfl | rfl | rfl) <;> cases hDigit
  rw [parse, hText, hSplit, Comparison.splitUnsigned, splitRange?_of_isDigits hLower hUpper]
  simp

/-- What stands between two stars is searched for, if it has none at its ends. -/
theorem parse_enclosed (field : String) {inner : List Char}
    (h : Text.stripEnds (· == '*') inner = inner) :
    parse field ("*" ++ String.ofList inner ++ "*") = ⟨field, .contains, String.ofList inner⟩ := by
  have hText : ("*" ++ String.ofList inner ++ "*").toList = '*' :: (inner ++ ['*']) := by simp
  rw [parse_of_isWildcard field (isWildcard_enclosed _), innerText, hText,
    Text.stripEnds_enclosed (by decide), h]

/-- **What is written is read as the same predicate.** -/
theorem parse_raw_parse (field value : String) :
    parse field (parse field value).raw = parse field value := by
  rcases raw_parse_cases field value with hSame | hWildcard
  · rw [hSame]
  · rw [parse_of_isWildcard field hWildcard]
    exact parse_enclosed field (Text.stripEnds_idempotent _)

/-- **No character is written that was not read.** -/
theorem mem_of_mem_raw_parse {field value : String} {c : Char}
    (h : c ∈ (parse field value).raw.toList) : c ∈ value.toList := by
  rcases raw_parse_cases field value with hSame | hWildcard
  · rw [hSame] at h
    exact h
  · rw [parse_of_isWildcard field hWildcard] at h
    have hChar : c = '*' ∨ c ∈ Text.stripEnds (· == '*') value.toList := by
      simpa [raw, innerText, or_comm, or_left_comm] using h
    rcases hChar with rfl | hInner
    · exact mem_of_isStarred (isWildcard_iff.mp hWildcard).1
    · exact (Text.stripEnds_sublist _ _).subset hInner

end Predicate

end Query

end Taskboard
