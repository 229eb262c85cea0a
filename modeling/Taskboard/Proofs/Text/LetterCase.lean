import Taskboard.Text.Blank
import Taskboard.Text.Lowercase

/-!
# Taskboard — the case of letters

Two foldings meet in queries: that of ASCII letters, one character at a time, and the full
lower-case mapping, which looks at the neighbours of a sigma. The second takes in the first, since a
letter of ASCII has case and counts as a neighbour in either form. And a text in lower case stays as
it is under both, since no letter has a lower-case form that has one itself.

* `apply_toLower` — what holds of the 26 capitals holds of all characters;
* `lowercase_toLower` — the case of ASCII letters does not matter to the lower-case form;
* `lowercase_lowercase`, `toLower_lowercase` — a lower-case form has no other;
* `trim_toLower` — the case of letters does not matter to trimming.
-/

namespace Taskboard.Text

/-! ## Letters of ASCII -/

theorem toLower_of_not_capital {c : Char} (h : ¬(0x41 ≤ c.toNat ∧ c.toNat ≤ 0x5A)) :
    c.toLower = c := by
  unfold Char.toLower
  rw [dif_neg]
  rintro ⟨hFirst, hLast⟩
  exact h ⟨UInt32.le_iff_toNat_le.mp hFirst, UInt32.le_iff_toNat_le.mp hLast⟩

/-- **What looks the same on each of the 26 capitals and its small letter ignores the case of
ASCII letters**, for no other character has another form. -/
theorem apply_toLower {β : Type} {f : Char → β}
    (h : ∀ i < 26, f (Char.ofNat (0x41 + i)).toLower = f (Char.ofNat (0x41 + i))) (c : Char) :
    f c.toLower = f c := by
  by_cases hCapital : 0x41 ≤ c.toNat ∧ c.toNat ≤ 0x5A
  · -- a capital is one of the 26 that were looked at
    have hc : c = Char.ofNat (0x41 + (c.toNat - 0x41)) := by
      rw [Nat.add_sub_cancel' hCapital.1, Char.ofNat_toNat]
    rw [hc]
    exact h (c.toNat - 0x41) (by omega)
  · rw [toLower_of_not_capital hCapital]

theorem toLower_toLower (c : Char) : c.toLower.toLower = c.toLower :=
  apply_toLower (by decide) c

/-- A character that is no letter of ASCII is the small form of itself only. -/
theorem toLower_eq_iff {x : Char} (hx : ∀ i < 26, decide ((Char.ofNat (0x41 + i)).toLower = x) =
    decide (Char.ofNat (0x41 + i) = x)) (c : Char) : c.toLower = x ↔ c = x :=
  decide_eq_decide.mp (apply_toLower (f := fun d => decide (d = x)) hx c)

theorem isBlank_toLower (c : Char) : isBlank c.toLower = isBlank c :=
  apply_toLower (by decide) c

theorem isDigit_toLower (c : Char) : c.toLower.isDigit = c.isDigit :=
  apply_toLower (by decide) c

theorem toLower_of_isDigit {c : Char} (h : c.isDigit = true) : c.toLower = c := by
  refine toLower_of_not_capital fun hCapital => ?_
  have hLast := (Bool.and_eq_true_iff.mp h).2
  have hNine : c.toNat ≤ 0x39 := UInt32.le_iff_toNat_le.mp (of_decide_eq_true hLast)
  omega

/-! ## Texts -/

theorem toList_toLower (s : String) : s.toLower.toList = s.toList.map Char.toLower :=
  String.toList_map

theorem toLower_ofList (cs : List Char) :
    (String.ofList cs).toLower = String.ofList (cs.map Char.toLower) := by
  rw [← String.toList_inj, toList_toLower, String.toList_ofList, String.toList_ofList]

theorem map_toLower_map_toLower (cs : List Char) :
    (cs.map Char.toLower).map Char.toLower = cs.map Char.toLower := by
  rw [List.map_map]
  exact List.map_congr_left fun c _ => toLower_toLower c

theorem string_toLower_toLower (s : String) : s.toLower.toLower = s.toLower := by
  rw [← String.toList_inj, toList_toLower, toList_toLower, map_toLower_map_toLower]

theorem sameIgnoringCase_iff {a b : String} : sameIgnoringCase a b = true ↔ a.toLower = b.toLower :=
  beq_iff_eq

section Runs

variable {α : Type} {p : α → Bool} {f : α → α}

/-- A map that a class does not notice moves past the runs of the class. -/
theorem dropWhile_map_of_same (hp : ∀ x, p (f x) = p x) (xs : List α) :
    (xs.map f).dropWhile p = (xs.dropWhile p).map f := by
  rw [List.dropWhile_map, show p ∘ f = p from funext hp]

theorem takeWhile_map_of_same (hp : ∀ x, p (f x) = p x) (xs : List α) :
    (xs.map f).takeWhile p = (xs.takeWhile p).map f := by
  rw [List.takeWhile_map, show p ∘ f = p from funext hp]

theorem stripEnds_map (hp : ∀ x, p (f x) = p x) (xs : List α) :
    stripEnds p (xs.map f) = (stripEnds p xs).map f := by
  unfold stripEnds
  rw [dropWhile_map_of_same hp, ← List.map_reverse, dropWhile_map_of_same hp, List.map_reverse]

end Runs

theorem trim_toLower (s : String) : trim s.toLower = (trim s).toLower := by
  unfold trim
  rw [toList_toLower, stripEnds_map isBlank_toLower, toLower_ofList]

/-! ## The lower-case form ignores the case of ASCII letters -/

/-- No letter of ASCII lies in a range of characters that the search for a neighbour skips. -/
theorem ignorableRanges_miss_letters : (ignorableRanges.all fun r =>
    Nat.blt r.2 0x41 || (Nat.blt 0x5A r.1 && Nat.blt r.2 0x61) || Nat.blt 0x7A r.1) = true := by
  decide +kernel

theorem inRanges_eq_false {ranges : List (Nat × Nat)} {c : Char}
    (h : ∀ r ∈ ranges, ¬(r.1 ≤ c.toNat ∧ c.toNat ≤ r.2)) : inRanges ranges c = false := by
  unfold inRanges
  rw [List.any_eq_false]
  intro r hr
  simpa using h r hr

theorem not_ignorable_of_letter {c : Char}
    (hc : 0x41 ≤ c.toNat ∧ c.toNat ≤ 0x5A ∨ 0x61 ≤ c.toNat ∧ c.toNat ≤ 0x7A) :
    inRanges ignorableRanges c = false := by
  refine inRanges_eq_false fun r hr => ?_
  have hMiss := List.all_eq_true.mp ignorableRanges_miss_letters r hr
  simp only [Bool.or_eq_true, Bool.and_eq_true, Nat.blt_eq] at hMiss
  omega

theorem ignorable_toLower (c : Char) :
    inRanges ignorableRanges c.toLower = inRanges ignorableRanges c := by
  refine apply_toLower (fun i hi => ?_) c
  have hLetter : ∀ i < 26,
      (0x41 ≤ (Char.ofNat (0x41 + i)).toNat ∧ (Char.ofNat (0x41 + i)).toNat ≤ 0x5A) ∧
      0x61 ≤ (Char.ofNat (0x41 + i)).toLower.toNat ∧
        (Char.ofNat (0x41 + i)).toLower.toNat ≤ 0x7A := by decide
  -- neither the capital nor the small letter is skipped
  rw [not_ignorable_of_letter (Or.inl (hLetter i hi).1),
    not_ignorable_of_letter (Or.inr (hLetter i hi).2)]

theorem cased_toLower (c : Char) : inRanges casedRanges c.toLower = inRanges casedRanges c :=
  apply_toLower (by decide +kernel) c

theorem lowerChar_toLower (c : Char) : lowerChar c.toLower = lowerChar c :=
  apply_toLower (by decide +kernel) c

theorem meetsCased_map_toLower (cs : List Char) :
    meetsCased (cs.map Char.toLower) = meetsCased cs := by
  unfold meetsCased
  rw [dropWhile_map_of_same ignorable_toLower]
  cases cs.dropWhile (inRanges ignorableRanges) with
  | nil => rfl
  | cons c rest => exact cased_toLower c

theorem lowerFrom_map_toLower (before cs : List Char) :
    lowerFrom (before.map Char.toLower) (cs.map Char.toLower) = lowerFrom before cs := by
  induction cs generalizing before with
  | nil => rfl
  | cons c rest ih =>
    have hSigma : c.toLower = 'Σ' ↔ c = 'Σ' := toLower_eq_iff (by decide) c
    -- a sigma sees on both sides whether a letter comes, but not of which case it is
    have hEnds : endsWord (before.map Char.toLower) (rest.map Char.toLower) =
        endsWord before rest := by
      unfold endsWord
      rw [meetsCased_map_toLower, meetsCased_map_toLower]
    have hRest := ih (c :: before)
    rw [List.map_cons] at hRest
    rw [List.map_cons, lowerFrom, lowerFrom, hRest, lowerChar_toLower, hEnds]
    simp only [hSigma]

/-- **The lower-case form ignores the case of ASCII letters.** -/
theorem lowercase_toLower (s : String) : lowercase s.toLower = lowercase s := by
  unfold lowercase
  rw [toList_toLower]
  exact congrArg String.ofList (lowerFrom_map_toLower [] s.toList)

/-! ## A lower-case form has no other -/

/-- A run of letters: first, last, step between members, and the distance to their lower-case
forms. -/
abbrev Run := Nat × Nat × Nat × Int

/-- Whether a code point is a member of a run. -/
def Run.Has (r : Run) (n : Nat) : Prop :=
  r.1 ≤ n ∧ n ≤ r.2.1 ∧ (n - r.1) % r.2.2.1 = 0

/-- The runs of all letters that have another lower-case form: the table, the letters of ASCII, and
the dotted capital I. -/
def capitalRuns : List Run :=
  (0x41, 0x5A, 1, 32) :: (0x130, 0x130, 1, 0) :: upperRuns

/-- The run of the lower-case forms of a run. -/
def Run.forms (r : Run) : Run :=
  ((r.1 + r.2.2.2).toNat, (r.2.1 + r.2.2.2).toNat, r.2.2.1, 0)

/-- The form of a letter is as far from the first form as the letter is from the first letter. -/
theorem Run.Has.forms {r : Run} {n : Nat} (h : r.Has n) (hNonneg : 0 ≤ r.1 + r.2.2.2) :
    r.forms.Has (n + r.2.2.2).toNat := by
  obtain ⟨hFirst, hLast, hStep⟩ := h
  have hPlace : (n + r.2.2.2).toNat - (r.1 + r.2.2.2).toNat = n - r.1 := by omega
  refine ⟨?_, ?_, ?_⟩
  · show (r.1 + r.2.2.2).toNat ≤ (n + r.2.2.2).toNat
    omega
  · show (n + r.2.2.2).toNat ≤ (r.2.1 + r.2.2.2).toNat
    omega
  · show ((n + r.2.2.2).toNat - (r.1 + r.2.2.2).toNat) % r.2.2.1 = 0
    rw [hPlace, hStep]

/-- The bits of some numbers in one. -/
def joined (bits : List Nat) : Nat :=
  bits.foldr (fun b rest => b ||| rest) 0

/-- The members of a run as the bits of a number, so that two sets of letters are compared in one
step. -/
def Run.bits (r : Run) : Nat :=
  joined ((List.range ((r.2.1 - r.1) / r.2.2.1 + 1)).map fun i => 1 <<< (r.1 + i * r.2.2.1))

theorem testBit_joined {b n : Nat} {bits : List Nat} (hMem : b ∈ bits)
    (hBit : b.testBit n = true) : (joined bits).testBit n = true := by
  induction bits with
  | nil => cases hMem
  | cons other bits ih =>
    rw [joined, List.foldr_cons, Nat.testBit_or, Bool.or_eq_true]
    rcases List.mem_cons.mp hMem with rfl | hRest
    · exact Or.inl hBit
    · exact Or.inr (ih hRest)

theorem Run.Has.testBit {r : Run} {n : Nat} (h : r.Has n) : r.bits.testBit n = true := by
  obtain ⟨hFirst, hLast, hStep⟩ := h
  have hPlace : (n - r.1) / r.2.2.1 < (r.2.1 - r.1) / r.2.2.1 + 1 :=
    Nat.lt_succ_of_le (Nat.div_le_div_right (Nat.sub_le_sub_right hLast _))
  refine testBit_joined (List.mem_map_of_mem (List.mem_range.mpr hPlace)) ?_
  rw [Nat.div_mul_cancel (Nat.dvd_of_mod_eq_zero hStep), Nat.add_sub_cancel' hFirst,
    Nat.testBit_shiftLeft, Nat.sub_self]
  simp

/-- The lower-case forms of the table are code points, and none is a letter that has another one. -/
theorem forms_miss_capitals : (upperRuns.all fun r => decide (0 ≤ r.1 + r.2.2.2)) = true ∧
    joined ((upperRuns.map Run.forms).map Run.bits) &&& joined (capitalRuns.map Run.bits) = 0 := by
  decide +kernel

/-- The small letters that the rules beside the table give are their own lower-case forms, and so is
the character with number zero; the capital sigma is not. -/
theorem lowerChar_beside_table :
    (∀ c ∈ ['i', Char.ofNat 0x307, 'σ', 'ς', Char.ofNat 0], lowerChar c = [c]) ∧
      lowerChar 'Σ' ≠ ['Σ'] := by
  have hAll : (['i', Char.ofNat 0x307, 'σ', 'ς', Char.ofNat 0].all
      fun c => decide (lowerChar c = [c])) = true := by decide +kernel
  exact ⟨fun c hc => of_decide_eq_true (List.all_eq_true.mp hAll c hc), by decide +kernel⟩

theorem lowerShift_cases (n : Nat) :
    lowerShift n = 0 ∨ ∃ r ∈ upperRuns, Run.Has r n ∧ lowerShift n = r.2.2.2 := by
  unfold lowerShift
  split
  · rename_i r hFind
    have hRun := List.find?_some hFind
    simp only [Bool.and_eq_true, decide_eq_true_eq, beq_iff_eq, and_assoc] at hRun
    exact Or.inr ⟨r, List.mem_of_find?_eq_some hFind, hRun, rfl⟩
  · exact Or.inl rfl

/-- A letter of no run is its own lower-case form. -/
theorem lowerChar_of_not_has {c : Char} (h : ∀ r ∈ capitalRuns, ¬r.Has c.toNat) :
    lowerChar c = [c] := by
  have hAscii : ¬(0x41 ≤ c.toNat ∧ c.toNat ≤ 0x5A) := by
    rintro ⟨hFirst, hLast⟩
    exact h (0x41, 0x5A, 1, 32) (by simp [capitalRuns]) ⟨hFirst, hLast, Nat.mod_one _⟩
  have hDotted : c.toNat ≠ 0x130 := by
    intro hEq
    have hMember : Run.Has (0x130, 0x130, 1, 0) c.toNat := by
      rw [hEq]
      exact ⟨Nat.le_refl _, Nat.le_refl _, Nat.mod_one _⟩
    exact h (0x130, 0x130, 1, 0) (by simp [capitalRuns]) hMember
  have hShift : lowerShift c.toNat = 0 := by
    rcases lowerShift_cases c.toNat with hZero | ⟨r, hr, hHas, -⟩
    · exact hZero
    · exact absurd hHas (h r (by simp [capitalRuns, hr]))
  rw [lowerChar, toLower_of_not_capital hAscii, if_neg hDotted, hShift, Int.add_zero,
    Int.toNat_natCast, Char.ofNat_toNat, ite_self]

/-- The letter that the table gives for a member of a run is its own lower-case form. -/
theorem lowerChar_form {r : Run} (hr : r ∈ upperRuns) {n : Nat} (hn : r.Has n) :
    lowerChar (Char.ofNat (n + r.2.2.2).toNat) = [Char.ofNat (n + r.2.2.2).toNat] := by
  have hNonneg := of_decide_eq_true (List.all_eq_true.mp forms_miss_capitals.1 r hr)
  by_cases hValid : (n + r.2.2.2).toNat.isValidChar
  · have hNat : (Char.ofNat (n + r.2.2.2).toNat).toNat = (n + r.2.2.2).toNat := by
      rw [Char.ofNat, dif_pos hValid]
      rfl
    refine lowerChar_of_not_has fun other hOther hHas => ?_
    rw [hNat] at hHas
    have hForm := testBit_joined (List.mem_map_of_mem (List.mem_map_of_mem hr))
      (hn.forms hNonneg).testBit
    have hCapital := testBit_joined (List.mem_map_of_mem hOther) hHas.testBit
    -- the form would be a bit of both numbers, which have none in common
    have hBoth := congrArg (Nat.testBit · (n + r.2.2.2).toNat) forms_miss_capitals.2
    simp only [Nat.testBit_and, hForm, hCapital, Nat.zero_testBit] at hBoth
    cases hBoth
  · -- a number that is no character stands for the one with number zero
    rw [Char.ofNat, dif_neg hValid]
    exact lowerChar_beside_table.1 (Char.ofNat 0) (by simp)

/-- **A character of a lower-case form has no other.** -/
theorem lowerChar_of_mem_lowerChar {c d : Char} (h : d ∈ lowerChar c) : lowerChar d = [d] := by
  unfold lowerChar at h
  split at h
  · rename_i hAscii
    rw [List.mem_singleton.mp h, lowerChar_toLower, lowerChar, if_pos hAscii]
  · rename_i hAscii
    split at h
    · -- the dotted capital becomes a small letter and a dot
      exact lowerChar_beside_table.1 d (List.mem_append_left ['σ', 'ς', Char.ofNat 0] h)
    · rename_i hDotted
      rw [List.mem_singleton.mp h]
      rcases lowerShift_cases c.toNat with hZero | ⟨r, hr, hHas, hShift⟩
      · rw [hZero, Int.add_zero, Int.toNat_natCast, Char.ofNat_toNat, lowerChar, if_neg hAscii,
          if_neg hDotted, hZero, Int.add_zero, Int.toNat_natCast, Char.ofNat_toNat]
      · rw [hShift]
        exact lowerChar_form hr hHas

theorem lowerChar_of_mem_lowerFrom {before cs : List Char} {d : Char}
    (h : d ∈ lowerFrom before cs) : lowerChar d = [d] := by
  induction cs generalizing before with
  | nil => cases h
  | cons c rest ih =>
    rw [lowerFrom, List.mem_append] at h
    rcases h with hHere | hRest
    · by_cases hSigma : c = 'Σ'
      · rw [if_pos hSigma, List.mem_singleton] at hHere
        -- either form of the sigma is a small letter
        split at hHere <;> rw [hHere] <;> exact lowerChar_beside_table.1 _ (by simp)
      · rw [if_neg hSigma] at hHere
        exact lowerChar_of_mem_lowerChar hHere
    · exact ih hRest

theorem lowerFrom_of_forall_lowerChar {cs : List Char} (h : ∀ c ∈ cs, lowerChar c = [c])
    (before : List Char) : lowerFrom before cs = cs := by
  induction cs generalizing before with
  | nil => rfl
  | cons c rest ih =>
    have hSmall := h c List.mem_cons_self
    -- the sigma has a form of its own, and is no lower-case form
    have hSigma : c ≠ 'Σ' := by
      rintro rfl
      exact lowerChar_beside_table.2 hSmall
    rw [lowerFrom, if_neg hSigma, hSmall, ih (fun d hd => h d (List.mem_cons_of_mem _ hd))]
    rfl

/-- **A lower-case form is its own lower-case form.** -/
theorem lowercase_lowercase (s : String) : lowercase (lowercase s) = lowercase s := by
  unfold lowercase
  rw [String.toList_ofList, lowerFrom_of_forall_lowerChar fun c hc => lowerChar_of_mem_lowerFrom hc]

/-- **A lower-case form has no capitals of ASCII.** -/
theorem toLower_lowercase (s : String) : (lowercase s).toLower = lowercase s := by
  unfold lowercase
  rw [toLower_ofList, List.map_congr_left fun c hc => ?_, List.map_id]
  have hSmall := lowerChar_of_mem_lowerFrom hc
  -- in ASCII both foldings are one, and there are no capitals beyond it
  by_cases hAscii : c.toNat < 0x80
  · rw [lowerChar, if_pos hAscii] at hSmall
    exact (List.cons.inj hSmall).1
  · exact toLower_of_not_capital fun hCapital => by omega

end Taskboard.Text
