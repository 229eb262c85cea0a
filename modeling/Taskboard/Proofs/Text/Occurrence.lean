import Mathlib.Data.List.Infix
import Taskboard.Text.Lowercase

/-!
# Taskboard — parts of a text in lower case

The lower-case form of a text is made of those of its parts, but the form of a part may depend on
what is around it: a capital sigma that ends a word becomes another letter than one that does not.
So a part has in a text the form that it has alone if its sigmas end the same words in both, and
then the form of the part occurs in that of the text.

* `occursIn_iff` — to occur is to be a run of neighbours;
* `lowerIn` — the lower-case form of a part, between what is around it;
* `lowerFrom_append` — a text is lowered part by part;
* `SigmasAgree` — the capital sigmas of a part end words between two texts where they do between
  two others;
* `lowerIn_eq_iff` — a part then has one form between both, and only then;
* `SigmasKept` — they end words in the text where they do in the part alone;
* `SigmasKept.of_notMem` — as they do in every text if there are none;
* `SigmasKept.append_blank`, `SigmasKept.blank_append` — what stands beyond a space does not count;
* `SigmasKept.lowercase_infix` — the form of a part occurs in that of the text.
-/

namespace Taskboard.Text

/-! ## Occurrences -/

/-- To occur is to be a run of neighbours. -/
theorem occursIn_iff {needle hay : List Char} : occursIn needle hay = true ↔ needle <:+: hay := by
  induction hay with
  | nil => rw [occursIn, List.isEmpty_iff, List.infix_nil]
  | cons c rest ih =>
    rw [occursIn, Bool.or_eq_true, List.isPrefixOf_iff_prefix, ih, List.infix_cons_iff]

/-! ## The form of a part -/

/-- The lower-case form of a part of a text; `before` and `after` are around it, both read from it
outwards. -/
def lowerIn (before : List Char) : List Char → List Char → List Char
  | [], _ => []
  | c :: rest, after =>
    (if c = 'Σ' then [if endsWord before (rest ++ after) then 'ς' else 'σ'] else lowerChar c) ++
      lowerIn (c :: before) rest after

/-- **A text is lowered part by part.** -/
theorem lowerFrom_append (before w after : List Char) :
    lowerFrom before (w ++ after) =
      lowerIn before w after ++ lowerFrom (w.reverse ++ before) after := by
  induction w generalizing before with
  | nil => rfl
  | cons c rest ih =>
    rw [List.cons_append, lowerFrom, ih, lowerIn, List.append_assoc, List.reverse_cons,
      List.append_assoc, List.singleton_append]

/-- Between two texts, the capital sigmas of a part end words where they do between two others. -/
def SigmasAgree (before before' w after after' : List Char) : Prop :=
  ∀ i < w.length, w[i]? = some 'Σ' →
    endsWord ((w.take i).reverse ++ before) (w.drop (i + 1) ++ after) =
      endsWord ((w.take i).reverse ++ before') (w.drop (i + 1) ++ after')

theorem sigmasAgree_cons {c : Char} {before before' rest after after' : List Char} :
    SigmasAgree before before' (c :: rest) after after' ↔
      (c = 'Σ' → endsWord before (rest ++ after) = endsWord before' (rest ++ after')) ∧
        SigmasAgree (c :: before) (c :: before') rest after after' := by
  -- the first character is the case `0`, the others are the cases of the rest
  unfold SigmasAgree
  rw [List.length_cons, Nat.forall_lt_succ_left]
  simp

/-- **A part has one form between different texts if its sigmas agree, and only then.** -/
theorem lowerIn_eq_iff {before before' w after after' : List Char} :
    lowerIn before w after = lowerIn before' w after' ↔
      SigmasAgree before before' w after after' := by
  induction w generalizing before before' with
  | nil => simp [lowerIn, SigmasAgree]
  | cons c rest ih =>
    rw [sigmasAgree_cons, ← ih, lowerIn, lowerIn]
    by_cases hSigma : c = 'Σ'
    · rw [if_pos hSigma, if_pos hSigma, List.singleton_append, List.singleton_append,
        List.cons.injEq]
      refine and_congr_left fun _ => ?_
      cases endsWord before (rest ++ after) <;> cases endsWord before' (rest ++ after') <;>
        simp [hSigma]
    · rw [if_neg hSigma, if_neg hSigma, List.append_cancel_left_eq]
      simp [hSigma]

/-- A part that is the whole text. -/
theorem lowerIn_nil (before w : List Char) : lowerIn before w [] = lowerFrom before w := by
  have hWhole := lowerFrom_append before w []
  rw [List.append_nil, lowerFrom, List.append_nil] at hWhole
  exact hWhole.symm

/-! ## Parts that keep their form -/

/-- The capital sigmas of `w` end words in the text `pre ++ w ++ post` where they do in `w` alone. -/
def SigmasKept (pre w post : List Char) : Prop :=
  SigmasAgree pre.reverse [] w post []

instance (before before' w after after' : List Char) :
    Decidable (SigmasAgree before before' w after after') :=
  inferInstanceAs (Decidable (∀ i < w.length, _ → _))

instance (pre w post : List Char) : Decidable (SigmasKept pre w post) :=
  inferInstanceAs (Decidable (SigmasAgree pre.reverse [] w post []))

/-- The search for a cased letter ends at a space. -/
theorem meetsCased_append_blank (cs ds : List Char) :
    meetsCased (cs ++ ' ' :: ds) = meetsCased cs := by
  have hIgnorable : inRanges ignorableRanges ' ' = false := by decide +kernel
  have hCased : inRanges casedRanges ' ' = false := by decide +kernel
  unfold meetsCased
  rw [List.dropWhile_append]
  cases hDrop : cs.dropWhile (inRanges ignorableRanges) with
  | nil =>
    rw [List.isEmpty_nil, if_pos rfl, List.dropWhile_cons_of_neg (by simp [hIgnorable])]
    exact hCased
  | cons c rest => rfl

namespace SigmasKept

variable {pre w post : List Char}

/-- A part without capital sigmas keeps its form anywhere. -/
theorem of_notMem (h : 'Σ' ∉ w) (pre post : List Char) : SigmasKept pre w post :=
  fun _ _ hSigma => absurd (List.mem_of_getElem? hSigma) h

theorem append_blank (h : SigmasKept pre w post) (rest : List Char) :
    SigmasKept pre w (post ++ ' ' :: rest) := by
  intro i hi hSigma
  rw [← h i hi hSigma, endsWord, endsWord, ← List.append_assoc, meetsCased_append_blank]

theorem blank_append (h : SigmasKept pre w post) (front : List Char) :
    SigmasKept (front ++ ' ' :: pre) w post := by
  intro i hi hSigma
  rw [← h i hi hSigma, endsWord, endsWord, List.reverse_append, List.reverse_cons,
    List.append_assoc, List.singleton_append, ← List.append_assoc, meetsCased_append_blank]

/-- **The form of a part occurs in that of the text.** -/
theorem lowercase_infix (h : SigmasKept pre w post) :
    lowerFrom [] w <:+: lowerFrom [] (pre ++ w ++ post) := by
  have hSame : lowerIn pre.reverse w post = lowerFrom [] w := by
    rw [lowerIn_eq_iff.mpr h, lowerIn_nil]
  rw [List.append_assoc, lowerFrom_append, List.append_nil, lowerFrom_append, hSame]
  exact ⟨_, _, List.append_assoc _ _ _⟩

end SigmasKept

end Taskboard.Text
