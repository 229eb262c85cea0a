import Taskboard.Decimal.Reading
import Taskboard.Proofs.Text.LetterCase

/-!
# Taskboard — numbers in any case of letters

A number is written with digits, signs, a point, and few letters: the `e` in front of an exponent,
and those of `inf`, `infinity` and `nan`. Digits and signs have no case, and the letters are read in
either.

* `readFloat?_toLower` — the case of letters does not matter to the number that a text writes.
-/

namespace Taskboard.Decimal

open Text

/-- Digits stay as they are when letters are lower-cased. -/
theorem map_toLower_of_digits {cs : List Char} (h : ∀ c ∈ cs, c.isDigit = true) :
    cs.map Char.toLower = cs := by
  rw [List.map_congr_left fun c hc => toLower_of_isDigit (h c hc), List.map_id']

theorem takeWhile_isDigit_map_toLower (cs : List Char) :
    (cs.map Char.toLower).takeWhile Char.isDigit = cs.takeWhile Char.isDigit := by
  rw [takeWhile_map_of_same isDigit_toLower]
  exact map_toLower_of_digits fun c hc => List.all_eq_true.mp List.all_takeWhile c hc

theorem all_isDigit_map_toLower (cs : List Char) :
    (cs.map Char.toLower).all Char.isDigit = cs.all Char.isDigit := by
  rw [List.all_map, show Char.isDigit ∘ Char.toLower = Char.isDigit from funext isDigit_toLower]

theorem readSign_map_toLower (cs : List Char) :
    readSign (cs.map Char.toLower) =
      ((readSign cs).1, (readSign cs).2.map Char.toLower) := by
  cases cs with
  | nil => rfl
  | cons c rest =>
    have hMinus : c.toLower = '-' ↔ c = '-' := toLower_eq_iff (by decide) c
    have hPlus : c.toLower = '+' ↔ c = '+' := toLower_eq_iff (by decide) c
    by_cases hIsMinus : c = '-'
    · subst hIsMinus
      rfl
    by_cases hIsPlus : c = '+'
    · subst hIsPlus
      rfl
    -- without a sign nothing is taken off, in either form
    rw [List.map_cons, readSign.eq_3 _ (by simp [hMinus, hIsMinus]) (by simp [hPlus, hIsPlus]),
      readSign.eq_3 _ (by simp [hIsMinus]) (by simp [hIsPlus]), List.map_cons]

theorem readFraction_map_toLower (cs : List Char) :
    readFraction (cs.map Char.toLower) =
      ((readFraction cs).1, (readFraction cs).2.map Char.toLower) := by
  cases cs with
  | nil => rfl
  | cons c rest =>
    have hPoint : c.toLower = '.' ↔ c = '.' := toLower_eq_iff (by decide) c
    by_cases hIsPoint : c = '.'
    · subst hIsPoint
      show ((rest.map Char.toLower).takeWhile Char.isDigit,
        (rest.map Char.toLower).dropWhile Char.isDigit) = _
      rw [takeWhile_isDigit_map_toLower, dropWhile_map_of_same isDigit_toLower]
      rfl
    · rw [List.map_cons, readFraction.eq_2 _ (by simp [hPoint, hIsPoint]),
        readFraction.eq_2 _ (by simp [hIsPoint]), List.map_cons]

theorem readExponent?_map_toLower (cs : List Char) :
    readExponent? (cs.map Char.toLower) = readExponent? cs := by
  cases cs with
  | nil => rfl
  | cons c rest =>
    -- the letter in front of an exponent is read in either case
    have hLetter : (c.toLower = 'e' ∨ c.toLower = 'E') ↔ (c = 'e' ∨ c = 'E') :=
      decide_eq_decide.mp (apply_toLower (f := fun d => decide (d = 'e' ∨ d = 'E')) (by decide) c)
    rw [List.map_cons, readExponent?, readExponent?, readSign_map_toLower]
    simp only [hLetter, List.isEmpty_map, all_isDigit_map_toLower]
    -- what follows is either digits, which have no case, or no exponent in either form
    by_cases hDigits : (readSign rest).2.all Char.isDigit = true
    · rw [map_toLower_of_digits (List.all_eq_true.mp hDigits)]
    · simp only [hDigits, Bool.not_false, Bool.or_true, if_true]

theorem readDecimal?_map_toLower (negative : Bool) (cs : List Char) :
    readDecimal? negative (cs.map Char.toLower) = readDecimal? negative cs := by
  unfold readDecimal?
  rw [takeWhile_isDigit_map_toLower, dropWhile_map_of_same isDigit_toLower,
    readFraction_map_toLower]
  simp only [readExponent?_map_toLower]

/-- **The case of letters does not matter to the number that a text writes.** -/
theorem readFloat?_toLower (s : String) : readFloat? s.toLower = readFloat? s := by
  unfold readFloat?
  -- `inf` and `nan` are compared after folding, so folding twice is what remains to be seen
  rw [toList_toLower, readSign_map_toLower]
  simp only [← toLower_ofList, string_toLower_toLower, readDecimal?_map_toLower]

end Taskboard.Decimal
