import Taskboard.Proofs.Query.LetterCase
import Taskboard.Proofs.Query.Value

/-!
# Taskboard — the operators of values and the connectives

A query can say no, and can say two things at once, in two ways each: by a connective between
terms, or by an operator in the value of one term. The operators have rules of their own, for the
current user, for bare terms and for the numbers of a range, and say the same as the connectives
under all of them.

* `FieldValue.within_eq` — a range has a lower and an upper end;
* `Predicate.holds_range` — and so has a predicate for one;
* `Predicate.holds_notEqual` — an item that differs is one that does not equal;
* `operators_agree` — the operators as connectives.
-/

namespace Taskboard.Query

/-! ## Matching -/

/-- **A range has a lower and an upper end.** -/
theorem FieldValue.within_eq (v : FieldValue) (field lower upper : String) :
    v.within field lower upper =
      (v.relates (fun n q => q ≤ n) field lower && v.relates (fun n q => n ≤ q) field upper) := by
  unfold within relates
  cases v.number? <;> cases operandNumber? field lower <;> cases operandNumber? field upper <;>
    simp

namespace Predicate

variable {field operand lower upper : String} {comparison : Comparison}

/-- Digits do not ask for the current user. -/
theorem asksForUser_of_isDigits (h : isDigits operand.toList = true) :
    asksForUser ⟨field, comparison, operand⟩ = false := by
  have hLower : operand.toLower = operand := by
    rw [← String.toList_inj, Text.toList_toLower, map_toLower_of_isDigits h]
  have hOther : operand ≠ currentUser.toLower := by
    rintro rfl
    revert h
    decide +kernel
  rw [asksForUser, Text.sameIgnoringCase, hLower, beq_eq_false_iff_ne.mpr hOther, Bool.and_false]

/-- Bare terms and the current user have no reading of their own for an order. -/
theorem holds_of_isDigits (h : isDigits operand.toList = true) (hEqual : comparison ≠ .equal)
    (hNotEqual : comparison ≠ .notEqual) (item : WorkItem) :
    holds ⟨field, comparison, operand⟩ item =
      (resolve item field).satisfies ⟨field, comparison, operand⟩ := by
  rw [holds, asksForUser_of_isDigits h, if_neg Bool.false_ne_true]
  by_cases hText : field = textField
  · rw [if_pos hText]
    cases comparison with
    | equal => exact absurd rfl hEqual
    | notEqual => exact absurd rfl hNotEqual
    | _ => rfl
  · rw [if_neg hText]

/-- **A range holds where both of its ends do.** -/
theorem holds_range (hLower : isDigits lower.toList = true) (hUpper : isDigits upper.toList = true)
    (item : WorkItem) :
    holds ⟨field, .range upper, lower⟩ item =
      (holds ⟨field, .greaterOrEqual, lower⟩ item &&
        holds ⟨field, .lessOrEqual, upper⟩ item) := by
  rw [holds_of_isDigits hLower (by simp) (by simp), holds_of_isDigits hLower (by simp) (by simp),
    holds_of_isDigits hUpper (by simp) (by simp)]
  exact FieldValue.within_eq _ field lower upper

/-- **An item differs where it does not equal**, for the current user and bare terms too. -/
theorem holds_notEqual (field v : String) (item : WorkItem) :
    holds ⟨field, .notEqual, v⟩ item = !holds ⟨field, .equal, v⟩ item := by
  have hUser : asksForUser ⟨field, .notEqual, v⟩ = asksForUser ⟨field, .equal, v⟩ := rfl
  unfold holds
  rw [hUser]
  split
  · rfl
  split
  · rfl
  · rfl

end Predicate

/--
**The operators of values agree with the connectives.** Whatever the field is, a range of digits
holds of the items of which both of its ends hold, and the sign in front of a value that is read as
plain equality holds of those of which the term without it does not.
-/
theorem operators_agree (field : String) (item : WorkItem) :
    (∀ lower upper : String, isDigits lower.toList = true → isDigits upper.toList = true →
      (Predicate.parse field (lower ++ "-" ++ upper)).holds item =
        (Expr.conj (.leaf (.parse field (">=" ++ lower)))
          (.leaf (.parse field ("<=" ++ upper)))).holds item) ∧
    ∀ v : String, (Predicate.parse field v).comparison = .equal →
      (Predicate.parse field ("!" ++ v)).holds item =
        (Expr.neg (.leaf (.parse field v))).holds item := by
  constructor
  · intro lower upper hLower hUpper
    have hFrom : Predicate.parse field (">=" ++ lower) = ⟨field, .greaterOrEqual, lower⟩ :=
      Predicate.parse_raw_of_sign ⟨field, .greaterOrEqual, lower⟩ (.inr (.inl rfl))
    have hTo : Predicate.parse field ("<=" ++ upper) = ⟨field, .lessOrEqual, upper⟩ :=
      Predicate.parse_raw_of_sign ⟨field, .lessOrEqual, upper⟩ (.inr (.inr rfl))
    rw [Expr.holds, Expr.holds, Expr.holds, hFrom, hTo, Predicate.parse_range field hLower hUpper,
      Predicate.holds_range hLower hUpper]
  · intro v hEqual
    have hNot : Predicate.parse field ("!" ++ v) = ⟨field, .notEqual, v⟩ :=
      Predicate.parse_raw_of_sign ⟨field, .notEqual, v⟩ (.inl rfl)
    rw [Expr.holds, Expr.holds, hNot, Predicate.parse_of_equal field hEqual,
      Predicate.holds_notEqual]

/-- A range of levels, and the current user on an item that someone has. -/
theorem operators_agree_on_level_and_user :
    let item : WorkItem := { id := "a", priority := .high, assignee := some "b" }
    isDigits "1".toList = true ∧ isDigits "03".toList = true ∧
      (Predicate.parse "assignee" "@me").comparison = .equal ∧
      (Predicate.parse "priority" ("1" ++ "-" ++ "03")).holds item =
        (Expr.conj (.leaf (.parse "priority" (">=" ++ "1")))
          (.leaf (.parse "priority" ("<=" ++ "03")))).holds item ∧
      (Predicate.parse "assignee" ("!" ++ "@me")).holds item =
        (Expr.neg (.leaf (.parse "assignee" "@me"))).holds item ∧
      (Predicate.parse "assignee" ("!" ++ "@me")).holds item = false := by
  intro item
  have hLower : isDigits "1".toList = true := by decide
  have hUpper : isDigits "03".toList = true := by decide
  have hEqual : (Predicate.parse "assignee" "@me").comparison = .equal := by decide +kernel
  have hNegation := (operators_agree "assignee" item).2 "@me" hEqual
  exact ⟨hLower, hUpper, hEqual, (operators_agree "priority" item).1 "1" "03" hLower hUpper,
    hNegation, by decide +kernel⟩

end Taskboard.Query
