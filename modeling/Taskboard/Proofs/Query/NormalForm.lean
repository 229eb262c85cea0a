import Taskboard.Proofs.Query.Value

/-!
# Taskboard — the normal form of a value

Different values may carry the same comparison and operand, but only in one way: the stars around a
wildcard are not counted. So each value has a normal form, which is the value itself, or the
wildcard with one star on each side, and that form is what is written for its predicate. Two values
are read alike exactly if they have the same normal form.

* `normalForm` — a wildcard with one star on each side, and any other value as it is;
* `normalForm_eq_iff` — the normal form forgets nothing but stars;
* `Predicate.comparison_parse_eq_contains_iff` — the values that search are the wildcards;
* `Predicate.raw_parse` — what is written for a value is its normal form;
* `Predicate.parse_has_normal_form` — a term is read back from what is written for it, and two
  values are read alike exactly if they are equal or wildcards that search for the same.
-/

namespace Taskboard.Query

/-- A wildcard with one star on each side, and any other value as it is. -/
def normalForm (value : String) : String :=
  if isWildcard value then "*" ++ innerText value ++ "*" else value

/-- What stands behind the first colon of a text. -/
def afterColon? (text : String) : Option String :=
  match text.toList.dropWhile fun c => c != ':' with
  | [] => none
  | _ :: rest => some (String.ofList rest)

/-! ## Normal forms -/

theorem isWildcard_normalForm (value : String) :
    isWildcard (normalForm value) = isWildcard value := by
  unfold normalForm
  split
  · rename_i hWildcard
    rw [isWildcard_enclosed, hWildcard]
  · rfl

theorem enclosed_inj {s t : String} : "*" ++ s ++ "*" = "*" ++ t ++ "*" ↔ s = t := by
  simp [← String.toList_inj]

/-- **The normal form forgets nothing but stars.** -/
theorem normalForm_eq_iff {v w : String} :
    normalForm v = normalForm w ↔
      v = w ∨ isWildcard v = true ∧ isWildcard w = true ∧ innerText v = innerText w := by
  constructor
  · intro h
    -- the normal form of a wildcard is one, so no other value has it
    have hSame : isWildcard v = isWildcard w := by
      rw [← isWildcard_normalForm v, h, isWildcard_normalForm]
    by_cases hw : isWildcard w = true
    · have hv : isWildcard v = true := hSame.trans hw
      rw [normalForm, normalForm, if_pos hv, if_pos hw, enclosed_inj] at h
      exact Or.inr ⟨hv, hw, h⟩
    · rw [normalForm, normalForm, hSame, if_neg hw, if_neg hw] at h
      exact Or.inl h
  · rintro (rfl | ⟨hv, hw, hInner⟩)
    · rfl
    · rw [normalForm, normalForm, if_pos hv, if_pos hw, hInner]

/-! ## Reading and writing -/

namespace Predicate

/-- **The values that search are the wildcards.** -/
theorem comparison_parse_eq_contains_iff (field value : String) :
    (parse field value).comparison = .contains ↔ isWildcard value = true := by
  constructor
  · intro h
    rcases raw_parse_cases field value with hSame | hWildcard
    · -- what is written for a search has stars on both sides
      rw [← hSame, raw, h]
      exact isWildcard_enclosed _
    · exact hWildcard
  · intro h
    rw [parse_of_isWildcard field h]

/-- **What is written for a value is its normal form.** -/
theorem raw_parse (field value : String) : (parse field value).raw = normalForm value := by
  unfold normalForm
  by_cases hWildcard : isWildcard value = true
  · rw [if_pos hWildcard, parse_of_isWildcard field hWildcard]
    rfl
  · rw [if_neg hWildcard]
    exact (raw_parse_cases field value).resolve_right hWildcard

/-- Values are read alike exactly if they have the same normal form. -/
theorem parse_eq_parse_iff {field v w : String} :
    parse field v = parse field w ↔ normalForm v = normalForm w := by
  constructor
  · intro h
    rw [← raw_parse field v, h, raw_parse]
  · intro h
    calc parse field v = parse field (normalForm v) := by rw [← raw_parse field, parse_raw_parse]
      _ = parse field (normalForm w) := by rw [h]
      _ = parse field w := by rw [← raw_parse field, parse_raw_parse]

/-- The first colon of a term is the one behind its field, whatever the value holds. -/
theorem afterColon?_render {p : Predicate} (hField : ':' ∉ p.field.toList) :
    afterColon? p.render = some p.raw := by
  have hText : p.render.toList = p.field.toList ++ ':' :: p.raw.toList := by simp [render]
  have hPass : ∀ c ∈ p.field.toList, (c != ':') = true := by
    intro c hc
    rw [bne_iff_ne]
    rintro rfl
    exact hField hc
  rw [afterColon?, hText, List.dropWhile_append_of_pos hPass]
  simp

/--
**Predicates have a normal form that keeps what they say.** A term whose field has no colon is read
back from what stands behind the first colon of what is written for it. Two values are read alike
exactly if they are equal, or are wildcards, which are the values that search, with the same text
between their stars.
-/
theorem parse_has_normal_form (field : String) :
    (':' ∉ field.toList → ∀ value,
      (afterColon? (parse field value).render).map (parse field) = some (parse field value)) ∧
    (∀ value, (parse field value).comparison = .contains ↔ isWildcard value = true) ∧
    ∀ v w, parse field v = parse field w ↔
      v = w ∨ isWildcard v = true ∧ isWildcard w = true ∧ innerText v = innerText w := by
  refine ⟨fun hField value => ?_, comparison_parse_eq_contains_iff field, fun v w => ?_⟩
  · have hBehind : afterColon? (parse field value).render = some (parse field value).raw :=
      afterColon?_render hField
    rw [hBehind, Option.map_some, parse_raw_parse]
  · rw [parse_eq_parse_iff, normalForm_eq_iff]

/-- A bound whose operand has a colon and a star, and a range that a star turns into a wildcard. -/
theorem parse_of_range_with_star :
    ':' ∉ "title".toList ∧
      (afterColon? (parse "title" ">=a:b*").render).map (parse "title") =
        some (parse "title" ">=a:b*") ∧
      parse "title" "1-2*" = parse "title" "**1-2" ∧ parse "title" "1-2*" ≠ parse "title" "1-2" := by
  have hField : ':' ∉ "title".toList := by decide
  have hForm := parse_has_normal_form "title"
  exact ⟨hField, hForm.1 hField ">=a:b*",
    (hForm.2.2 "1-2*" "**1-2").mpr (.inr ⟨by decide, by decide, by decide⟩),
    fun h => absurd ((hForm.2.2 "1-2*" "1-2").mp h) (by decide)⟩

end Predicate

end Taskboard.Query
