import Taskboard.Proofs.Decimal.Reading
import Taskboard.Proofs.Query.Correspondence
import Taskboard.Proofs.Query.Lexing
import Taskboard.Proofs.Query.Value
import Taskboard.Query.Matching

/-!
# Taskboard — queries in any case of letters

Each part of a query folds case in a way of its own: operators and the current user letter by letter
in ASCII, names of fields and texts by the full lower-case form, numbers by the few letters that they
may have. None of them tells the case of a letter of ASCII, so two queries that differ in nothing
else are the same query.

* `Predicate.SameIgnoringCase` — predicates that differ in the case of their operands only;
* `Predicate.holds_folded` — an item satisfies a predicate in any case of letters;
* `Kind.ofWord_alike`, `scan_alike` — words, and texts, have tokens that correspond;
* `parse_ignores_case` — queries that differ in the case of letters only.
-/

namespace Taskboard.Query

open Grammar Text

/-! ## Values of terms -/

section Values

theorem isDigits_map_toLower (cs : List Char) :
    isDigits (cs.map Char.toLower) = isDigits cs := by
  unfold isDigits
  rw [List.isEmpty_map, Decimal.all_isDigit_map_toLower]

theorem map_toLower_of_isDigits {cs : List Char} (h : isDigits cs = true) :
    cs.map Char.toLower = cs := by
  rw [isDigits, Bool.and_eq_true, List.all_eq_true] at h
  exact Decimal.map_toLower_of_digits h.2

/-- A range has no letters. -/
theorem splitRange?_map_toLower (cs : List Char) :
    splitRange? (cs.map Char.toLower) = splitRange? cs := by
  have hDash : ∀ c : Char, (c.toLower != '-') = (c != '-') :=
    apply_toLower (f := fun c => c != '-') (by decide)
  unfold splitRange?
  rw [dropWhile_map_of_same hDash, takeWhile_map_of_same hDash]
  cases cs.dropWhile fun c => c != '-' with
  | nil => rfl
  | cons dash upper =>
    -- the ends of a range are digits, and anything else is no range in either form
    simp only [List.map_cons, isDigits_map_toLower]
    by_cases hBoth : (isDigits (cs.takeWhile fun c => c != '-') && isDigits upper) = true
    · obtain ⟨hLower, hUpper⟩ := Bool.and_eq_true_iff.mp hBoth
      rw [map_toLower_of_isDigits hLower, map_toLower_of_isDigits hUpper]
    · rw [if_neg hBoth, if_neg hBoth]

theorem isStarred_map_toLower (cs : List Char) :
    isStarred (cs.map Char.toLower) = isStarred cs := by
  have hStar : ∀ c : Option Char, (c.map Char.toLower == some '*') = (c == some '*') := by
    intro c
    cases c with
    | none => rfl
    | some c => exact apply_toLower (f := fun c => some c == some '*') (by decide) c
  unfold isStarred
  rw [List.head?_map, List.getLast?_map, hStar, hStar]

theorem splitUnsigned_map_toLower (cs : List Char) :
    Comparison.splitUnsigned (cs.map Char.toLower) =
      ((Comparison.splitUnsigned cs).1, (Comparison.splitUnsigned cs).2.map Char.toLower) := by
  unfold Comparison.splitUnsigned
  rw [splitRange?_map_toLower]
  split
  · rename_i lower upper hRange
    rw [map_toLower_of_isDigits (isDigits_of_splitRange? hRange).1]
  · rw [isStarred_map_toLower]
    split
    · have hStar : ∀ c : Char, (c.toLower == '*') = (c == '*') :=
        apply_toLower (f := fun c => c == '*') (by decide)
      rw [stripEnds_map hStar]
    · rfl

/-- A text begins with a sign in any case of its letters, or in none. -/
theorem ne_cons_of_map_toLower {sign : Char} (hSign : ∀ c : Char, c.toLower = sign ↔ c = sign)
    {cs : List Char} (h : ∀ rest, cs = sign :: rest → False) (rest : List Char) :
    cs.map Char.toLower = sign :: rest → False := by
  intro hMap
  obtain ⟨c, rest', rfl, hFirst, -⟩ := List.map_eq_cons_iff.mp hMap
  rw [hSign] at hFirst
  exact h rest' (by rw [hFirst])

theorem split_map_toLower (cs : List Char) :
    Comparison.split (cs.map Char.toLower) =
      ((Comparison.split cs).1, (Comparison.split cs).2.map Char.toLower) := by
  have hEq : ∀ c : Char, c.toLower = '=' ↔ c = '=' := toLower_eq_iff (by decide)
  -- a sign in front has no case, so both forms have it or neither has
  fun_cases Comparison.split cs with
  | case1 rest => rfl
  | case2 rest => rfl
  | case3 rest => rfl
  | case4 rest hPlain => exact Comparison.split.eq_4 _ (ne_cons_of_map_toLower hEq hPlain)
  | case5 rest hPlain => exact Comparison.split.eq_5 _ (ne_cons_of_map_toLower hEq hPlain)
  | case6 cs hNot hGreaterEq hLessEq hGreater hLess =>
    have hNot' := ne_cons_of_map_toLower (toLower_eq_iff (by decide)) hNot
    have hGreater' := ne_cons_of_map_toLower (toLower_eq_iff (by decide)) hGreater
    have hLess' := ne_cons_of_map_toLower (toLower_eq_iff (by decide)) hLess
    rw [Comparison.split.eq_6 _ hNot' (fun _ => hGreater' _) (fun _ => hLess' _) hGreater' hLess']
    exact splitUnsigned_map_toLower cs

end Values

/-! ## Predicates -/

/-- Predicates of one field and comparison whose operands differ in the case of letters only. -/
structure Predicate.SameIgnoringCase (p p' : Predicate) : Prop where
  field      : p.field = p'.field
  comparison : p.comparison = p'.comparison
  operand    : sameIgnoringCase p.operand p'.operand = true

/-- A predicate with the letters of its operand in lower case. -/
def Predicate.folded (p : Predicate) : Predicate :=
  { p with operand := p.operand.toLower }

theorem Predicate.SameIgnoringCase.folded_eq {p p' : Predicate} (h : p.SameIgnoringCase p') :
    p.folded = p'.folded := by
  obtain ⟨field, comparison, operand⟩ := p
  obtain ⟨rfl, rfl, hOperand⟩ := h
  show Predicate.mk _ _ operand.toLower = Predicate.mk _ _ p'.operand.toLower
  rw [sameIgnoringCase_iff.mp hOperand]

theorem Predicate.parse_sameIgnoringCase (name : String) {value value' : String}
    (h : value.toLower = value'.toLower) :
    (Predicate.parse name value).SameIgnoringCase (Predicate.parse name value') := by
  have hChars : value.toList.map Char.toLower = value'.toList.map Char.toLower := by
    rw [← toList_toLower, ← toList_toLower, h]
  -- a value and its lower-case form carry the same comparison, and operands to match
  have hSplit := split_map_toLower value.toList
  rw [hChars, split_map_toLower, Prod.mk.injEq] at hSplit
  refine ⟨rfl, hSplit.1.symm, sameIgnoringCase_iff.mpr ?_⟩
  show (String.ofList _).toLower = (String.ofList _).toLower
  rw [toLower_ofList, toLower_ofList, hSplit.2]

/-! ## Matching -/

theorem textNumber?_toLower (s : String) : textNumber? s.toLower = textNumber? s := by
  unfold textNumber?
  rw [trim_toLower, Decimal.readFloat?_toLower]

theorem operandNumber?_toLower (field s : String) :
    operandNumber? field s.toLower = operandNumber? field s := by
  have hLevel : Priority.ofText? s.toLower = Priority.ofText? s := by
    unfold Priority.ofText?
    rw [trim_toLower, string_toLower_toLower]
  unfold operandNumber?
  rw [hLevel, textNumber?_toLower]

theorem operandBool?_toLower (s : String) : operandBool? s.toLower = operandBool? s := by
  unfold operandBool?
  rw [trim_toLower, string_toLower_toLower]

theorem sameText_toLower (a s : String) : sameText a s.toLower = sameText a s := by
  unfold sameText
  rw [lowercase_toLower]

theorem occursInText_toLower (s text : String) :
    occursInText s.toLower text = occursInText s text := by
  unfold occursInText
  rw [lowercase_toLower]

namespace FieldValue

variable (v : FieldValue) (field s : String)

theorem equals_toLower : v.equals field s.toLower = v.equals field s := by
  cases v with
  | text t => exact sameText_toLower t s
  | number x => rw [equals, equals, operandNumber?_toLower]
  | bool b => rw [equals, equals, operandBool?_toLower]
  | list items => simp only [equals, sameText_toLower]
  | missing => rfl

theorem contains_toLower : v.contains s.toLower = v.contains s := by
  cases v with
  | text t => exact occursInText_toLower s t
  | number x => rw [contains, contains, lowercase_toLower]
  | bool b => rfl
  | list items => simp only [contains, occursInText_toLower]
  | missing => rfl

theorem relates_toLower (relation : Float → Float → Bool) :
    v.relates relation field s.toLower = v.relates relation field s := by
  unfold relates
  rw [operandNumber?_toLower]

theorem within_toLower (upper : String) :
    v.within field s.toLower upper = v.within field s upper := by
  unfold within
  rw [operandNumber?_toLower]

theorem satisfies_folded (p : Predicate) : v.satisfies p.folded = v.satisfies p := by
  obtain ⟨field, comparison, operand⟩ := p
  cases comparison with
  | equal => exact v.equals_toLower field operand
  | notEqual => exact congrArg not (v.equals_toLower field operand)
  | contains => exact v.contains_toLower operand
  | greater => exact v.relates_toLower field operand _
  | greaterOrEqual => exact v.relates_toLower field operand _
  | less => exact v.relates_toLower field operand _
  | lessOrEqual => exact v.relates_toLower field operand _
  | range upper => exact v.within_toLower field operand upper

end FieldValue

theorem Predicate.asksForUser_folded (p : Predicate) : p.folded.asksForUser = p.asksForUser := by
  show (p.field == "assignee" && (p.operand.toLower.toLower == currentUser.toLower)) =
    (p.field == "assignee" && (p.operand.toLower == currentUser.toLower))
  rw [string_toLower_toLower]

/-- **An item satisfies a predicate in any case of letters.** -/
theorem Predicate.holds_folded (p : Predicate) (item : WorkItem) :
    p.folded.holds item = p.holds item := by
  have hField : p.folded.field = p.field := rfl
  have hComparison : p.folded.comparison = p.comparison := rfl
  have hOperand : p.folded.operand = p.operand.toLower := rfl
  unfold Predicate.holds
  rw [p.asksForUser_folded, hField, hComparison, hOperand, FieldValue.contains_toLower,
    FieldValue.satisfies_folded]

theorem Predicate.SameIgnoringCase.holds_eq {p p' : Predicate} (h : p.SameIgnoringCase p')
    (item : WorkItem) : p.holds item = p'.holds item := by
  rw [← p.holds_folded, h.folded_eq, p'.holds_folded]

/-- Trees hold alike if their predicates do. -/
theorem Expr.Alike.holds_eq {P : Predicate → Predicate → Prop} {item : WorkItem}
    (hP : ∀ {p p'}, P p p' → p.holds item = p'.holds item) {e e' : Expr} (h : e.Alike P e') :
    e.holds item = e'.holds item := by
  induction h with
  | leaf hPredicate => exact hP hPredicate
  | conj _ _ ihl ihr => rw [Expr.holds, Expr.holds, ihl, ihr]
  | disj _ _ ihl ihr => rw [Expr.holds, Expr.holds, ihl, ihr]
  | neg _ ih => rw [Expr.holds, Expr.holds, ih]

/-! ## Tokens -/

section Tokens

variable {w w' : List Char}

theorem ofTerm_alike (h : w.map Char.toLower = w'.map Char.toLower) :
    (Kind.ofTerm w).Alike Predicate.SameIgnoringCase (Kind.ofTerm w') := by
  have hColon : ∀ c : Char, (c.toLower != ':') = (c != ':') :=
    apply_toLower (f := fun c => c != ':') (by decide)
  have hText : ∀ {v v' : List Char}, v.map Char.toLower = v'.map Char.toLower →
      (String.ofList v).toLower = (String.ofList v').toLower := by
    intro v v' hSame
    rw [toLower_ofList, toLower_ofList, hSame]
  -- both words split at their first colon, or neither has one
  have hValue := congrArg (List.dropWhile fun c => c != ':') h
  have hName := congrArg (List.takeWhile fun c => c != ':') h
  rw [dropWhile_map_of_same hColon, dropWhile_map_of_same hColon] at hValue
  rw [takeWhile_map_of_same hColon, takeWhile_map_of_same hColon] at hName
  unfold Kind.ofTerm
  cases hDrop : w.dropWhile fun c => c != ':' with
  | nil =>
    rw [hDrop, List.map_nil, eq_comm, List.map_eq_nil_iff] at hValue
    rw [hValue]
    exact .field (Predicate.parse_sameIgnoringCase textField (hText h))
  | cons colon value =>
    rw [hDrop, List.map_cons, eq_comm, List.map_eq_cons_iff] at hValue
    obtain ⟨colon', value', hDrop', -, hRest⟩ := hValue
    have hLower : lowercase (String.ofList (w.takeWhile fun c => c != ':')) =
        lowercase (String.ofList (w'.takeWhile fun c => c != ':')) := by
      rw [← lowercase_toLower, hText hName, lowercase_toLower]
    rw [hDrop']
    simp only [hLower]
    exact .field (Predicate.parse_sameIgnoringCase _ (hText hRest.symm))

theorem Kind.ofWord_alike (h : w.map Char.toLower = w'.map Char.toLower) :
    (Kind.ofWord w).Alike Predicate.SameIgnoringCase (Kind.ofWord w') := by
  have hWord : (String.ofList w).toLower = (String.ofList w').toLower := by
    rw [toLower_ofList, toLower_ofList, h]
  unfold Kind.ofWord
  rw [hWord]
  -- operators are compared with the folded word, which is now the same on both sides
  dsimp only
  split
  · exact .and
  split
  · exact .or
  split
  · exact .not
  · exact ofTerm_alike h

theorem isWordChar_toLower (c : Char) : isWordChar c.toLower = isWordChar c :=
  apply_toLower (by decide) c

theorem all_isWordChar_map_toLower (cs : List Char) :
    (cs.map Char.toLower).all isWordChar = cs.all isWordChar := by
  rw [List.all_map, show isWordChar ∘ Char.toLower = isWordChar from funext isWordChar_toLower]

theorem IsWord.of_map_toLower (hw : IsWord w) (h : w'.map Char.toLower = w.map Char.toLower) :
    IsWord w' := by
  refine ⟨?_, ?_⟩
  · rintro rfl
    rw [List.map_nil, eq_comm, List.map_eq_nil_iff] at h
    exact hw.1 h
  · rw [← all_isWordChar_map_toLower, h, all_isWordChar_map_toLower, hw.2]

theorem Apart.of_map_toLower {cs ds : List Char} (hcs : Apart cs)
    (h : ds.map Char.toLower = cs.map Char.toLower) : Apart ds := by
  cases ds with
  | nil => exact apart_nil
  | cons d ds =>
    rw [List.map_cons, eq_comm, List.map_eq_cons_iff] at h
    obtain ⟨c, cs, rfl, hFirst, -⟩ := h
    rw [apart_cons, ← isWordChar_toLower, ← hFirst, isWordChar_toLower]
    exact apart_cons.mp hcs

/-- **Texts that differ in the case of letters have tokens that correspond**, at the same
positions. -/
theorem scan_alike {cs ds : List Char} (h : cs.map Char.toLower = ds.map Char.toLower)
    (position : Nat) :
    List.Forall₂ (Token.Alike Predicate.SameIgnoringCase Eq) (scan position cs)
      (scan position ds) := by
  induction cs using text_induction generalizing ds position with
  | nil =>
    rw [List.map_nil, eq_comm, List.map_eq_nil_iff] at h
    rw [h, scan_nil]
    exact .cons ⟨.endOfQuery, rfl⟩ .nil
  | blank c cs hc ih =>
    rw [List.map_cons, eq_comm, List.map_eq_cons_iff] at h
    obtain ⟨d, ds, rfl, hFirst, hRest⟩ := h
    have hd : isBlank d = true := by
      rw [← isBlank_toLower, hFirst, isBlank_toLower, hc]
    rw [scan_blank hc, scan_blank hd]
    exact ih hRest.symm _
  | leftParen cs ih =>
    rw [List.map_cons, eq_comm, List.map_eq_cons_iff] at h
    obtain ⟨d, ds, rfl, hFirst, hRest⟩ := h
    have hd : d = '(' := (toLower_eq_iff (by decide) d).mp hFirst
    rw [hd, scan_leftParen, scan_leftParen]
    exact .cons ⟨.leftParen, rfl⟩ (ih hRest.symm _)
  | rightParen cs ih =>
    rw [List.map_cons, eq_comm, List.map_eq_cons_iff] at h
    obtain ⟨d, ds, rfl, hFirst, hRest⟩ := h
    have hd : d = ')' := (toLower_eq_iff (by decide) d).mp hFirst
    rw [hd, scan_rightParen, scan_rightParen]
    exact .cons ⟨.rightParen, rfl⟩ (ih hRest.symm _)
  | word w cs hw hcs ih =>
    rw [List.map_append, eq_comm, List.map_eq_append_iff] at h
    obtain ⟨w', ds, rfl, hWord, hRest⟩ := h
    have hLength : w'.length = w.length := by
      rw [← List.length_map Char.toLower, hWord, List.length_map]
    rw [scan_word hw hcs, scan_word (hw.of_map_toLower hWord) (hcs.of_map_toLower hRest), hLength]
    exact .cons ⟨Kind.ofWord_alike hWord.symm, rfl⟩ (ih hRest.symm _)

end Tokens

/-! ## Queries -/

/--
**Queries that differ in the case of letters only are the same query.** Either both are rejected, at
the same position, or both are empty, or they are read as trees of one shape, whose predicates have
the same fields, comparisons and, but for case, operands; and then every item satisfies both or
neither.
-/
theorem parse_ignores_case (q r : String) (h : sameIgnoringCase q r = true) :
    (∃ err err', Expr.parse q = .error err ∧ Expr.parse r = .error err' ∧
      err.position = err'.position) ∨
    (Expr.parse q = .ok none ∧ Expr.parse r = .ok none) ∨
    ∃ e e', Expr.parse q = .ok (some e) ∧ Expr.parse r = .ok (some e') ∧
      e.Alike Predicate.SameIgnoringCase e' ∧ ∀ item, e.holds item = e'.holds item := by
  have hChars : q.toList.map Char.toLower = r.toList.map Char.toLower := by
    rw [← toList_toLower, ← toList_toLower, sameIgnoringCase_iff.mp h]
  have hRead := ofTokens_alike (scan_alike hChars 0)
  have hq : Expr.ofTokens (scan 0 q.toList) = Expr.parse q := rfl
  have hr : Expr.ofTokens (scan 0 r.toList) = Expr.parse r := rfl
  rw [hq, hr] at hRead
  generalize Expr.parse q = x, Expr.parse r = y at hRead
  cases hRead with
  | @error err err' hPosition => exact Or.inl ⟨err, err', rfl, rfl, hPosition⟩
  | ok hTrees =>
    cases hTrees with
    | none => exact Or.inr (Or.inl ⟨rfl, rfl⟩)
    | @some e e' hTree =>
      refine Or.inr (Or.inr ⟨e, e', rfl, rfl, hTree, fun item => ?_⟩)
      exact hTree.holds_eq fun hPredicate => hPredicate.holds_eq item

/-- Operators, names of fields, a level, the current user and an exponent, each in two ways. -/
theorem same_query_in_capitals :
    let q := "(assignee:@me or priority:<=High) and straße:>1e2"
    let r := "(ASSIGNEE:@ME OR PRIORITY:<=HIGH) AND STRAßE:>1E2"
    let e : Expr := .conj (.disj (.leaf ⟨"assignee", .equal, "@me"⟩)
      (.leaf ⟨"priority", .lessOrEqual, "High"⟩)) (.leaf ⟨"straße", .greater, "1e2"⟩)
    let e' : Expr := .conj (.disj (.leaf ⟨"assignee", .equal, "@ME"⟩)
      (.leaf ⟨"priority", .lessOrEqual, "HIGH"⟩)) (.leaf ⟨"straße", .greater, "1E2"⟩)
    sameIgnoringCase q r = true ∧ Expr.parse q = .ok (some e) ∧ Expr.parse r = .ok (some e') ∧
      ∀ item, e.holds item = e'.holds item := by
  intro q r e e'
  have hSame : sameIgnoringCase q r = true := by
    rw [sameIgnoringCase_iff, ← String.toList_inj, toList_toLower, toList_toLower]
    decide +kernel
  -- the derivation that both texts have, but for the case of its terms
  let d (user level number : String) : Expression :=
    .term (.and (.factor (.paren (.or (.term (.factor (.field "assignee" user)))
      (.factor (.field "priority" level))))) (.field "straße" number))
  have hq : Expr.parse q = .ok (some e) :=
    parse_eq_ok_some_iff.mpr
      ⟨d "@me" "<=High" ">1e2", by decide +kernel, by decide +kernel, by decide⟩
  have hr : Expr.parse r = .ok (some e') :=
    parse_eq_ok_some_iff.mpr
      ⟨d "@ME" "<=HIGH" ">1E2", by decide +kernel, by decide +kernel, by decide⟩
  rcases parse_ignores_case q r hSame with
    ⟨err, -, hError, -⟩ | ⟨hNone, -⟩ | ⟨a, b, ha, hb, -, hHolds⟩
  · rw [hq] at hError
    cases hError
  · rw [hq] at hNone
    cases hNone
  · rw [hq] at ha
    rw [hr] at hb
    cases ha
    cases hb
    exact ⟨hSame, hq, hr, hHolds⟩

end Taskboard.Query
