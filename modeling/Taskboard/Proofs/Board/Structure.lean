import Mathlib
import Taskboard.Board.Fingerprint

/-!
# Taskboard — what a fingerprint tells about a board

A fingerprint is a text without escapes: ids stand in it as they are, separators and digits
included. It can still be read in one way only. Every id is cut off by its length, every list ends
at a character that none of its members begins with, so two boards with one fingerprint agree in
all that the fingerprint writes down.

The argument is about **self-delimiting** codes (`SelfDelimiting`): codes whose words can be told
from what follows them, as long as what follows begins with one of some characters. Joining the
words of such a code by a separator gives such a code again (`selfDelimiting_joined`), which is
used once for the links of an item and once for the items of a board.

* `WorkItem.SameStructure` — items that agree in id, priority and, up to order, links;
* `selfDelimiting_framed`, `selfDelimiting_outline` — ids and items can be cut off;
* `fingerprint_eq_iff` — equal fingerprints are equal structures, item by item.
-/

namespace Taskboard

/-! ## Structure -/

/-- Two items that agree in id and priority, and in their links up to order. -/
structure WorkItem.SameStructure (a b : WorkItem) : Prop where
  id       : a.id = b.id
  priority : a.priority = b.priority
  blockers : a.blockers.Perm b.blockers
  blocked  : a.blockedItems.Perm b.blockedItems

/-- Sorted ids are in ascending order. -/
theorem pairwise_sortIds (xs : List String) : (sortIds xs).Pairwise (· ≤ ·) := by
  have hTrans : ∀ a b c : String, decide (a ≤ b) = true → decide (b ≤ c) = true →
      decide (a ≤ c) = true := by
    intro a b c hab hbc
    rw [decide_eq_true_eq] at *
    exact String.le_trans hab hbc
  have hTotal : ∀ a b : String, (decide (a ≤ b) || decide (b ≤ a)) = true := by
    intro a b
    rw [Bool.or_eq_true, decide_eq_true_eq, decide_eq_true_eq]
    exact String.le_total a b
  exact (List.pairwise_mergeSort hTrans hTotal xs).imp of_decide_eq_true

/-- Sorting forgets the order of ids and nothing else. -/
theorem sortIds_eq_iff {xs ys : List String} : sortIds xs = sortIds ys ↔ xs.Perm ys := by
  constructor
  · intro h
    have hx : (sortIds xs).Perm xs := List.mergeSort_perm _ _
    have hy : (sortIds ys).Perm ys := List.mergeSort_perm _ _
    rw [h] at hx
    exact hx.symm.trans hy
  · intro h
    have hPerm : (sortIds xs).Perm (sortIds ys) :=
      (List.mergeSort_perm _ _).trans (h.trans (List.mergeSort_perm _ _).symm)
    refine hPerm.eq_of_pairwise ?_ (pairwise_sortIds xs) (pairwise_sortIds ys)
    intro a b _ _ hab hba
    exact String.le_antisymm hab hba

theorem Priority.ordinal_injective : Function.Injective Priority.ordinal := by
  intro p q h
  cases p <;> cases q <;> first | rfl | cases h

/-! ## Self-delimiting codes -/

section Codes

variable {α : Type} {same : α → α → Prop} {code : α → List Char} {inner outer : Char → Prop}
  {sep : Char}

/-- A text that is empty or begins with a character of some kind. -/
def BeginsWith (stop : Char → Prop) (rest : List Char) : Prop :=
  ∀ c ∈ rest.head?, stop c

/-- A code whose words can be told from any rest that begins with a `stop` character. Words that
cannot be told apart stand for values that are the same. -/
def SelfDelimiting (same : α → α → Prop) (code : α → List Char) (stop : Char → Prop) : Prop :=
  ∀ a b r s, BeginsWith stop r → BeginsWith stop s → code a ++ r = code b ++ s → same a b ∧ r = s

/-- Words joined by a separator. -/
def joined (sep : Char) (code : α → List Char) (xs : List α) : List Char :=
  [sep].intercalate (xs.map code)

theorem joined_cons (a : α) (xs : List α) :
    joined sep code (a :: xs) = code a ++ xs.flatMap fun x => sep :: code x := by
  induction xs generalizing a with
  | nil => simp [joined]
  | cons b rest ih =>
    have hStep : joined sep code (a :: b :: rest) =
        code a ++ [sep] ++ joined sep code (b :: rest) := by
      rw [joined, List.map_cons, List.map_cons, List.intercalate_cons_cons, joined, List.map_cons]
    rw [hStep, ih b]
    simp

theorem beginsWith_flatMap (hSep : inner sep) (hOuter : ∀ c, outer c → inner c) (xs : List α)
    {r : List Char} (hr : BeginsWith outer r) :
    BeginsWith inner ((xs.flatMap fun x => sep :: code x) ++ r) := by
  intro c hc
  cases xs with
  | nil => exact hOuter c (hr c hc)
  | cons x rest =>
    have hEq : sep = c := by simpa using hc
    exact hEq ▸ hSep

/-- Words that each follow a separator end where no separator comes. -/
theorem selfDelimiting_flatMap (hCode : SelfDelimiting same code inner) (hSep : inner sep)
    (hOuter : ∀ c, outer c → inner c) (hEnd : ¬ outer sep) :
    SelfDelimiting (List.Forall₂ same) (fun xs => xs.flatMap fun x => sep :: code x) outer := by
  -- no separator stands at the beginning of a rest
  have hNone : ∀ (x : α) (xs : List α) (r s : List Char), BeginsWith outer r →
      r ≠ ((x :: xs).flatMap fun x => sep :: code x) ++ s := by
    intro x xs r s hr h
    refine hEnd (hr sep ?_)
    rw [h]
    rfl
  intro xs
  induction xs with
  | nil =>
    intro ys r s hr hs h
    cases ys with
    | nil => exact ⟨List.Forall₂.nil, h⟩
    | cons y ys => exact absurd h (hNone y ys r s hr)
  | cons x xs ih =>
    intro ys r s hr hs h
    cases ys with
    | nil => exact absurd h.symm (hNone x xs s r hs)
    | cons y ys =>
      simp only [List.flatMap_cons, List.cons_append, List.append_assoc, List.cons.injEq,
        true_and] at h
      -- the first words are told from all that follows, which begins with a separator or ends
      obtain ⟨hxy, hRest⟩ := hCode x y _ _ (beginsWith_flatMap hSep hOuter xs hr)
        (beginsWith_flatMap hSep hOuter ys hs) h
      obtain ⟨hTail, hEq⟩ := ih ys r s hr hs hRest
      exact ⟨List.Forall₂.cons hxy hTail, hEq⟩

/-- Joined words end where neither a separator nor the beginning of a word comes. -/
theorem selfDelimiting_joined (hCode : SelfDelimiting same code inner) (hSep : inner sep)
    (hOuter : ∀ c, outer c → inner c) (hEnd : ¬ outer sep)
    (hHead : ∀ a, ∃ c rest, code a = c :: rest ∧ ¬ outer c) :
    SelfDelimiting (List.Forall₂ same) (joined sep code) outer := by
  -- no word stands at the beginning of a rest
  have hNone : ∀ (a : α) (xs : List α) (r s : List Char), BeginsWith outer r →
      r ≠ joined sep code (a :: xs) ++ s := by
    intro a xs r s hr h
    obtain ⟨c, rest, hWord, hc⟩ := hHead a
    refine hc (hr c ?_)
    rw [h, joined_cons, hWord]
    rfl
  intro xs ys r s hr hs h
  match xs, ys with
  | [], [] => exact ⟨List.Forall₂.nil, h⟩
  | [], y :: ys => exact absurd h (hNone y ys r s hr)
  | x :: xs, [] => exact absurd h.symm (hNone x xs s r hs)
  | x :: xs, y :: ys =>
    -- with one more separator in front, every word follows a separator
    refine selfDelimiting_flatMap hCode hSep hOuter hEnd (x :: xs) (y :: ys) r s hr hs ?_
    simp only [List.flatMap_cons, List.cons_append, ← joined_cons, h]

end Codes

/-! ## Numbers and ids -/

theorem isDigit_of_mem_toString {c : Char} {n : Nat} (hc : c ∈ (toString n).toList) :
    c.isDigit = true := by
  rw [Nat.toString_eq_repr, Nat.toList_repr] at hc
  exact Nat.isDigit_of_mem_toDigits (by decide) (by decide) hc

/-- A text is cut in one way only in front of the first of some character. -/
theorem append_cons_inj {c : Char} {r s : List Char} :
    ∀ {u v : List Char}, c ∉ u → c ∉ v → u ++ c :: r = v ++ c :: s → u = v ∧ r = s
  | [], [], _, _, h => ⟨rfl, by simpa using h⟩
  | [], y :: v, _, hv, h => by
    rw [List.nil_append, List.cons_append, List.cons.injEq] at h
    exact absurd (h.1 ▸ List.mem_cons_self) hv
  | x :: u, [], hu, _, h => by
    rw [List.nil_append, List.cons_append, List.cons.injEq] at h
    exact absurd (h.1 ▸ List.mem_cons_self) hu
  | x :: u, y :: v, hu, hv, h => by
    rw [List.cons_append, List.cons_append, List.cons.injEq] at h
    obtain ⟨hHead, hTail⟩ := append_cons_inj (fun hm => hu (List.mem_cons_of_mem _ hm))
      (fun hm => hv (List.mem_cons_of_mem _ hm)) h.2
    exact ⟨by rw [h.1, hHead], hTail⟩

/-- A number in front of what is no digit can be read off. -/
theorem toString_append_inj {c : Char} (hc : c.isDigit = false) {m n : Nat} {r s : List Char}
    (h : (toString m).toList ++ c :: r = (toString n).toList ++ c :: s) : m = n ∧ r = s := by
  have hNone : ∀ k : Nat, c ∉ (toString k).toList := by
    intro k hMem
    rw [isDigit_of_mem_toString hMem] at hc
    cases hc
  obtain ⟨hNum, hRest⟩ := append_cons_inj (hNone m) (hNone n) h
  rw [Nat.toString_eq_repr, Nat.toString_eq_repr, String.toList_inj] at hNum
  exact ⟨Nat.repr_inj.mp hNum, hRest⟩

/-- Of two ids with as many bytes, both at the beginning of one text, none is longer. -/
theorem toList_append_inj {a b : String} (hSize : a.utf8ByteSize = b.utf8ByteSize)
    {r s : List Char} (h : a.toList ++ r = b.toList ++ s) : a = b ∧ r = s := by
  -- what one text has beyond the other takes no bytes
  have hEmpty : ∀ {x y : String} {t : List Char}, x.utf8ByteSize = y.utf8ByteSize →
      y.toList = x.toList ++ t → t = [] := by
    intro x y t hxy ht
    have hAppend : y = x ++ String.ofList t := by
      rw [← String.toList_inj, ht, String.toList_append, String.toList_ofList]
    rw [hAppend, String.utf8ByteSize_append] at hxy
    have hZero : (String.ofList t).utf8ByteSize = 0 := by omega
    rw [String.utf8ByteSize_eq_zero_iff] at hZero
    simpa using congrArg String.toList hZero
  rcases List.append_eq_append_iff.mp h with ⟨t, hb, hr⟩ | ⟨t, ha, hs⟩
  · have ht := hEmpty hSize hb
    subst ht
    exact ⟨String.toList_inj.mp (by simpa using hb.symm), by simpa using hr⟩
  · have ht := hEmpty hSize.symm ha
    subst ht
    exact ⟨String.toList_inj.mp (by simpa using ha), by simpa using hs.symm⟩

theorem toList_framed (id : String) :
    (framed id).toList = (toString id.utf8ByteSize).toList ++ ':' :: id.toList := by
  simp [framed]

/-- **A framed id can be told from whatever follows it.** -/
theorem selfDelimiting_framed : SelfDelimiting Eq (fun id => (framed id).toList) fun _ => True := by
  intro a b r s _ _ h
  simp only [toList_framed, List.append_assoc, List.cons_append] at h
  obtain ⟨hSize, hText⟩ := toString_append_inj (by decide) h
  exact toList_append_inj hSize hText

theorem framed_begins_digit (id : String) :
    ∃ c rest, (framed id).toList = c :: rest ∧ c.isDigit = true := by
  rw [toList_framed]
  cases hDigits : (toString id.utf8ByteSize).toList with
  | nil =>
    rw [Nat.toString_eq_repr, Nat.toList_repr] at hDigits
    exact absurd hDigits Nat.toDigits_ne_nil
  | cons c rest =>
    have hMem : c ∈ (toString id.utf8ByteSize).toList := hDigits ▸ List.mem_cons_self
    exact ⟨c, rest ++ ':' :: id.toList, rfl, isDigit_of_mem_toString hMem⟩

/-! ## Items and boards -/

/-- What may stand behind a list of links. -/
def EndsLinks (c : Char) : Prop :=
  c = '|' ∨ c = ';'

theorem toList_outlineLinks (ids : List String) :
    (outlineLinks ids).toList = joined ',' (fun id => (framed id).toList) (sortIds ids) := by
  rw [outlineLinks, String.toList_intercalate, List.map_map]
  rfl

theorem selfDelimiting_outlineLinks :
    SelfDelimiting List.Perm (fun ids => (outlineLinks ids).toList) EndsLinks := by
  -- a list ends in front of a bar or a semicolon, and no id begins with one
  have hHead : ∀ id, ∃ c rest, (framed id).toList = c :: rest ∧ ¬ EndsLinks c := by
    intro id
    obtain ⟨c, rest, hWord, hDigit⟩ := framed_begins_digit id
    refine ⟨c, rest, hWord, ?_⟩
    rintro (rfl | rfl) <;> cases hDigit
  have hComma : ¬ EndsLinks ',' := by
    unfold EndsLinks
    decide
  have hJoined : SelfDelimiting (List.Forall₂ Eq) (joined ',' fun id => (framed id).toList)
      EndsLinks :=
    selfDelimiting_joined selfDelimiting_framed trivial (fun _ _ => trivial) hComma hHead
  intro a b r s hr hs h
  simp only [toList_outlineLinks] at h
  obtain ⟨hIds, hRest⟩ := hJoined _ _ r s hr hs h
  -- the sorted lists agree id by id, so the lists themselves agree up to order
  rw [List.forall₂_eq_eq_eq] at hIds
  exact ⟨sortIds_eq_iff.mp hIds, hRest⟩

theorem toList_outline (item : WorkItem) :
    item.outline.toList = (framed item.id).toList ++ '|' ::
      ((toString item.priority.ordinal).toList ++ '|' ::
        ((outlineLinks item.blockers).toList ++ '|' ::
          (outlineLinks item.blockedItems).toList)) := by
  rw [WorkItem.outline, String.toList_intercalate]
  simp

/-- **An item can be told from the rest of its board.** -/
theorem selfDelimiting_outline :
    SelfDelimiting WorkItem.SameStructure (fun item => item.outline.toList) (· = ';') := by
  intro a b r s hr hs h
  simp only [toList_outline, List.append_assoc, List.cons_append] at h
  -- field by field, each cut off by its code
  obtain ⟨hId, h⟩ := selfDelimiting_framed a.id b.id _ _ (fun _ _ => trivial)
    (fun _ _ => trivial) h
  rw [List.cons.injEq] at h
  obtain ⟨hOrdinal, h⟩ := toString_append_inj (by decide) h.2
  have hBar : ∀ t : List Char, BeginsWith EndsLinks ('|' :: t) := by
    intro t c hc
    exact Or.inl (by simpa using hc.symm)
  have hRest : ∀ {t : List Char}, BeginsWith (· = ';') t → BeginsWith EndsLinks t :=
    fun ht c hc => Or.inr (ht c hc)
  obtain ⟨hBlockers, h⟩ := selfDelimiting_outlineLinks _ _ _ _ (hBar _) (hBar _) h
  rw [List.cons.injEq] at h
  obtain ⟨hBlocked, h⟩ := selfDelimiting_outlineLinks _ _ _ _ (hRest hr) (hRest hs) h.2
  exact ⟨⟨hId, Priority.ordinal_injective hOrdinal, hBlockers, hBlocked⟩, h⟩

theorem WorkItem.SameStructure.outline_eq {a b : WorkItem} (h : a.SameStructure b) :
    a.outline = b.outline := by
  have hBlockers : outlineLinks a.blockers = outlineLinks b.blockers := by
    rw [outlineLinks, outlineLinks, sortIds_eq_iff.mpr h.blockers]
  have hBlocked : outlineLinks a.blockedItems = outlineLinks b.blockedItems := by
    rw [outlineLinks, outlineLinks, sortIds_eq_iff.mpr h.blocked]
  rw [WorkItem.outline, WorkItem.outline, h.id, h.priority, hBlockers, hBlocked]

theorem toList_fingerprint (board : Board) :
    (fingerprint board).toList = joined ';' (fun item => item.outline.toList) board := by
  rw [fingerprint, String.toList_intercalate, List.map_map]
  rfl

theorem sameStructure_of_fingerprint_eq {xs ys : Board} (h : fingerprint xs = fingerprint ys) :
    List.Forall₂ WorkItem.SameStructure xs ys := by
  -- a board ends where the text does: nothing at all may stand behind it
  have hHead : ∀ item : WorkItem, ∃ c rest, item.outline.toList = c :: rest ∧ ¬ False := by
    intro item
    obtain ⟨c, rest, hWord, -⟩ := framed_begins_digit item.id
    rw [toList_outline, hWord]
    exact ⟨c, _, rfl, id⟩
  have hJoined : SelfDelimiting (List.Forall₂ WorkItem.SameStructure)
      (joined ';' fun item => item.outline.toList) fun _ => False :=
    selfDelimiting_joined selfDelimiting_outline rfl (fun _ h => h.elim) id hHead
  have hNothing : BeginsWith (fun _ => False) [] := by
    intro c hc
    cases hc
  refine (hJoined xs ys [] [] hNothing hNothing ?_).1
  rw [List.append_nil, List.append_nil, ← toList_fingerprint, ← toList_fingerprint, h]

theorem fingerprint_eq_of_sameStructure {xs ys : Board}
    (h : List.Forall₂ WorkItem.SameStructure xs ys) : fingerprint xs = fingerprint ys := by
  have hOutlines : xs.map WorkItem.outline = ys.map WorkItem.outline := by
    induction h with
    | nil => rfl
    | cons hItem _ ih => rw [List.map_cons, List.map_cons, hItem.outline_eq, ih]
  rw [fingerprint, fingerprint, hOutlines]

/--
**The fingerprint is injective up to the order of links.** Two boards have the same fingerprint
exactly if they list as many items, item by item with the same id, the same priority and the same
links on either side, whatever the order in which links are given. Ids may be any texts.
-/
theorem fingerprint_eq_iff (xs ys : Board) :
    fingerprint xs = fingerprint ys ↔ List.Forall₂ WorkItem.SameStructure xs ys :=
  ⟨sameStructure_of_fingerprint_eq, fingerprint_eq_of_sameStructure⟩

end Taskboard
