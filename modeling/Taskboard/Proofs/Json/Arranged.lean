import Mathlib.Data.List.Nodup
import Taskboard.Board.Properties

/-!
# Taskboard — what arranging keeps

An arranged object has its members in one order, and of a repeated key the last value. So it says
under each key what is written there last, and nothing else; and what is arranged already stays as
it is.

* `lookup_insertMember`, `lookup_arrangeOnto` — what stands under a key;
* `arranged_object_iff`, `Arranged.arrange_eq` — arranged values, which are kept;
* `Properties.entries_ofList` — the properties that a list writes are its members, arranged;
* `Properties.ofList_entries` — properties are written by their own members.
-/

namespace Taskboard

namespace Json

variable {key k : String} {value : Json} {members ascending : List (String × Json)}

/-! ## Under a key -/

theorem lookup_cons_of_ne {m : String × Json} (hNe : k ≠ m.1) :
    (m :: members).lookup k = members.lookup k := by
  have hOther : (k == m.1) = false := beq_eq_false_iff_ne.mpr hNe
  rw [List.lookup_cons, hOther]

theorem lookup_insertMember (key : String) (value : Json) (members : List (String × Json)) :
    (insertMember key value members).lookup k =
      if k = key then some value else members.lookup k := by
  induction members with
  | nil =>
    rw [insertMember]
    split
    · rename_i hEq
      rw [hEq, List.lookup_cons_self]
    · rename_i hNe
      rw [lookup_cons_of_ne hNe]
  | cons m rest ih =>
    unfold insertMember
    by_cases hEq : k = key
    · subst hEq
      rw [if_pos rfl]
      split
      · rw [List.lookup_cons_self]
      · split
        · rw [List.lookup_cons_self]
        · rename_i hNe
          rw [lookup_cons_of_ne hNe, ih, if_pos rfl]
    · rw [if_neg hEq]
      split
      · rw [lookup_cons_of_ne hEq]
      · split
        · -- the member that is replaced stood under another key
          rename_i hSame
          rw [lookup_cons_of_ne hEq, lookup_cons_of_ne (hSame ▸ hEq)]
        · rw [List.lookup_cons, ih, if_neg hEq, List.lookup_cons]

/-- Under distinct keys each member is found. -/
theorem lookup_of_mem (hDistinct : (members.map Prod.fst).Nodup) {m : String × Json}
    (hMember : m ∈ members) : members.lookup m.1 = some m.2 := by
  obtain ⟨front, back, rfl⟩ := List.append_of_mem hMember
  rw [List.map_append, List.map_cons, List.nodup_middle, List.nodup_cons, List.mem_append]
    at hDistinct
  refine List.lookup_eq_some_iff.mpr ⟨front, back, rfl, fun other hOther => ?_⟩
  rw [bne_iff_ne]
  intro hEq
  exact hDistinct.1 (Or.inl (hEq ▸ List.mem_map_of_mem hOther))

theorem mem_of_lookup (hLookup : members.lookup key = some value) : (key, value) ∈ members := by
  obtain ⟨front, back, rfl, -⟩ := List.lookup_eq_some_iff.mp hLookup
  exact List.mem_append_right _ List.mem_cons_self

/-- **What is written last under a key** stands there in the end, or else what stood there. -/
theorem lookup_arrangeOnto (ascending members : List (String × Json)) :
    (arrangeOnto ascending members).lookup k =
      ((members.reverse.lookup k).map arrange).or (ascending.lookup k) := by
  induction members generalizing ascending with
  | nil => rfl
  | cons m rest ih =>
    rw [arrangeOnto, ih, lookup_insertMember, List.reverse_cons, List.lookup_append]
    cases rest.reverse.lookup k with
    | some last => rfl
    | none =>
      by_cases hEq : k = m.1
      · rw [if_pos hEq, hEq, List.lookup_cons_self]
        rfl
      · rw [if_neg hEq, lookup_cons_of_ne hEq]
        rfl

/-! ## Arranged values -/

theorem arranged_object_iff : (Json.object members).Arranged ↔
    members.Pairwise (fun a b => a.1 < b.1) ∧ ∀ m ∈ members, m.2.Arranged := by
  constructor
  · intro h
    cases h with
    | object hKeys hEach => exact ⟨hKeys, hEach⟩
  · rintro ⟨hKeys, hEach⟩
    exact .object hKeys hEach

/-- Ascending keys are distinct. -/
theorem nodup_of_ascending (hKeys : members.Pairwise fun a b => a.1 < b.1) :
    (members.map Prod.fst).Nodup := by
  refine List.pairwise_map.mpr (hKeys.imp fun {a b} hLess hEq => ?_)
  rw [hEq] at hLess
  exact String.lt_irrefl _ hLess

/-- Behind all members a new one is put last. -/
theorem insertMember_of_forall_lt (hLast : ∀ m ∈ members, m.1 < key) :
    insertMember key value members = members ++ [(key, value)] := by
  induction members with
  | nil => rfl
  | cons m rest ih =>
    have hBefore : m.1 < key := hLast m List.mem_cons_self
    have hNotLt : ¬ key < m.1 := fun h => String.lt_irrefl _ (String.lt_trans hBefore h)
    have hNe : key ≠ m.1 := fun h => String.lt_irrefl _ (h ▸ hBefore)
    rw [insertMember, if_neg hNotLt, if_neg hNe,
      ih fun m hm => hLast m (List.mem_cons_of_mem _ hm), List.cons_append]

/-- Ascending members stay in their order. -/
theorem arrangeOnto_of_ascending (hKeys : (ascending ++ members).Pairwise fun a b => a.1 < b.1)
    (hEach : ∀ m ∈ members, m.2.arrange = m.2) :
    arrangeOnto ascending members = ascending ++ members := by
  induction members generalizing ascending with
  | nil => rw [arrangeOnto, List.append_nil]
  | cons m rest ih =>
    have hLast : ∀ a ∈ ascending, a.1 < m.1 := fun a ha =>
      (List.pairwise_append.mp hKeys).2.2 a ha m List.mem_cons_self
    have hSplit : ascending ++ m :: rest = ascending ++ [m] ++ rest := by simp
    rw [arrangeOnto, hEach m List.mem_cons_self, insertMember_of_forall_lt hLast]
    rw [hSplit] at hKeys ⊢
    exact ih hKeys fun m hm => hEach m (List.mem_cons_of_mem _ hm)

theorem arrangeItems_eq_map (items : List Json) : arrangeItems items = items.map arrange := by
  induction items with
  | nil => rfl
  | cons item rest ih => rw [arrangeItems, ih, List.map_cons]

/-- **What is arranged stays as it is.** -/
theorem Arranged.arrange_eq {j : Json} (h : j.Arranged) : j.arrange = j := by
  induction h with
  | null => rfl
  | bool b => rfl
  | number n => rfl
  | string s => rfl
  | array each ih =>
    rw [arrange, arrangeItems_eq_map, List.map_congr_left ih, List.map_id']
  | object keys each ih =>
    rw [arrange, arrangeOnto_of_ascending (by simpa using keys) ih, List.nil_append]

end Json

/-! ## Properties -/

namespace Properties

theorem nodup_keys (ps : Properties) : (ps.entries.map Prod.fst).Nodup :=
  Json.nodup_of_ascending (Json.arranged_object_iff.mp ps.arranged).1

/-- Properties are their members. -/
theorem eq_of_entries_eq {ps qs : Properties} (h : ps.entries = qs.entries) : ps = qs := by
  cases ps
  cases qs
  cases h
  rfl

theorem entries_foldl_insert (ps : Properties) (members : List (String × Json)) :
    (members.foldl (fun ps m => ps.insert m.1 m.2) ps).entries =
      Json.arrangeOnto ps.entries members := by
  induction members generalizing ps with
  | nil => rfl
  | cons m rest ih =>
    rw [List.foldl_cons, ih]
    rfl

/-- **The properties that a list writes** are its members, arranged. -/
theorem entries_ofList (members : List (String × Json)) :
    (ofList members).entries = Json.arrangeOnto [] members :=
  entries_foldl_insert empty members

/-- The last value under a key counts. -/
theorem lookup_ofList (members : List (String × Json)) (key : String) :
    (ofList members).entries.lookup key = (members.reverse.lookup key).map Json.arrange := by
  rw [entries_ofList, Json.lookup_arrangeOnto, List.lookup_nil, Option.or_none]

/-- **Properties are written by their own members.** -/
theorem ofList_entries (ps : Properties) : ofList ps.entries = ps := by
  refine eq_of_entries_eq ?_
  rw [entries_ofList]
  have hKept := ps.arranged.arrange_eq
  rw [Json.arrange, Json.object.injEq] at hKept
  exact hKept

end Properties

end Taskboard
