import Taskboard.Json.Value

/-!
# Taskboard — arranged JSON values

The order of the members of an object carries no meaning, and of a repeated key the last value
counts. An arranged value has no choice left: the keys of each object, at any depth, ascend
strictly.

* `Json.Arranged` — the keys of all objects of a value ascend strictly;
* `Json.insertMember` — an ascending list of members with one more;
* `Json.arrange` — the arranged value that says the same.

Keys are ordered as core orders strings, by code points, which is also the order of their UTF-8
bytes.
-/

namespace Taskboard.Json

/-- The keys of all objects of a value ascend strictly. -/
inductive Arranged : Json → Prop where
  | null : Arranged .null
  | bool (b : Bool) : Arranged (.bool b)
  | number (n : Number) : Arranged (.number n)
  | string (s : String) : Arranged (.string s)
  | array {items : List Json} (each : ∀ j ∈ items, Arranged j) : Arranged (.array items)
  | object {members : List (String × Json)} (keys : members.Pairwise fun a b => a.1 < b.1)
      (each : ∀ m ∈ members, Arranged m.2) : Arranged (.object members)

/-! ## Members -/

/-- Puts a value under its key into an ascending list, in the place of the one that is there. -/
def insertMember (key : String) (value : Json) : List (String × Json) → List (String × Json)
  | [] => [(key, value)]
  | member :: rest =>
    if key < member.1 then (key, value) :: member :: rest
    else if key = member.1 then (key, value) :: rest
    else member :: insertMember key value rest

/-- The members after an insertion are old ones and the new one. -/
theorem mem_insertMember {key : String} {value : Json} {m : String × Json} :
    ∀ {l : List (String × Json)}, m ∈ insertMember key value l → m = (key, value) ∨ m ∈ l
  | [], h => Or.inl (List.mem_singleton.mp h)
  | member :: rest, h => by
    unfold insertMember at h
    split at h
    · exact List.mem_cons.mp h
    · split at h
      · rcases List.mem_cons.mp h with h | h
        · exact Or.inl h
        · exact Or.inr (List.mem_cons_of_mem _ h)
      · rcases List.mem_cons.mp h with h | h
        · exact Or.inr (h ▸ List.mem_cons_self)
        · rcases mem_insertMember h with h | h
          · exact Or.inl h
          · exact Or.inr (List.mem_cons_of_mem _ h)

/-- A key that neither precedes nor equals another follows it. -/
theorem lt_of_not_lt_of_ne {a b : String} (hlt : ¬ a < b) (hne : a ≠ b) : b < a :=
  Classical.byContradiction fun h =>
    hne (String.le_antisymm (String.not_lt.mp h) (String.not_lt.mp hlt))

/-- An insertion keeps the order. -/
theorem pairwise_insertMember (key : String) (value : Json) :
    ∀ {l : List (String × Json)}, l.Pairwise (fun a b => a.1 < b.1) →
      (insertMember key value l).Pairwise fun a b => a.1 < b.1
  | [], _ => List.pairwise_singleton _ _
  | member :: rest, h => by
    obtain ⟨hhead, hrest⟩ := List.pairwise_cons.mp h
    unfold insertMember
    split
    · next hlt =>
      refine List.pairwise_cons.mpr ⟨?_, h⟩
      intro m hm
      rcases List.mem_cons.mp hm with rfl | hm
      · exact hlt
      · exact String.lt_trans hlt (hhead m hm)
    · next hnlt =>
      split
      · next heq =>
        -- the old key is the new one, so what followed it still follows
        refine List.pairwise_cons.mpr ⟨?_, hrest⟩
        intro m hm
        exact heq ▸ hhead m hm
      · next hne =>
        refine List.pairwise_cons.mpr ⟨?_, pairwise_insertMember key value hrest⟩
        intro m hm
        rcases mem_insertMember hm with rfl | hm
        · exact lt_of_not_lt_of_ne hnlt hne
        · exact hhead m hm

/-- An arranged object stays so when an arranged value is put into it. -/
theorem Arranged.insertMember {l : List (String × Json)} (h : (Json.object l).Arranged)
    (key : String) {value : Json} (hvalue : value.Arranged) :
    (Json.object (insertMember key value l)).Arranged := by
  obtain ⟨hkeys, heach⟩ : l.Pairwise (fun a b => a.1 < b.1) ∧ ∀ m ∈ l, m.2.Arranged := by
    cases h with
    | object hkeys heach => exact ⟨hkeys, heach⟩
  refine .object (pairwise_insertMember key value hkeys) ?_
  intro m hm
  rcases mem_insertMember hm with rfl | hm
  · exact hvalue
  · exact heach m hm

/-! ## Values -/

mutual

/-- The arranged value that says the same. -/
def arrange : Json → Json
  | .array items => .array (arrangeItems items)
  | .object members => .object (arrangeOnto [] members)
  | .null => .null
  | .bool b => .bool b
  | .number n => .number n
  | .string s => .string s

/-- The items of an array, each arranged. -/
def arrangeItems : List Json → List Json
  | [] => []
  | item :: rest => arrange item :: arrangeItems rest

/-- Puts members, each arranged, into an ascending list one after the other. -/
def arrangeOnto (ascending : List (String × Json)) : List (String × Json) → List (String × Json)
  | [] => ascending
  | (key, value) :: rest => arrangeOnto (insertMember key (arrange value) ascending) rest

end

mutual

/-- Arranging arranges. -/
theorem arranged_arrange : ∀ j : Json, j.arrange.Arranged
  | .array items => .array (arranged_arrangeItems items)
  | .object members => arranged_arrangeOnto (.object .nil (by simp)) members
  | .null => .null
  | .bool b => .bool b
  | .number n => .number n
  | .string s => .string s

theorem arranged_arrangeItems : ∀ items : List Json, ∀ j ∈ arrangeItems items, j.Arranged
  | [], _, h => absurd h List.not_mem_nil
  | item :: rest, j, h => by
    rcases List.mem_cons.mp h with rfl | h
    · exact arranged_arrange item
    · exact arranged_arrangeItems rest j h

theorem arranged_arrangeOnto {ascending : List (String × Json)}
    (h : (Json.object ascending).Arranged) :
    ∀ members : List (String × Json), (Json.object (arrangeOnto ascending members)).Arranged
  | [] => h
  | (key, value) :: rest => arranged_arrangeOnto (h.insertMember key (arranged_arrange value)) rest

end

end Taskboard.Json
