import Taskboard.Board.Item.Json
import Taskboard.Proofs.Json.Arranged

/-!
# Taskboard — an item is what its members say

An item may be read from many objects: known members may be missing or `null`, a priority may be a
number, attachments may be arrays, further properties may be repeated. It is written in one way
only, with every known member once. What is written is read back as the same item, so nothing that
has been read is lost when it is written.

* `Json.field?_eq` — the one member under a key is what is read;
* `PullRequest.ofJson?_toJson`, `AgentSession.ofJson?_toJson` — attachments are read back;
* `WorkItem.ofJson?_toJson` — and so is an item whose further keys have no meaning;
* `WorkItem.extra_of_ofMembers?` — the further properties of an item that has been read;
* `WorkItem.written_without_loss` — reading, writing and reading again.
-/

namespace Taskboard

/-! ## Reading what is written -/

namespace Json

/-- A reading that gives back what a writing is made from. -/
def ReadsBack {α : Type} (read : Json → Option α) (write : α → Json) : Prop :=
  ∀ a, read (write a) = some a

theorem readsBack_string : ReadsBack string? .string :=
  fun _ => rfl

theorem readsBack_bool : ReadsBack bool? .bool :=
  fun _ => rfl

theorem readsBack_strings : ReadsBack strings? ofStrings := by
  intro ss
  induction ss with
  | nil => rfl
  | cons s ss ih =>
    have hRest : List.mapM string? (ss.map Json.string) = some ss := ih
    show List.mapM string? (Json.string s :: ss.map Json.string) = some (s :: ss)
    rw [List.mapM_cons, hRest]
    rfl

theorem readsBack_word : ReadsBack word? fun number : UInt64 => .ofNat number.toNat := by
  intro number
  have hBound : number.toNat < Nat.pow 2 64 := number.toNat_lt
  show (if 0 ≤ (number.toNat : Int) ∧ (number.toNat : Int) < Nat.pow 2 64 then
    some (number.toNat : Int).toNat else none).map Nat.toUInt64 = some number
  rw [if_pos ⟨by omega, by exact_mod_cast hBound⟩, Int.toNat_natCast, Option.map_some]
  exact congrArg some UInt64.ofNat_toNat

/-- Absence is written as `null`, and nothing else is. -/
theorem ReadsBack.nullable {α : Type} {read : Json → Option α} {write : α → Json}
    (h : ReadsBack read write) (hSome : ∀ a, write a ≠ .null) :
    ReadsBack (nullable read) (ofOption write) := by
  intro o
  cases o with
  | none => rfl
  | some a =>
    have hRead := h a
    have hNotNull := hSome a
    rw [ofOption]
    cases hWritten : write a with
    | null => exact absurd hWritten hNotNull
    | _ =>
      rw [hWritten] at hRead
      rw [Json.nullable, hRead]
      · rfl
      · intro hNull
        cases hNull

/-- The one member under a key is what is read. -/
theorem field?_eq {α : Type} {members : List (String × Json)} {key : String} {value : Json}
    (hDistinct : (members.map Prod.fst).Nodup) (hLookup : members.lookup key = some value)
    (absent : α) (read : Json → Option α) : field? members key absent read = read value := by
  obtain ⟨front, back, rfl, -⟩ := List.lookup_eq_some_iff.mp hLookup
  rw [List.map_append, List.map_cons, List.nodup_middle, List.nodup_cons, List.mem_append]
    at hDistinct
  -- no other member stands under the key
  have hNone : ∀ m : String × Json, m.1 ∈ front.map Prod.fst ∨ m.1 ∈ back.map Prod.fst →
      ¬ (m.1 == key) = true := by
    intro m hm hEq
    rw [beq_iff_eq.mp hEq] at hm
    exact hDistinct.1 hm
  have hOne : (front ++ (key, value) :: back).filter (fun m => m.1 == key) = [(key, value)] := by
    rw [List.filter_append,
      List.filter_eq_nil_iff.mpr fun m hm => hNone m (Or.inl (List.mem_map_of_mem hm)),
      List.filter_cons_of_pos (by simp),
      List.filter_eq_nil_iff.mpr fun m hm => hNone m (Or.inr (List.mem_map_of_mem hm)),
      List.nil_append]
  rw [field?, hOne]

end Json

open Json

theorem Priority.readsBack (p : Priority) : Priority.ofJson (.string p.name) = p := by
  cases p <;> decide +kernel

theorem PullRequest.readsBack : ReadsBack PullRequest.ofJson? PullRequest.toJson := by
  intro p
  have hDistinct : ((([("number", .ofNat p.number.toNat), ("url", ofOption .string p.url),
      ("state", .string p.state.name)] : List (String × Json))).map Prod.fst).Nodup := by
    show ["number", "url", "state"].Nodup
    decide
  have hState : constant? PrState.ofName? (.string p.state.name) = some p.state := by
    cases p.state <;> rfl
  have hUrl := readsBack_string.nullable (fun _ h => by cases h) p.url
  rw [toJson, ofJson?, field?_eq hDistinct rfl, field?_eq hDistinct rfl, field?_eq hDistinct rfl,
    readsBack_word p.number, hUrl, hState]
  rfl

theorem AgentSession.readsBack : ReadsBack AgentSession.ofJson? AgentSession.toJson := by
  intro a
  have hDistinct : ((([("name", .string a.name), ("state", .string a.state.name)] :
      List (String × Json))).map Prod.fst).Nodup := by
    show ["name", "state"].Nodup
    decide
  have hState : constant? AgentState.ofName? (.string a.state.name) = some a.state := by
    cases a.state <;> rfl
  rw [toJson, ofJson?, field?_eq hDistinct rfl, field?_eq hDistinct rfl, hState]
  rfl

namespace WorkItem

/-! ## Items -/

theorem nodup_keys : keys.Nodup := by
  decide +kernel

/-- The keys that are written: the known ones, and then those of the further properties. -/
theorem map_fst_written (item : WorkItem) :
    (item.knownMembers ++ item.extra.entries).map Prod.fst =
      keys ++ item.extra.entries.map Prod.fst := by
  rw [List.map_append]
  rfl

section Written

variable {item : WorkItem} (hFree : ∀ m ∈ item.extra.entries, m.1 ∉ keys)

include hFree

/-- No key is written twice. -/
theorem nodup_written : ((item.knownMembers ++ item.extra.entries).map Prod.fst).Nodup := by
  rw [map_fst_written, List.nodup_append]
  refine ⟨nodup_keys, item.extra.nodup_keys, ?_⟩
  rintro key hKnown other hOther rfl
  obtain ⟨m, hm, hKey⟩ := List.mem_map.mp hOther
  exact hFree m hm (hKey ▸ hKnown)

/-- The members without a meaning are the further properties. -/
theorem filter_written : (item.knownMembers ++ item.extra.entries).filter
    (fun m => !keys.contains m.1) = item.extra.entries := by
  have hKnown : item.knownMembers.filter (fun m => !keys.contains m.1) = [] := by
    refine List.filter_eq_nil_iff.mpr fun m hm => ?_
    have hKey : m.1 ∈ keys := List.mem_map_of_mem (f := Prod.fst) hm
    simp [hKey]
  have hFurther : item.extra.entries.filter (fun m => !keys.contains m.1) =
      item.extra.entries := by
    refine List.filter_eq_self.mpr fun m hm => ?_
    simp [hFree m hm]
  rw [List.filter_append, hKnown, hFurther, List.nil_append]

/-- **An item is read back from its members**, if its further keys have no meaning. -/
theorem ofJson?_toJson : ofJson? item.toJson = some item := by
  have hDistinct := nodup_written hFree
  have hText := readsBack_string.nullable fun _ h => by cases h
  have hTexts := readsBack_strings.nullable fun _ h => by cases h
  have hPull := PullRequest.readsBack.nullable fun _ h => by cases h
  have hAgent := AgentSession.readsBack.nullable fun _ h => by cases h
  rw [toJson, ofJson?, ofMembers?]
  repeat rw [field?_eq hDistinct rfl]
  rw [readsBack_string item.id, readsBack_string item.title, hText item.description,
    hText item.status, Priority.readsBack, readsBack_strings item.labels, hTexts item.blockedBy,
    hTexts item.blocking, hText item.assignee, hText item.branch, hPull item.pullRequest,
    hAgent item.agent, readsBack_bool item.ready, readsBack_bool item.criticalPath,
    filter_written hFree, Properties.ofList_entries]
  rfl

end Written

/-! ## Items that have been read -/

section Read

variable {members : List (String × Json)} {item : WorkItem}

theorem extra_of_ofMembers? (h : ofMembers? members = some item) :
    item.extra = .ofList (members.filter fun m => !keys.contains m.1) := by
  unfold ofMembers? at h
  -- the further properties come behind the fourteen members that have a key
  iterate 14 obtain ⟨_, -, h⟩ := Option.bind_eq_some_iff.mp h
  cases h
  rfl

/-- The further properties of an item that has been read: under a known key there is none, under
any other one the last value that the object has there. -/
theorem lookup_extra (h : ofMembers? members = some item) (key : String) :
    item.extra.entries.lookup key =
      if key ∈ keys then none else (members.reverse.lookup key).map arrange := by
  rw [extra_of_ofMembers? h, Properties.lookup_ofList, ← List.filter_reverse]
  generalize members.reverse = ms
  induction ms with
  | nil => simp
  | cons m ms ih =>
    by_cases hKey : key = m.1
    · subst hKey
      by_cases hKnown : m.1 ∈ keys
      · rw [List.filter_cons_of_neg (by simpa using hKnown), ih, if_pos hKnown, if_pos hKnown]
      · rw [List.filter_cons_of_pos (by simpa using hKnown), List.lookup_cons_self, if_neg hKnown,
          List.lookup_cons_self]
    · rw [lookup_cons_of_ne hKey, ← ih]
      by_cases hKnown : m.1 ∈ keys
      · rw [List.filter_cons_of_neg (by simpa using hKnown)]
      · rw [List.filter_cons_of_pos (by simpa using hKnown), lookup_cons_of_ne hKey]

theorem notMem_keys_of_mem_extra (h : ofMembers? members = some item) :
    ∀ m ∈ item.extra.entries, m.1 ∉ keys := by
  intro m hm hKnown
  have hNone := lookup_extra h m.1
  rw [if_pos hKnown, List.lookup_eq_none_iff] at hNone
  simpa using hNone m hm

end Read

/--
**An item is written without loss.** An object that is read as an item may leave out known members,
write them in several forms, and repeat further ones. The item is written as an object without
repeated keys, which is read as the same item. It has all known members, and under any other key
the last value that the object has there, arranged; so the further members of an object that is
arranged come back as they were. An item that has not been read is read back as well, if none of
its further properties takes the key of a known one.
-/
theorem written_without_loss :
    (∀ (members : List (String × Json)) (item : WorkItem),
      ofJson? (.object members) = some item →
      ∃ written, item.toJson = .object written ∧ (written.map Prod.fst).Nodup ∧
        ofJson? (.object written) = some item ∧
        (∀ key ∈ keys, ∃ value, (key, value) ∈ written) ∧
        (∀ key ∉ keys, written.lookup key = (members.reverse.lookup key).map arrange) ∧
        ((Json.object members).Arranged → ∀ m ∈ members, m.1 ∉ keys → m ∈ written)) ∧
    ∀ item : WorkItem, (∀ m ∈ item.extra.entries, m.1 ∉ keys) →
      ofJson? item.toJson = some item := by
  refine ⟨fun members item h => ?_, fun item hFree => ofJson?_toJson hFree⟩
  have hFree := notMem_keys_of_mem_extra h
  have hUnder : ∀ key ∉ keys, (item.knownMembers ++ item.extra.entries).lookup key =
      (members.reverse.lookup key).map arrange := by
    intro key hKey
    have hKnown : item.knownMembers.lookup key = none := by
      refine List.lookup_eq_none_iff.mpr fun m hm => ?_
      have hMem : m.1 ∈ keys := List.mem_map_of_mem (f := Prod.fst) hm
      simpa using fun hEq : key = m.1 => hKey (hEq ▸ hMem)
    rw [List.lookup_append, hKnown, Option.none_or, lookup_extra h, if_neg hKey]
  refine ⟨_, rfl, nodup_written hFree, ofJson?_toJson hFree, ?_, hUnder, ?_⟩
  · intro key hKey
    have hMem : key ∈ item.knownMembers.map Prod.fst := hKey
    obtain ⟨m, hm, rfl⟩ := List.mem_map.mp hMem
    exact ⟨m.2, List.mem_append_left _ hm⟩
  · intro hArranged m hm hKey
    obtain ⟨hAscending, hEach⟩ := arranged_object_iff.mp hArranged
    -- an arranged object has one value under a key, the last one
    have hDistinct : (members.reverse.map Prod.fst).Nodup := by
      rw [List.map_reverse, List.nodup_reverse]
      exact nodup_of_ascending hAscending
    have hLast := lookup_of_mem hDistinct (List.mem_reverse.mpr hm)
    have hFound : (item.knownMembers ++ item.extra.entries).lookup m.1 = some m.2 := by
      rw [hUnder m.1 hKey, hLast, Option.map_some, (hEach m hm).arrange_eq]
    exact mem_of_lookup hFound

/-- An object with a priority by number, attachments as an array and with an object for a stage, a
list of links that is `null`, and a further property that is repeated and not arranged; an arranged
object; and an item that has not been read. -/
theorem written_without_loss_of_loose_forms :
    let size : Json := .object [("w", .ofNat 2), ("h", .ofNat 3), ("w", .ofNat 4)]
    let loose : List (String × Json) :=
      [("size", .null), ("id", .string "a"), ("priority", .ofNat 1), ("pr", .array [.ofNat 7]),
        ("agent", .object [("state", .object [("running", .null)])]), ("blocking", .null),
        ("size", size)]
    let arranged : List (String × Json) := [("Id", .ofNat 2), ("id", .string "b")]
    let fresh : WorkItem := { id := "c", extra := .ofList [("size", size)] }
    (∃ item written, ofJson? (.object loose) = some item ∧ item.toJson = .object written ∧
      (written.map Prod.fst).Nodup ∧ ofJson? (.object written) = some item ∧
      written.lookup "size" = some (.object [("h", .ofNat 3), ("w", .ofNat 4)])) ∧
    (∃ item written, ofJson? (.object arranged) = some item ∧ item.toJson = .object written ∧
      (Json.object arranged).Arranged ∧ ("Id", .ofNat 2) ∈ written) ∧
    ("size", .object [("h", .ofNat 3), ("w", .ofNat 4)]) ∈ fresh.extra.entries ∧
      ofJson? fresh.toJson = some fresh := by
  intro size loose arranged fresh
  refine ⟨?_, ?_, ?_, ?_⟩
  · have hRead : ofJson? (.object loose) = some
        { id := "a", priority := .urgent, pullRequest := some { number := 7 },
          agent := some { state := .running },
          extra := .ofList [("size", .null), ("size", size)] } := rfl
    obtain ⟨written, hWritten, hDistinct, hAgain, -, hUnder, -⟩ :=
      written_without_loss.1 loose _ hRead
    refine ⟨_, written, hRead, hWritten, hDistinct, hAgain, ?_⟩
    rw [hUnder "size" (by decide +kernel)]
    rfl
  · have hRead : ofJson? (.object arranged) = some
        { id := "b", extra := .ofList [("Id", .ofNat 2)] } := rfl
    obtain ⟨written, hWritten, -, -, -, -, hKept⟩ := written_without_loss.1 arranged _ hRead
    have hArranged : (Json.object arranged).Arranged := by
      refine .object (by decide +kernel) ?_
      intro m hm
      rcases List.mem_pair.mp hm with rfl | rfl
      · exact .number _
      · exact .string _
    refine ⟨_, written, hRead, hWritten, hArranged, ?_⟩
    exact hKept hArranged ("Id", .ofNat 2) List.mem_cons_self (by decide +kernel)
  · exact List.mem_singleton_self _
  · refine written_without_loss.2 fresh fun m hm => ?_
    rw [List.mem_singleton.mp hm]
    decide +kernel

end WorkItem

end Taskboard
