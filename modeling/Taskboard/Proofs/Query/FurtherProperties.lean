import Mathlib.Data.List.Nodup
import Taskboard.Proofs.Json.Arranged
import Taskboard.Proofs.Query.Rendering
import Taskboard.Proofs.Text.LetterCase
import Taskboard.Query.Field

/-!
# Taskboard — further properties by name

A term names a field, and a field that has no meaning of its own names a further property of the
item. The name of the term is in lower case by the full mapping of Unicode, and the keys of the
properties are compared with it up to the case of ASCII letters only. So a property answers to its
own key if both foldings agree on the key. If they do not, the key has a capital that is no letter
of ASCII, and no term reaches the property.

* `tokenize_term` — the token of a term;
* `Properties.eq_of_key_eq` — a key has one value;
* `lowercase_eq_of_sameIgnoringCase` — the keys that fit the name of a term;
* `extraValue_of_folded`, `extraValue_of_not_folded` — the lookup of a key in lower case;
* `resolve_key` — a further property by its own key.
-/

namespace Taskboard

/-- A key has one value. -/
theorem Properties.eq_of_key_eq (ps : Properties) {e e' : String × Json} (h : e ∈ ps.entries)
    (h' : e' ∈ ps.entries) (hKey : e.1 = e'.1) : e = e' :=
  List.inj_on_of_nodup_map ps.nodup_keys h h' hKey

namespace Query

/-! ## Terms -/

/-- **The token of a term**: a name of characters of words, a colon, and a value of such
characters. -/
theorem tokenize_term {name value : String}
    (hName : name.toList.all (fun c => isWordChar c && c != ':') = true)
    (hValue : value.toList.all isWordChar = true) :
    tokenize (name ++ ":" ++ value) =
      [⟨.field (Text.lowercase name) value, 0⟩,
        ⟨.endOfQuery, name.toList.length + 1 + value.toList.length⟩] := by
  simp only [List.all_eq_true, Bool.and_eq_true, bne_iff_ne] at hName hValue
  have hText : (name ++ ":" ++ value).toList = (name.toList ++ ':' :: value.toList) ++ [] := by
    simp
  -- the term is one word, to the end of the text
  have hWord : IsWord (name.toList ++ ':' :: value.toList) :=
    isWord_term (fun c hc => (hName c hc).1) hValue
  have hLength : (name.toList ++ ':' :: value.toList).length =
      name.toList.length + 1 + value.toList.length := by
    rw [List.length_append, List.length_cons]
    omega
  rw [tokenize, hText, scan_word hWord apart_nil, scan_nil, hLength, Nat.zero_add,
    Kind.ofWord_term fun c hc => (hName c hc).2, String.ofList_toList, String.ofList_toList]

/-! ## Lookups -/

/-- A name that is no known field is looked up among the further properties. -/
theorem resolve_of_notMem {name : String} (h : name ∉ knownFields.map Prod.fst)
    (item : WorkItem) : resolve item name = extraValue item name := by
  have hAccessor : accessor? name = none := by
    refine List.lookup_eq_none_iff.mpr fun field hField => ?_
    rw [bne_iff_ne]
    rintro rfl
    exact h (List.mem_map_of_mem hField)
  rw [resolve, hAccessor]

section Extra

variable {item : WorkItem} {key : String}

/-- A key that fits some lower-case form has it under both foldings. So a key on which they differ
fits the name of no term. -/
theorem lowercase_eq_of_sameIgnoringCase {other : String}
    (h : Text.sameIgnoringCase other (Text.lowercase key) = true) :
    Text.lowercase other = Text.lowercase key ∧ Text.lowercase other = other.toLower := by
  rw [Text.sameIgnoringCase_iff, Text.toLower_lowercase] at h
  -- the full mapping takes in the folding of ASCII
  have hForm : Text.lowercase other = Text.lowercase key := by
    rw [← Text.lowercase_toLower, h, Text.lowercase_lowercase]
  exact ⟨hForm, hForm.trans h.symm⟩

/-- If no other key has the lower-case form of a key, then the lookup of this form fits the key or
nothing, and it fits the key if both foldings agree on it. -/
theorem sameIgnoringCase_lowercase_iff {e : String × Json}
    (hAlone : ∀ e ∈ item.extra.entries, Text.lowercase e.1 = Text.lowercase key → e.1 = key)
    (he : e ∈ item.extra.entries) : Text.sameIgnoringCase e.1 (Text.lowercase key) = true ↔
      e.1 = key ∧ Text.lowercase key = key.toLower := by
  constructor
  · intro h
    obtain ⟨hForm, hFolded⟩ := lowercase_eq_of_sameIgnoringCase h
    have hKey := hAlone e he hForm
    rw [hKey] at hFolded
    exact ⟨hKey, hFolded⟩
  · rintro ⟨hKey, hFolded⟩
    rw [hKey, Text.sameIgnoringCase_iff, Text.toLower_lowercase, hFolded]

/-- A key on which both foldings agree is found by its lower-case form, if no other key has it. -/
theorem extraValue_of_folded {value : Json} (hEntry : (key, value) ∈ item.extra.entries)
    (hAlone : ∀ e ∈ item.extra.entries, Text.lowercase e.1 = Text.lowercase key → e.1 = key)
    (hFolded : Text.lowercase key = key.toLower) :
    extraValue item (Text.lowercase key) = .ofJson value := by
  unfold extraValue
  cases hFind : item.extra.entries.find? fun e =>
      Text.sameIgnoringCase e.1 (Text.lowercase key) with
  | none =>
    have hNot := List.find?_eq_none.mp hFind (key, value) hEntry
    exact absurd ((sameIgnoringCase_lowercase_iff hAlone hEntry).mpr ⟨rfl, hFolded⟩) hNot
  | some e =>
    -- whatever is found first has the key, and so is the entry itself
    have hMem := List.mem_of_find?_eq_some hFind
    have hFits := List.find?_some hFind
    have hKey := ((sameIgnoringCase_lowercase_iff hAlone hMem).mp hFits).1
    obtain rfl := item.extra.eq_of_key_eq hMem hEntry hKey
    rfl

/-- A key on which the foldings differ is not found by its lower-case form. -/
theorem extraValue_of_not_folded
    (hAlone : ∀ e ∈ item.extra.entries, Text.lowercase e.1 = Text.lowercase key → e.1 = key)
    (hNotFolded : Text.lowercase key ≠ key.toLower) :
    extraValue item (Text.lowercase key) = .missing := by
  have hFind : (item.extra.entries.find? fun e =>
      Text.sameIgnoringCase e.1 (Text.lowercase key)) = none := by
    refine List.find?_eq_none.mpr fun e he hFits => hNotFolded ?_
    exact ((sameIgnoringCase_lowercase_iff hAlone he).mp hFits).2
  rw [extraValue, hFind]

end Extra

/--
**A further property by its own key.** Let a key be one that a term can name: it has no blanks,
parentheses or colons, its lower-case form is the name of no known field, and no other key has it.
A term with this key is one token, and its field has the value of the property if the key has no
capitals but those of ASCII. Else the field is missing.
-/
theorem resolve_key (item : WorkItem) (key v : String) (value : Json)
    (hEntry : (key, value) ∈ item.extra.entries)
    (hKey : key.toList.all (fun c => isWordChar c && c != ':') = true)
    (hUnknown : Text.lowercase key ∉ knownFields.map Prod.fst)
    (hAlone : ∀ e ∈ item.extra.entries, Text.lowercase e.1 = Text.lowercase key → e.1 = key)
    (hValue : v.toList.all isWordChar = true) :
    ∃ name finish, tokenize (key ++ ":" ++ v) = [⟨.field name v, 0⟩, ⟨.endOfQuery, finish⟩] ∧
      resolve item name =
        if Text.lowercase key = key.toLower then .ofJson value else .missing := by
  refine ⟨_, _, tokenize_term hKey hValue, ?_⟩
  rw [resolve_of_notMem hUnknown]
  split
  · rename_i hFolded
    exact extraValue_of_folded hEntry hAlone hFolded
  · rename_i hNotFolded
    exact extraValue_of_not_folded hAlone hNotFolded

/-- A key with a capital of ASCII and a letter that ASCII lacks, next to another key. -/
theorem resolve_key_of_ascii_capital :
    let item : WorkItem :=
      { id := "a", extra := .ofList [("Straße", .string "x"), ("Column", .bool true)] }
    ∃ name finish, tokenize "Straße:x" = [⟨.field name "x", 0⟩, ⟨.endOfQuery, finish⟩] ∧
      resolve item name = .text "x" := by
  intro item
  have hEntries : item.extra.entries = [("Column", .bool true), ("Straße", .string "x")] := rfl
  have hUnknown : Text.lowercase "Straße" ∉ knownFields.map Prod.fst := by decide +kernel
  have hAlone : ∀ e ∈ item.extra.entries,
      Text.lowercase e.1 = Text.lowercase "Straße" → e.1 = "Straße" := by
    intro e he hSame
    rw [hEntries, List.mem_pair] at he
    rcases he with rfl | rfl
    · exact absurd hSame (by decide +kernel)
    · rfl
  obtain ⟨name, finish, hTokens, hResolve⟩ := resolve_key item "Straße" "x" (.string "x")
    (by rw [hEntries]; simp) (by decide +kernel) hUnknown hAlone (by decide +kernel)
  have hFolded : Text.lowercase "Straße" = "Straße".toLower := by decide +kernel
  rw [if_pos hFolded] at hResolve
  exact ⟨name, finish, hTokens, hResolve⟩

/-- The only property of an item, under a key with a capital that ASCII lacks: the key does not
find it. -/
theorem resolve_key_of_other_capital :
    let item : WorkItem := { id := "a", extra := .ofList [("É", .string "x")] }
    ("É", .string "x") ∈ item.extra.entries ∧
      "É".toList.all (fun c => isWordChar c && c != ':') = true ∧
      Text.lowercase "É" ∉ knownFields.map Prod.fst ∧
      (∀ e ∈ item.extra.entries, Text.lowercase e.1 = Text.lowercase "É" → e.1 = "É") ∧
      tokenize "É:x" = [⟨.field "é" "x", 0⟩, ⟨.endOfQuery, 3⟩] ∧
      resolve item "é" = .missing ∧ resolve item "é" ≠ .ofJson (.string "x") := by
  intro item
  have hEntries : item.extra.entries = [("É", .string "x")] := rfl
  have hAlone : ∀ e ∈ item.extra.entries, Text.lowercase e.1 = Text.lowercase "É" → e.1 = "É" := by
    intro e he _
    rw [hEntries, List.mem_singleton] at he
    rw [he]
  have hForm : Text.lowercase "É" = "é" := by decide +kernel
  have hUnknown : Text.lowercase "É" ∉ knownFields.map Prod.fst := by decide +kernel
  have hMissing : resolve item (Text.lowercase "É") = .missing := by
    rw [resolve_of_notMem hUnknown]
    exact extraValue_of_not_folded hAlone (by decide +kernel)
  rw [hForm] at hMissing
  refine ⟨?_, by decide +kernel, hUnknown, hAlone, by decide +kernel, hMissing, ?_⟩
  · rw [hEntries]
    exact List.mem_singleton_self _
  · rw [hMissing]
    intro hEq
    cases hEq

end Query

end Taskboard
