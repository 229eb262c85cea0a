import Mathlib.Tactic.SplitIfs
import Taskboard.Json.Reading
import Taskboard.Json.Writing

/-!
# Taskboard — a written value is a JSON text of it

What a JSON text of a value is, is said by a grammar and not by the writer: between its tokens
stand any blanks, and a string is whatever the reader takes for it. So a value that is written over
several lines is a text of this value, with each item and each member in its place, and no string
is changed by the characters that had to be escaped. The wording of numbers is that of the writer;
the digits of a double need not lead the reader back to the same double.

* `Spells` — a text begins with a value, and what follows it;
* `readString?_quote` — a quoted text is read back;
* `spells_prettyAt` — a value is spelled by what is written for it;
* `IsTextOf`, `isTextOf_pretty` — a whole text of a value.
-/

namespace Taskboard.Json

/-! ## The grammar -/

/-- Only blanks stand between a text and the rest of it. -/
def Gap (text rest : List Char) : Prop :=
  ∃ blanks, (∀ c ∈ blanks, c = ' ' ∨ c = '\n' ∨ c = '\t' ∨ c = '\r') ∧ text = blanks ++ rest

mutual

/-- A text begins with a value, and the rest follows. -/
inductive Spells : List Char → Json → List Char → Prop
  | null {rest : List Char} : Spells ("null".toList ++ rest) .null rest
  | yes {rest : List Char} : Spells ("true".toList ++ rest) (.bool true) rest
  | no {rest : List Char} : Spells ("false".toList ++ rest) (.bool false) rest
  | number {n : Number} {rest : List Char} : Spells (n.text.toList ++ rest) (.number n) rest
  | string {text rest : List Char} {s : String} (read : readString? text = some (some s, rest)) :
      Spells ('"' :: text) (.string s) rest
  | array {text rest : List Char} {items : List Json}
      (each : SpellsItems text items (']' :: rest)) : Spells ('[' :: text) (.array items) rest
  | object {text rest : List Char} {members : List (String × Json)}
      (each : SpellsMembers text members ('}' :: rest)) :
      Spells ('{' :: text) (.object members) rest

/-- A text begins with items, a comma between any two. -/
inductive SpellsItems : List Char → List Json → List Char → Prop
  | none {text rest : List Char} (gap : Gap text rest) : SpellsItems text [] rest
  | last {text text' after rest : List Char} {item : Json} (before : Gap text text')
      (one : Spells text' item after) (behind : Gap after rest) : SpellsItems text [item] rest
  | more {text text' after others rest : List Char} {item next : Json} {items : List Json}
      (before : Gap text text') (one : Spells text' item after)
      (behind : Gap after (',' :: others)) (each : SpellsItems others (next :: items) rest) :
      SpellsItems text (item :: next :: items) rest

/-- A text begins with members, a comma between any two. -/
inductive SpellsMembers : List Char → List (String × Json) → List Char → Prop
  | none {text rest : List Char} (gap : Gap text rest) : SpellsMembers text [] rest
  | last {text text' after rest : List Char} {m : String × Json} (before : Gap text text')
      (one : SpellsMember text' m after) (behind : Gap after rest) : SpellsMembers text [m] rest
  | more {text text' after others rest : List Char} {m next : String × Json}
      {members : List (String × Json)} (before : Gap text text') (one : SpellsMember text' m after)
      (behind : Gap after (',' :: others)) (each : SpellsMembers others (next :: members) rest) :
      SpellsMembers text (m :: next :: members) rest

/-- A text begins with a key, a colon and a value. -/
inductive SpellsMember : List Char → String × Json → List Char → Prop
  | mk {text text' after after' rest : List Char} {key : String} {value : Json}
      (read : readString? text = some (some key, text')) (colon : Gap text' (':' :: after))
      (behind : Gap after after') (spelled : Spells after' value rest) :
      SpellsMember ('"' :: text) (key, value) rest

end

/-- A whole text of a value. -/
def IsTextOf (value : Json) (text : List Char) : Prop :=
  Spells text value []

/-! ## Strings -/

section Strings

variable {c e : Char} {n : Nat} {rest : List Char}

theorem readUnits?_short (hLetter : e ≠ 'u') (hCode : escaped? e = some n) :
    readUnits? ('\\' :: e :: rest) = (readUnits? rest).map fun read => (n :: read.1, read.2) := by
  rw [readUnits?]
  · rw [hCode]
    cases readUnits? rest <;> rfl
  · intros
    simp_all

theorem readUnits?_control (hCode : n < 0x20) :
    readUnits? ('\\' :: 'u' :: '0' :: '0' :: Text.hexDigit (n / 16) :: Text.hexDigit (n % 16) ::
      rest) = (readUnits? rest).map fun read => (n :: read.1, read.2) := by
  have hValue : ∀ n < 0x20, Text.hexValue?
      ['0', '0', Text.hexDigit (n / 16), Text.hexDigit (n % 16)] = some n := by decide
  rw [readUnits?, hValue n hCode]
  cases readUnits? rest <;> rfl

theorem readUnits?_plain (hQuote : c ≠ '"') (hBackslash : c ≠ '\\') (hCode : ¬ c.toNat < 0x20) :
    readUnits? (c :: rest) = (readUnits? rest).map fun read => (c.toNat :: read.1, read.2) := by
  rw [readUnits?]
  · rw [if_neg hCode]
    cases readUnits? rest <;> rfl
  all_goals simp_all

/-- A character is read back, whether or not it is escaped. -/
theorem readUnits?_escapeChar (c : Char) (rest : List Char) :
    readUnits? (escapeChar c ++ rest) =
      (readUnits? rest).map fun read => (c.toNat :: read.1, read.2) := by
  unfold escapeChar
  split_ifs with hQuote hBackslash h8 h9 hA hC hD hControl
  · subst hQuote
    exact readUnits?_short (by decide) rfl
  · subst hBackslash
    exact readUnits?_short (by decide) rfl
  · exact readUnits?_short (by decide) (h8 ▸ rfl)
  · exact readUnits?_short (by decide) (h9 ▸ rfl)
  · exact readUnits?_short (by decide) (hA ▸ rfl)
  · exact readUnits?_short (by decide) (hC ▸ rfl)
  · exact readUnits?_short (by decide) (hD ▸ rfl)
  · exact readUnits?_control hControl
  · exact readUnits?_plain hQuote hBackslash hControl

theorem readUnits?_quoted (cs rest : List Char) :
    readUnits? (cs.flatMap escapeChar ++ '"' :: rest) = some (cs.map Char.toNat, rest) := by
  induction cs with
  | nil => rfl
  | cons c cs ih =>
    rw [List.flatMap_cons, List.append_assoc, readUnits?_escapeChar, ih]
    rfl

/-- No character is half a surrogate pair. -/
theorem joinSurrogates?_toNat (cs : List Char) :
    joinSurrogates? (cs.map Char.toNat) = some cs := by
  induction cs with
  | nil => rfl
  | cons c cs ih =>
    have hValid : c.toNat < 0xD800 ∨ 0xDFFF < c.toNat := by
      rcases c.valid with h | h
      · exact .inl h
      · exact .inr h.1
    have hHigh : isHighSurrogate c.toNat = false := by
      simp only [isHighSurrogate, Bool.and_eq_false_iff, decide_eq_false_iff_not]
      omega
    have hLow : isLowSurrogate c.toNat = false := by
      simp only [isLowSurrogate, Bool.and_eq_false_iff, decide_eq_false_iff_not]
      omega
    rw [List.map_cons, joinSurrogates?.eq_def]
    simp [hHigh, hLow, ih]

/-- **A quoted text is read back.** -/
theorem readString?_quote (s : String) (rest : List Char) :
    ∃ text, (quote s).toList ++ rest = '"' :: text ∧ readString? text = some (some s, rest) := by
  refine ⟨s.toList.flatMap escapeChar ++ '"' :: rest, ?_, ?_⟩
  · simp [quote]
  · rw [readString?, readUnits?_quoted]
    simp [joinSurrogates?_toNat]

end Strings

/-! ## Lines -/

theorem prettyItems_eq_map (level : Nat) (items : List Json) :
    prettyItems level items = items.map (prettyAt level) := by
  induction items with
  | nil => rfl
  | cons item rest ih => rw [prettyItems, ih, List.map_cons]

/-- A member without its indentation. -/
def prettyMember (level : Nat) (m : String × Json) : String :=
  quote m.1 ++ ": " ++ prettyAt level m.2

theorem prettyMembers_eq_map (level : Nat) (members : List (String × Json)) :
    prettyMembers level members = members.map (prettyMember level) := by
  induction members with
  | nil => rfl
  | cons m rest ih =>
    rw [prettyMembers, ih, List.map_cons]
    rfl

theorem gap_nil (rest : List Char) : Gap rest rest :=
  ⟨[], by simp, rfl⟩

/-- A line break, and the blanks in front of the next line. -/
theorem gap_indent (level : Nat) (rest : List Char) :
    Gap ('\n' :: ((indent level).toList ++ rest)) rest := by
  refine ⟨'\n' :: (indent level).toList, fun c hc => ?_, rfl⟩
  rw [indent, String.toList_ofList, List.mem_cons, List.mem_replicate] at hc
  rcases hc with rfl | ⟨-, rfl⟩ <;> simp

/-- Texts on lines of their own, with commas at the ends of all lines but the last. -/
def separated (level : Nat) (lines : List String) : List Char :=
  (",\n".intercalate (lines.map (indent level ++ ·))).toList

theorem separated_singleton (level : Nat) (line : String) :
    separated level [line] = (indent level).toList ++ line.toList := by
  simp [separated]

theorem separated_cons_cons (level : Nat) (line next : String) (lines : List String) :
    separated level (line :: next :: lines) = (indent level).toList ++ (line.toList ++
      ',' :: '\n' :: separated level (next :: lines)) := by
  simp [separated]

theorem toList_bracketed (left right : String) (level : Nat) (line : String)
    (lines : List String) :
    (bracketed left right level (line :: lines)).toList = left.toList ++
      '\n' :: (separated (level + 1) (line :: lines) ++
        '\n' :: ((indent level).toList ++ right.toList)) := by
  simp [bracketed, separated]

section Lines

variable {α : Type} {One : List Char → α → List Char → Prop}
  {Many : List Char → List α → List Char → Prop} {write : α → String}

/-- **Texts on lines of their own** are spelled as many if each of them is spelled as one. -/
theorem spelled_separated (level : Nat)
    (last : ∀ {text text' a after rest}, Gap text text' → One text' a after → Gap after rest →
      Many text [a] rest)
    (more : ∀ {text text' a after b as others rest}, Gap text text' → One text' a after →
      Gap after (',' :: others) → Many others (b :: as) rest → Many text (a :: b :: as) rest)
    {after rest : List Char} (behind : Gap after rest) (a : α) (as : List α)
    (each : ∀ x ∈ a :: as, ∀ rest, One ((write x).toList ++ rest) x rest) :
    Many ('\n' :: (separated level ((a :: as).map write) ++ after)) (a :: as) rest := by
  -- behind a comma the next line begins as the first one does, with a line break
  induction as generalizing a with
  | nil =>
    rw [List.map_singleton, separated_singleton, List.append_assoc]
    exact last (gap_indent level _) (each a List.mem_cons_self after) behind
  | cons b as ih =>
    rw [List.map_cons, List.map_cons, separated_cons_cons, List.append_assoc, List.append_assoc]
    exact more (gap_indent level _) (each a List.mem_cons_self _) (gap_nil _)
      (ih b fun x hx => each x (List.mem_cons_of_mem a hx))

end Lines

/-! ## Values -/

theorem spellsMember_prettyMember {level : Nat} {m : String × Json}
    (h : ∀ rest, Spells ((prettyAt level m.2).toList ++ rest) m.2 rest) (rest : List Char) :
    SpellsMember ((prettyMember level m).toList ++ rest) m rest := by
  obtain ⟨text, hText, hRead⟩ := readString?_quote m.1 (':' :: ' ' ::
    ((prettyAt level m.2).toList ++ rest))
  have hSplit : (prettyMember level m).toList ++ rest = '"' :: text := by
    rw [← hText]
    simp [prettyMember]
  rw [hSplit]
  exact .mk hRead (gap_nil _) ⟨[' '], by simp, rfl⟩ (h rest)

theorem spells_array {level : Nat} {items : List Json}
    (each : ∀ x ∈ items, ∀ rest, Spells ((prettyAt (level + 1) x).toList ++ rest) x rest)
    (rest : List Char) :
    Spells ((prettyAt level (.array items)).toList ++ rest) (.array items) rest := by
  rw [prettyAt, prettyItems_eq_map]
  cases items with
  | nil =>
    have hEmpty : Spells ('[' :: ']' :: rest) (.array []) rest := .array (.none (gap_nil _))
    simpa [bracketed] using hEmpty
  | cons item others =>
    have hLines := spelled_separated (level + 1) SpellsItems.last SpellsItems.more
      (gap_indent level (']' :: rest)) item others each
    rw [List.map_cons, toList_bracketed]
    simpa using Spells.array hLines

theorem spells_object {level : Nat} {members : List (String × Json)}
    (each : ∀ x ∈ members, ∀ rest, Spells ((prettyAt (level + 1) x.2).toList ++ rest) x.2 rest)
    (rest : List Char) :
    Spells ((prettyAt level (.object members)).toList ++ rest) (.object members) rest := by
  rw [prettyAt, prettyMembers_eq_map]
  cases members with
  | nil =>
    have hEmpty : Spells ('{' :: '}' :: rest) (.object []) rest := .object (.none (gap_nil _))
    simpa [bracketed] using hEmpty
  | cons m others =>
    have hLines := spelled_separated (level + 1) SpellsMembers.last SpellsMembers.more
      (gap_indent level ('}' :: rest)) m others
      fun x hx => spellsMember_prettyMember (each x hx)
    rw [List.map_cons, toList_bracketed]
    simpa using Spells.object hLines

/-- **A value is spelled by what is written for it**, whatever its level. -/
theorem spells_prettyAt (level : Nat) (j : Json) (rest : List Char) :
    Spells ((prettyAt level j).toList ++ rest) j rest := by
  cases j with
  | null => exact .null
  | bool b =>
    cases b with
    | false => exact .no
    | true => exact .yes
  | number n => exact .number
  | string s =>
    obtain ⟨text, hText, hRead⟩ := readString?_quote s rest
    rw [prettyAt, hText]
    exact .string hRead
  | array items => exact spells_array (fun x _ rest => spells_prettyAt (level + 1) x rest) rest
  | object members =>
    exact spells_object (fun x _ rest => spells_prettyAt (level + 1) x.2 rest) rest
termination_by sizeOf j
decreasing_by
  -- items are smaller than their array, and the values of members than their object
  · have hLess : sizeOf x < sizeOf items := List.sizeOf_lt_of_mem ‹x ∈ items›
    simp only [array.sizeOf_spec]
    omega
  · have hLess : sizeOf x < sizeOf members := List.sizeOf_lt_of_mem ‹x ∈ members›
    obtain ⟨key, value⟩ := x
    simp only [object.sizeOf_spec, Prod.mk.sizeOf_spec] at hLess ⊢
    omega

/-- **What is written for a value** is a text of it. -/
theorem isTextOf_pretty (j : Json) : IsTextOf j j.pretty.toList := by
  have h := spells_prettyAt 0 j []
  rwa [List.append_nil] at h

end Taskboard.Json
