import Taskboard.Text.Hexadecimal

/-!
# Taskboard — strings of TOML

Basic strings stand in double quotes and have escapes, literal strings stand in apostrophes and
have none. With three quotes on either side a string may go over several lines.

* `Reader` — reads something at the beginning of a text and returns what follows;
* `readBasic?`, `readLiteral?` — strings on one line, behind the opening quote;
* `readBasicLines?`, `readLiteralLines?` — strings over several lines, behind the opening quotes;
* `readString?` — a string of any kind.
-/

namespace Taskboard.Toml

/-- Reads something at the beginning of a text and returns it with what follows. -/
abbrev Reader (α : Type) := List Char → Option (α × List Char)

/-- Whether a character may stand in comments and strings: all but control characters, and the
tabulator. -/
def isPlain (c : Char) : Bool :=
  c == '\t' || (0x20 ≤ c.toNat && c.toNat != 0x7F)

/-- Puts characters in front of what has been read. -/
def prepend (cs : List Char) : Option (List Char × List Char) → Option (List Char × List Char) :=
  Option.map fun r => (cs ++ r.1, r.2)

/-! ## Escapes -/

/-- The character with a code point, if there is one. -/
def charOf? (n : Nat) : Option Char :=
  if n.isValidChar then some (Char.ofNat n) else none

/-- The character that a backslash and a letter or sign write. -/
def escaped? : Char → Option Char
  | 'b' => some '\x08'
  | 't' => some '\t'
  | 'n' => some '\n'
  | 'f' => some '\x0c'
  | 'r' => some '\r'
  | '"' => some '"'
  | '\\' => some '\\'
  | _ => none

/-- Reads an escape behind its backslash: a letter or sign, or a code point in four or eight
hexadecimal digits. -/
def readEscape? : Reader Char
  | 'u' :: rest =>
    if rest.length < 4 then none
    else do
      let c ← Text.hexValue? (rest.take 4) >>= charOf?
      pure (c, rest.drop 4)
  | 'U' :: rest =>
    if rest.length < 8 then none
    else do
      let c ← Text.hexValue? (rest.take 8) >>= charOf?
      pure (c, rest.drop 8)
  | e :: rest => (escaped? e).map fun c => (c, rest)
  | [] => none

/-- An escape leaves less to read. -/
theorem length_readEscape_lt {cs : List Char} {c : Char} {rest : List Char}
    (h : readEscape? cs = some (c, rest)) : rest.length < cs.length := by
  unfold readEscape? at h
  split at h
  · split at h
    · cases h
    · simp only [Option.bind_eq_bind, Option.bind_eq_some_iff, Option.pure_def,
        Option.some.injEq, Prod.mk.injEq] at h
      obtain ⟨_, _, _, rfl⟩ := h
      simp only [List.length_drop, List.length_cons]
      omega
  · split at h
    · cases h
    · simp only [Option.bind_eq_bind, Option.bind_eq_some_iff, Option.pure_def,
        Option.some.injEq, Prod.mk.injEq] at h
      obtain ⟨_, _, _, rfl⟩ := h
      simp only [List.length_drop, List.length_cons]
      omega
  · simp only [Option.map_eq_some_iff, Prod.mk.injEq] at h
    obtain ⟨_, _, _, rfl⟩ := h
    simp
  · cases h

/-! ## One line -/

/-- Reads a basic string up to its closing quote. -/
def readBasic? (cs : List Char) : Option (List Char × List Char) :=
  match cs with
  | [] => none
  | '"' :: rest => some ([], rest)
  | '\\' :: rest =>
    match _h : readEscape? rest with
    | none => none
    | some (c, after) => prepend [c] (readBasic? after)
  | c :: rest => if isPlain c then prepend [c] (readBasic? rest) else none
termination_by cs.length
decreasing_by
  · exact Nat.lt_succ_of_lt (length_readEscape_lt _h)
  · simp

/-- Reads a literal string up to its closing quote. -/
def readLiteral? : List Char → Option (List Char × List Char)
  | [] => none
  | '\'' :: rest => some ([], rest)
  | c :: rest => if isPlain c then prepend [c] (readLiteral? rest) else none

/-! ## Several lines -/

/-- The end of a string with three quotes, behind them: up to two more belong to the string. -/
def closeLines (quote : Char) : List Char → List Char × List Char
  | a :: b :: rest =>
    if a = quote then if b = quote then ([quote, quote], rest) else ([quote], b :: rest)
    else ([], a :: b :: rest)
  | [a] => if a = quote then ([quote], []) else ([], [a])
  | [] => ([], [])

/-- A text without the line break that it begins with. -/
def skipBreak : List Char → List Char
  | '\n' :: rest => rest
  | '\r' :: '\n' :: rest => rest
  | cs => cs

/-- Whether nothing but spaces and tabulators stand in front of the next line break. -/
def endsLine : List Char → Bool
  | '\n' :: _ => true
  | '\r' :: '\n' :: _ => true
  | c :: rest => (c == ' ' || c == '\t') && endsLine rest
  | [] => false

/-- Reads a basic string over several lines. A backslash at the end of a line joins it to the next
text; `joining` tells that blanks and line breaks are dropped here. -/
def readBasicLines? (joining : Bool) (cs : List Char) : Option (List Char × List Char) :=
  match cs with
  | [] => none
  | '"' :: '"' :: '"' :: rest => some (closeLines '"' rest)
  | '\r' :: '\n' :: rest =>
    if joining then readBasicLines? true rest else prepend ['\n'] (readBasicLines? false rest)
  | '\n' :: rest =>
    if joining then readBasicLines? true rest else prepend ['\n'] (readBasicLines? false rest)
  | '\\' :: rest =>
    -- a backslash at the end of a line is no escape
    if endsLine rest then readBasicLines? true rest
    else
      match _h : readEscape? rest with
      | none => none
      | some (c, after) => prepend [c] (readBasicLines? false after)
  | c :: rest =>
    if joining && (c == ' ' || c == '\t') then readBasicLines? true rest
    else if isPlain c then prepend [c] (readBasicLines? false rest)
    else none
termination_by cs.length
decreasing_by
  all_goals first
    | exact Nat.lt_succ_of_lt (length_readEscape_lt _h)
    | (simp only [List.length_cons]; omega)

/-- Reads a literal string over several lines. -/
def readLiteralLines? : List Char → Option (List Char × List Char)
  | [] => none
  | '\'' :: '\'' :: '\'' :: rest => some (closeLines '\'' rest)
  | '\r' :: '\n' :: rest => prepend ['\n'] (readLiteralLines? rest)
  | '\n' :: rest => prepend ['\n'] (readLiteralLines? rest)
  | c :: rest => if isPlain c then prepend [c] (readLiteralLines? rest) else none

/-! ## Any kind -/

/-- Reads a string of any kind. A line break right behind three quotes does not count. -/
def readString? (cs : List Char) : Option (String × List Char) :=
  let chars := match cs with
    | '"' :: '"' :: '"' :: rest => readBasicLines? false (skipBreak rest)
    | '"' :: rest => readBasic? rest
    | '\'' :: '\'' :: '\'' :: rest => readLiteralLines? (skipBreak rest)
    | '\'' :: rest => readLiteral? rest
    | _ => none
  chars.map fun r => (String.ofList r.1, r.2)

end Taskboard.Toml
