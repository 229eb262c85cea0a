import Taskboard.Toml.Document
import Taskboard.Toml.Number

/-!
# Taskboard — reading TOML

* `readKey?` — a dotted key;
* `readValue?` — a value;
* `readStatement?` — a statement, or the blanks and comments between two of them;
* `Toml.parse?` — the contents of the document that a text writes.
-/

namespace Taskboard.Toml

/-- How many brackets may stand inside one another, and how many parts a key may have. -/
def maxLevels : Nat := 79

/-! ## Blanks -/

/-- Skips spaces and tabulators. -/
def skipSpaces (cs : List Char) : List Char :=
  cs.dropWhile fun c => c == ' ' || c == '\t'

/-- Skips blanks, line breaks and comments. Inside a comment everything up to the end of the line
is skipped. -/
def skipFiller (inComment : Bool) : List Char → List Char
  | [] => []
  | '\r' :: '\n' :: rest => skipFiller false rest
  | '\n' :: rest => skipFiller false rest
  | c :: rest =>
    if inComment then if isPlain c then skipFiller true rest else c :: rest
    else if c = '#' then skipFiller true rest
    else if c = ' ' ∨ c = '\t' then skipFiller false rest
    else c :: rest

/-- Skips the rest of a line: blanks, a comment, and the line break or the end of the text. -/
def skipLine? (cs : List Char) : Option (List Char) :=
  let rest := match skipSpaces cs with
    | '#' :: comment => comment.dropWhile isPlain
    | other => other
  match rest with
  | [] => some []
  | '\n' :: after => some after
  | '\r' :: '\n' :: after => some after
  | _ => none

/-! ## Keys -/

/-- Whether a character may stand in a key without quotes. -/
def isBare (c : Char) : Bool :=
  c.isAlphanum || c == '_' || c == '-'

/-- Reads one part of a key. -/
def readPart? : Reader String
  | '"' :: rest => (readBasic? rest).map fun r => (String.ofList r.1, r.2)
  | '\'' :: rest => (readLiteral? rest).map fun r => (String.ofList r.1, r.2)
  | cs =>
    let bare := cs.takeWhile isBare
    if bare.isEmpty then none else some (String.ofList bare, cs.dropWhile isBare)

/-- Reads a key of at most `parts` parts, and the blanks around it. -/
def readParts? : (parts : Nat) → Reader Key
  | 0, _ => none
  | parts + 1, cs => do
    let (part, rest) ← readPart? (skipSpaces cs)
    match skipSpaces rest with
    | '.' :: rest => do
      let (key, rest) ← readParts? parts rest
      pure (⟨part :: key.path, key.name⟩, rest)
    | rest => pure (⟨[], part⟩, rest)

/-- Reads a key, and the blanks around it. -/
def readKey? : Reader Key :=
  readParts? maxLevels

/-! ## Values -/

/-- Reads a value that is neither an array nor a table. -/
def readSimple? (cs : List Char) : Option (Toml × List Char) :=
  match cs with
  | 't' :: 'r' :: 'u' :: 'e' :: rest => some (.bool true, rest)
  | 'f' :: 'a' :: 'l' :: 's' :: 'e' :: rest => some (.bool false, rest)
  | '"' :: _ => (readString? cs).map fun r => (.string r.1, r.2)
  | '\'' :: _ => (readString? cs).map fun r => (.string r.1, r.2)
  | _ => if startsDate cs || startsClock cs then readTime? cs else readNumber? cs

mutual

/-- Reads a value, in which at most `levels` brackets stand inside one another. `fuel` bounds the
number of steps. -/
def readValue? : (fuel levels : Nat) → Reader Toml
  | 0, _, _ => none
  | fuel + 1, levels, cs =>
    match cs, levels with
    | '[' :: _, 0 => none
    | '{' :: _, 0 => none
    | '[' :: rest, levels + 1 => do
      let (items, rest) ← readItems? fuel levels rest
      pure (.array items, rest)
    | '{' :: rest, levels + 1 =>
      match skipSpaces rest with
      | '}' :: rest => some (.table .inline [], rest)
      | rest => do
        let (assignments, rest) ← readAssignments? fuel levels rest
        let entries ← Entries.ofAssignments? assignments
        pure (.table .inline entries, rest)
    | _, _ => readSimple? cs

/-- Reads the items of an array and its closing bracket. A comma may stand behind the last one. -/
def readItems? : (fuel levels : Nat) → Reader (List Toml)
  | 0, _, _ => none
  | fuel + 1, levels, cs =>
    match skipFiller false cs with
    | ']' :: rest => some ([], rest)
    | start => do
      let (item, rest) ← readValue? fuel levels start
      match skipFiller false rest with
      | ',' :: rest => do
        let (items, rest) ← readItems? fuel levels rest
        pure (item :: items, rest)
      | ']' :: rest => pure ([item], rest)
      | _ => none

/-- Reads the assignments of a table in braces and its closing brace. -/
def readAssignments? : (fuel levels : Nat) → Reader (List (Key × Toml))
  | 0, _, _ => none
  | fuel + 1, levels, cs => do
    let (key, rest) ← readKey? cs
    let rest ← skipChar? '=' rest
    let (value, rest) ← readValue? fuel levels (skipSpaces rest)
    match skipSpaces rest with
    | ',' :: rest => do
      let (assignments, rest) ← readAssignments? fuel levels rest
      pure ((key, value) :: assignments, rest)
    | '}' :: rest => pure ([(key, value)], rest)
    | _ => none

end

/-! ## Statements -/

/-- Reads a header behind its opening brackets. -/
def readHeader? (closing : List Char) (cs : List Char) : Option (Key × List Char) := do
  let (key, rest) ← readKey? cs
  let rest ← closing.foldlM (fun rest c => skipChar? c rest) rest
  pure (key, rest)

/-- Reads an assignment. Each step into a value consumes a character or opens an item, so twice
the length of the text bounds their number. -/
def readAssignment? (cs : List Char) : Option (Statement × List Char) := do
  let (key, rest) ← readKey? cs
  let rest ← skipChar? '=' rest
  let (value, rest) ← readValue? (2 * rest.length + 2) maxLevels (skipSpaces rest)
  pure (.assignment key value, rest)

/-- Reads a line, or as many lines as a statement takes. It need not hold a statement. -/
def readStatement? (cs : List Char) : Option (Option Statement × List Char) :=
  match skipSpaces cs with
  | '[' :: '[' :: rest => do
    let (key, rest) ← readHeader? [']', ']'] rest
    pure (some (.tables key), ← skipLine? rest)
  | '[' :: rest => do
    let (key, rest) ← readHeader? [']'] rest
    pure (some (.table key), ← skipLine? rest)
  | [] => some (none, [])
  | c :: rest =>
    if c = '#' ∨ c = '\n' ∨ c = '\r' then do pure (none, ← skipLine? (c :: rest))
    else do
      let (statement, rest) ← readAssignment? (c :: rest)
      pure (some statement, ← skipLine? rest)

/-- Reads all statements of a text. Each line must take something away. -/
def readStatements? (cs : List Char) : Option (List Statement) :=
  if cs.isEmpty then some []
  else
    match readStatement? cs with
    | none => none
    | some (statement, rest) =>
      -- always so, since a statement is not empty and a line has a break
      if rest.length < cs.length then
        (readStatements? rest).map fun statements => statement.toList ++ statements
      else none
termination_by cs.length

/-- A text without the mark of the order of bytes that it may begin with. -/
def skipMark : List Char → List Char
  | '\uFEFF' :: rest => rest
  | cs => cs

/-- The contents of the document that a text writes. -/
def parse? (text : String) : Option Entries :=
  readStatements? (skipMark text.toList) >>= Entries.ofStatements?

end Taskboard.Toml
