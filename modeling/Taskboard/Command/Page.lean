/-!
# Taskboard — lines of text

* `padRight`, `padLeft` — a text filled up with blanks to a width, counted in characters;
* `unlines` — lines as a text;
* `rule`, `heading`, `keyed` — the frame of output for people.
-/

namespace Taskboard.Page

/-- Some blanks. -/
def blanks (n : Nat) : String :=
  String.ofList (List.replicate n ' ')

/-- A text at the left of a column. -/
def padRight (width : Nat) (s : String) : String :=
  s ++ blanks (width - s.length)

/-- A text at the right of a column. -/
def padLeft (width : Nat) (s : String) : String :=
  blanks (width - s.length) ++ s

/-- Lines as a text, each with its line break. -/
def unlines (lines : List String) : String :=
  String.join (lines.map (· ++ "\n"))

/-- A horizontal line. -/
def rule : String :=
  String.ofList (List.replicate 72 '-')

/-- A heading above a line. -/
def heading (title : String) : List String :=
  [title, rule]

/-- A key and its value. -/
def keyed (key value : String) : String :=
  padRight 12 (key ++ ":") ++ " " ++ value

end Taskboard.Page
