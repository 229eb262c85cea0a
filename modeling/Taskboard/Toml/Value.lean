/-!
# Taskboard — TOML values

* `Toml` — a value of a TOML document;
* `TableOrigin` — how a table came about, which decides how it may still grow;
* `Toml.Entries` — the contents of a table;
* `Toml.Entries.put`, `Toml.Entries.add?` — a table with a value under a key;
* `Toml.Entries.alter?` — a change to the table at the end of a path.
-/

namespace Taskboard

/-- How a table came about: in braces, by a header of its own, by a header of a table inside it,
or by a dotted key. -/
inductive TableOrigin where
  | inline
  | header
  | implied
  | dotted
  deriving DecidableEq, Repr

/-- A TOML value. Tables that were written one by one under a common header are kept apart from
arrays in brackets, since only they may still grow. -/
inductive Toml where
  | string (s : String)
  | integer (n : Int)
  | real (x : Float)
  | bool (b : Bool)
  | time (text : String)
  | array (items : List Toml)
  | table (origin : TableOrigin) (entries : List (String × Toml))
  | tables (items : List (List (String × Toml)))

namespace Toml

/-- The contents of a table. -/
abbrev Entries := List (String × Toml)

namespace Entries

/-- A table with a value under a key, in the place of the one that is there. -/
def put (key : String) (value : Toml) : Entries → Entries
  | [] => [(key, value)]
  | entry :: rest => if entry.1 = key then (key, value) :: rest else entry :: put key value rest

/-- A table with a value under a new key. -/
def add? (key : String) (value : Toml) (entries : Entries) : Option Entries :=
  match entries.lookup key with
  | none => some (entries ++ [(key, value)])
  | some _ => none

/-- Changes the table at the end of a path. What is missing on the way is made; in a list of
tables the way goes through the last one. A dotted path does not enter tables that have a header,
and no path enters braces. -/
def alter? (dotted : Bool) (change : TableOrigin → Entries → Option Entries) :
    List String → TableOrigin → Entries → Option Entries
  | [], origin, entries => change origin entries
  | key :: path, _, entries =>
    match entries.lookup key with
    | none => do
      -- tables on the way owe their existence to the path
      let origin := if dotted then .dotted else .implied
      let made ← alter? dotted change path origin []
      pure (entries ++ [(key, .table origin made)])
    | some (.table origin inner) =>
      if origin = .inline ∨ (dotted ∧ origin = .header) then none
      else do
        let changed ← alter? dotted change path origin inner
        pure (put key (.table origin changed) entries)
    | some (.tables items) => do
      let last ← items.getLast?
      let changed ← alter? dotted change path .header last
      pure (put key (.tables (items.dropLast ++ [changed])) entries)
    | some _ => none

end Entries

end Toml

end Taskboard
