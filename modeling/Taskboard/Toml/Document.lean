import Taskboard.Toml.Value

/-!
# Taskboard — TOML documents

A document is a list of statements. Headers say which table the assignments that follow belong
to. No table is defined twice, and no key is assigned twice.

* `Toml.Key` — a key with the tables in front of it;
* `Toml.Statement` — a header or an assignment;
* `Toml.Entries.assign?` — an assignment to a table;
* `Toml.Entries.ofStatements?` — the contents of a document.
-/

namespace Taskboard.Toml

/-- The last part of a dotted key, and the parts in front of it. -/
structure Key where
  path : List String
  name : String
  deriving DecidableEq, Repr

/-- All parts of a key. -/
def Key.parts (key : Key) : List String :=
  key.path ++ [key.name]

/-- A statement: `[key]`, `[[key]]` or `key = value`. -/
inductive Statement where
  | table (key : Key)
  | tables (key : Key)
  | assignment (key : Key) (value : Toml)

namespace Entries

/-- A table with an assignment. A dotted key makes the tables on its way, and adds only to such
tables. -/
def assign? (key : Key) (value : Toml) (entries : Entries) : Option Entries :=
  if key.path = [] then entries.add? key.name value
  else
    entries.alter? true
      (fun origin inner => if origin = .dotted then inner.add? key.name value else none)
      key.path .header

/-- A table with a header. It may be there already if only headers of tables inside it, and no
dotted keys, have made it. -/
def openTable? (key : Key) (entries : Entries) : Option Entries :=
  entries.alter? false
    (fun _ inner =>
      match inner.lookup key.name with
      | none => some (inner.put key.name (.table .header []))
      -- made on the way to a table inside it, and now defined
      | some (.table .implied contents) => some (inner.put key.name (.table .header contents))
      | some _ => none)
    key.path .header

/-- One more table in a list of tables. -/
def appendTable? (key : Key) (entries : Entries) : Option Entries :=
  entries.alter? false
    (fun _ inner =>
      match inner.lookup key.name with
      | none => some (inner.put key.name (.tables [[]]))
      | some (.tables items) => some (inner.put key.name (.tables (items ++ [[]])))
      | some _ => none)
    key.path .header

/-- The contents of a document after a statement. The path of the last header goes along. -/
def step? (state : List String × Entries) : Statement → Option (List String × Entries)
  | .table key => (state.2.openTable? key).map fun entries => (key.parts, entries)
  | .tables key => (state.2.appendTable? key).map fun entries => (key.parts, entries)
  | .assignment key value =>
    (state.2.alter? false (fun _ inner => inner.assign? key value) state.1 .header).map
      fun entries => (state.1, entries)

/-- The contents of a document. -/
def ofStatements? (statements : List Statement) : Option Entries :=
  (statements.foldlM step? ([], [])).map Prod.snd

/-- The contents of a table in braces. -/
def ofAssignments? (assignments : List (Key × Toml)) : Option Entries :=
  assignments.foldlM (fun entries a => entries.assign? a.1 a.2) []

end Entries

end Taskboard.Toml
