import Taskboard.Decimal.Layout
import Taskboard.ErrorCode
import Taskboard.FileTree
import Taskboard.Json.Value
import Taskboard.Toml.Reading
import Taskboard.Triage.Report

/-!
# Taskboard — settings

A project may set how triage is done and which query is run when none is given; a user may set how
output looks. Both are TOML documents. What is not set has a standard value, and keys that have no
meaning do not matter.

* `Settings`, `Preferences` — the settings of a project, and those of a user;
* `Settings.ofToml?`, `Preferences.ofToml?` — settings from a document;
* `Settings.check` — the first setting that triage cannot work with;
* `Settings.load`, `Preferences.load` — settings from the contents of a file.
-/

namespace Taskboard

/-- How triage is done. The quiet time is in milliseconds. -/
structure TriageSettings where
  damping       : Float := Decimal.nearest false 85 100
  tolerance     : Float := Decimal.nearest false 1 1000000
  maxIterations : Nat := 100
  quiet         : Nat := 300

/-- The settings of a project. -/
structure Settings where
  triage       : TriageSettings := {}
  defaultQuery : Option String := none

/-- The settings of a user. -/
structure Preferences where
  output : Option String := none
  deriving DecidableEq, Repr

/-- The triage that settings ask for. -/
def TriageSettings.toConfig (s : TriageSettings) : TriageConfig Score where
  ranking := ⟨⟨s.damping, false⟩, ⟨s.tolerance, false⟩, s.maxIterations⟩
  quiet := s.quiet

/-- Settings as a JSON value. -/
def Settings.toJson (s : Settings) : Json :=
  .object
    [("triage", .object
       [("damping", .ofFloat s.triage.damping), ("tolerance", .ofFloat s.triage.tolerance),
        ("max_iter", .ofNat s.triage.maxIterations), ("debounce_ms", .ofNat s.triage.quiet)]),
     ("query", .object [("default", .ofOption .string s.defaultQuery)])]

/-! ## From documents -/

namespace Toml

/-- The text of a string. -/
def string? : Toml → Option String
  | .string s => some s
  | _ => none

/-- The value of a number, written with or without a fraction. -/
def float? : Toml → Option Float
  | .real x => some x
  | .integer n => some (Decimal.nearest (decide (n < 0)) n.natAbs 1)
  | _ => none

/-- The value of an integer that is not negative. -/
def natural? : Toml → Option Nat
  | .integer n => if 0 ≤ n then some n.toNat else none
  | _ => none

/-- The parts of a record, each found by its key or by its place: a table has keys, an array has
places. A time counts as a record without parts. -/
def parts? : Toml → Option (String → Nat → Option Toml)
  | .table _ entries => some fun key _ => entries.lookup key
  | .array items => some fun _ place => items[place]?
  | .tables items => some fun _ place => (items[place]?).map (.table .header)
  | .time _ => some fun _ _ => none
  | _ => none

/-- A part of a record that may be absent. -/
def readPart {α : Type} (part : Option Toml) (absent : α) (read : Toml → Option α) : Option α :=
  match part with
  | none => some absent
  | some value => read value

end Toml

open Toml

/-- Triage settings from a record. -/
def TriageSettings.ofToml? (value : Toml) : Option TriageSettings := do
  let part ← value.parts?
  let standard : TriageSettings := {}
  let damping ← readPart (part "damping" 0) standard.damping float?
  let tolerance ← readPart (part "tolerance" 1) standard.tolerance float?
  let maxIterations ← readPart (part "max_iter" 2) standard.maxIterations natural?
  let quiet ← readPart (part "debounce_ms" 3) standard.quiet natural?
  pure { damping, tolerance, maxIterations, quiet }

/-- The default query from a record. -/
def defaultQueryOfToml? (value : Toml) : Option (Option String) := do
  let part ← value.parts?
  readPart (part "default" 0) none fun v => v.string?.map some

/-- Settings from the contents of a document. -/
def Settings.ofToml? (entries : Entries) : Option Settings := do
  let triage ← readPart (entries.lookup "triage") {} TriageSettings.ofToml?
  let defaultQuery ← readPart (entries.lookup "query") none defaultQueryOfToml?
  pure { triage, defaultQuery }

/-- Preferences from the contents of a document. -/
def Preferences.ofToml? (entries : Entries) : Option Preferences := do
  let output ← readPart (entries.lookup "output") none fun v => v.string?.map some
  pure { output }

/-! ## Checks -/

/-- A setting that triage cannot work with. -/
inductive BadSetting where
  | damping (x : Float)
  | tolerance (x : Float)
  | maxIterations

/-- The wording of a bad setting. -/
def BadSetting.message (bad : BadSetting) : String :=
  ErrorCode.settingsMalformed.code ++ ": " ++
  match bad with
  | .damping x => "triage.damping must be in (0, 1), got " ++ Decimal.plain.format x
  | .tolerance x => "triage.tolerance must be positive, got " ++ Decimal.plain.format x
  | .maxIterations => "triage.max_iter must be at least 1"

/-- The first setting that triage cannot work with. -/
def TriageSettings.check (s : TriageSettings) : Option BadSetting :=
  if !(0 < s.damping && s.damping < 1) then some (.damping s.damping)
  else if !(Json.isFinite s.tolerance && 0 < s.tolerance) then some (.tolerance s.tolerance)
  else if s.maxIterations = 0 then some .maxIterations
  else none

/-! ## From files -/

/-- Why settings cannot be used. What makes a document malformed is in the words of the reader that
refuses it. -/
inductive SettingsError where
  | unreadable (path : String) (cause : FileError)
  | malformed (path cause : String)
  | bad (path : String) (setting : BadSetting)

namespace SettingsError

/-- What has failed. -/
def context : SettingsError → String
  | .unreadable path _ => "Failed to read " ++ path
  | .malformed path _ => ErrorCode.settingsMalformed.code ++ ": failed to parse " ++ path
  | .bad path _ => "Invalid settings in " ++ path

/-- Why it has failed. -/
def cause : SettingsError → String
  | .unreadable _ cause => cause.message
  | .malformed _ cause => cause
  | .bad _ setting => setting.message

/-- Why settings cannot be used, after what has failed. -/
def message (e : SettingsError) : String :=
  e.context ++ ": " ++ e.cause

end SettingsError

/-- A document from the contents of a file. An absent file is like an empty one. `refusal` is what
the reader says about a text that it refuses. -/
def loadToml {α : Type} (refusal : String → String) (path : String) (read : Entries → Option α)
    (absent : α) : Option Contents → Except SettingsError α
  | none => .ok absent
  | some (.error cause) => .error (.unreadable path cause)
  | some (.ok text) =>
    match Toml.parse? text >>= read with
    | some value => .ok value
    | none => .error (.malformed path (refusal text))

/-- The settings that a file holds. -/
def Settings.load (refusal : String → String) (path : String) (file : Option Contents) :
    Except SettingsError Settings := do
  let settings ← loadToml refusal path Settings.ofToml? {} file
  match settings.triage.check with
  | none => .ok settings
  | some setting => .error (.bad path setting)

/-- The preferences that a file holds. -/
def Preferences.load (refusal : String → String) (path : String) (file : Option Contents) :
    Except SettingsError Preferences :=
  loadToml refusal path Preferences.ofToml? {} file

end Taskboard
