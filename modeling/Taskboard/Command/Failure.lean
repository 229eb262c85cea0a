import Taskboard.Command.OutputMode
import Taskboard.ErrorCode
import Taskboard.Json.Writing
import Taskboard.Settings

/-!
# Taskboard — failures of a command

* `Failure` — the kind of a failure and what it is about;
* `Failure.ofSettings` — a failure of the settings;
* `Failure.render` — how a failure is shown in a mode;
* `Outcome` — what a command leaves behind.
-/

namespace Taskboard

/-- A failure. The detail, if there is one, is in the words of whatever could not read a file: the
system, or the reader of its format. -/
structure Failure where
  code   : ErrorCode
  text   : String
  detail : Option String := none
  deriving DecidableEq, Repr

namespace Failure

/-- What has failed. -/
def message (f : Failure) : String :=
  match f.detail with
  | some detail => f.text ++ ": " ++ detail
  | none => f.text

/-- Settings that cannot be used. -/
def ofSettings (e : SettingsError) : Failure :=
  match e with
  | .bad .. => ⟨.settingsMalformed, e.message, none⟩
  | _ => ⟨.settingsMalformed, e.context, some e.cause⟩

/-- A failure as a JSON value, the keys in ascending order. -/
def toJson (f : Failure) : Json :=
  .object
    [("error", .object
       [("error_code", .string f.code.slug), ("message", .string f.message),
        ("suggestion", .string f.code.hint)])]

/-- A failure as it is shown. -/
def render (f : Failure) : OutputMode → String
  | .json => f.toJson.pretty ++ "\n"
  | _ => "error: " ++ f.message ++ "\n  suggestion: " ++ f.code.hint ++ "\n"

/-- The last line of a command that has failed. -/
def lastLine (f : Failure) : String :=
  "Error: " ++ f.code.code ++ " " ++ f.code.message ++ ": " ++ f.message ++ "\n"

end Failure

/-- What a command leaves behind: its exit status, its output, and what it reports as an error. The
last goes to the standard error, where the lines of the log stand in front of it; they are no part
of `errors`. -/
structure Outcome where
  status : Nat
  output : String
  errors : String
  deriving DecidableEq, Repr

end Taskboard
