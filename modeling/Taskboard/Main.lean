import Taskboard.Command.Run

/-!
# Taskboard — the program

Collects what a command may look at, runs the command, and writes what comes out.
-/

namespace Taskboard

/-- Why the system could not read a file. A path through a file does not open; a directory opens
but has no bytes. A name that is too long is one of the arguments that are invalid. -/
def fileError (e : IO.Error) : FileError :=
  match e with
  | .noFileOrDirectory _ _ _ => .notFound
  | .inappropriateType (some _) _ _ => .notDirectory
  | .inappropriateType none _ _ => .isDirectory
  | .invalidArgument _ _ "name too long" => .nameTooLong
  | .permissionDenied _ _ _ => .notPermitted
  | _ => .other (toString e)

/-- The text of a file. -/
def readText (path : String) : IO Contents := do
  match ← (IO.FS.readBinFile path).toBaseIO with
  | .error e => pure (.error (fileError e))
  | .ok bytes =>
    match String.fromUTF8? bytes with
    | some text => pure (.ok text)
    | none => pure (.error .notText)

/-- The text of a file that need not be there. -/
def readTextIfThere (path : String) : IO (Option Contents) := do
  match ← readText path with
  | .error .notFound => pure none
  | .error .notDirectory => pure none
  | .error .nameTooLong => pure none
  | contents => pure (some contents)

/-- The directory of the user's settings. -/
def preferencesDirectory : IO String := do
  match ← IO.getEnv "XDG_CONFIG_HOME" with
  | some path => pure path
  | none => pure (((← IO.getEnv "HOME").getD "") ++ "/.config")

/-- What is said about texts that are refused. -/
def wording : Wording where
  settings _ := "not a TOML document with values of the right kinds"
  preferences _ := "not a TOML document with values of the right kinds"
  items _ := "not a JSON array of work items"

/-- A line of the log. -/
def logLine (notice : Notice) : String :=
  let fields := notice.fields.map fun field => " " ++ field.1 ++ "=" ++ field.2.compact
  " WARN pk: " ++ notice.message ++ String.join fields ++ "\n"

/-- What an invocation may look at. -/
def lookAround (i : Invocation) : IO Workspace := do
  let here ← IO.currentDir
  let settingsPath := here.toString ++ "/.plank/config.toml"
  let preferencesPath := (← preferencesDirectory) ++ "/plank/config.toml"
  pure
    { formatVariable := ← IO.getEnv "FORMAT"
      settingsPath
      settings := ← readTextIfThere settingsPath
      preferencesPath
      preferences := ← readTextIfThere preferencesPath
      items := ← readText i.items
      wording }

/-- The arguments that are understood. -/
def usage : String :=
  "usage: pk [--items PATH] [--json] [--format pretty|text|json] [-v]\n" ++
  "          filter [QUERY | --preset ID] | validate QUERY | presets | triage [--limit N]\n"

end Taskboard

open Taskboard

/-- Runs a command line. -/
def main (args : List String) : IO UInt32 := do
  match Invocation.parse? args with
  | none =>
    (← IO.getStderr).putStr usage
    pure 2
  | some i =>
    let output ← IO.getStdout
    let workspace ← lookAround i
    let terminal ← output.isTty
    let outcome := execute i workspace terminal
    let log notices := String.join (notices.map logLine)
    output.putStr outcome.output
    (← IO.getStderr).putStr (i.standardError log workspace terminal)
    pure outcome.status.toUInt32
