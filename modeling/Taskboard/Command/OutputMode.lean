import Taskboard.Text.Blank

/-!
# Taskboard — output modes

* `OutputMode` — for people, for pipes, for machines;
* `OutputMode.resolve` — the mode that flags, the environment and preferences ask for.
-/

namespace Taskboard

/-- How output looks. -/
inductive OutputMode where
  | pretty
  | text
  | json
  deriving DecidableEq, Repr

namespace OutputMode

/-- The name of a mode. -/
def name : OutputMode → String
  | .pretty => "pretty"
  | .text => "text"
  | .json => "json"

/-- The mode with a name. -/
def ofName? (name : String) : Option OutputMode :=
  [.pretty, .text, .json].find? fun m => m.name == name

/-- The mode that a word asks for; blanks around it and the case of ASCII letters do not count. -/
def ofText? (text : String) : Option OutputMode :=
  let word := (Text.trim text).toLower
  if word = "human" then some .pretty
  else if word = "table" then some .text
  else ofName? word

/-- The mode to use. The JSON flag comes first, then the environment, then preferences; a word
that names no mode is passed over. What remains depends on where output goes. -/
def resolve (jsonFlag : Bool) (preference environment : Option String) (terminal : Bool) :
    OutputMode :=
  if jsonFlag then .json
  else
    match environment.bind ofText?, preference.bind ofText? with
    | some mode, _ => mode
    | none, some mode => mode
    | none, none => if terminal then .pretty else .text

end OutputMode

end Taskboard
