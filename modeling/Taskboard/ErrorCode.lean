/-!
# Taskboard — error codes

* `ErrorCode` — the kinds of failure that a user may meet;
* `ErrorCode.code`, `ErrorCode.slug` — their stable names;
* `ErrorCode.message`, `ErrorCode.hint` — what they mean, and what helps.
-/

namespace Taskboard

/-- A kind of failure. -/
inductive ErrorCode where
  | settingsMalformed
  | itemsUnreadable
  | itemsMalformed
  | queryMalformed
  | presetUnknown
  deriving DecidableEq, Repr

namespace ErrorCode

/-- All kinds, in the order of their codes. -/
def all : List ErrorCode :=
  [.settingsMalformed, .itemsUnreadable, .itemsMalformed, .queryMalformed, .presetUnknown]

/-- The number of a kind. -/
def code : ErrorCode → String
  | .settingsMalformed => "E1002"
  | .itemsUnreadable => "E2001"
  | .itemsMalformed => "E2002"
  | .queryMalformed => "E4001"
  | .presetUnknown => "E4002"

/-- The name of a kind in structured output. -/
def slug : ErrorCode → String
  | .settingsMalformed => "config_parse_error"
  | .itemsUnreadable => "items_file_unreadable"
  | .itemsMalformed => "items_file_invalid"
  | .queryMalformed => "query_parse_error"
  | .presetUnknown => "unknown_preset"

/-- What a kind means. -/
def message : ErrorCode → String
  | .settingsMalformed => "Config file parse error"
  | .itemsUnreadable => "Items file could not be read"
  | .itemsMalformed => "Items file is not a JSON array of work items"
  | .queryMalformed => "Query could not be parsed"
  | .presetUnknown => "Unknown query preset"

/-- What helps against a kind. -/
def hint : ErrorCode → String
  | .settingsMalformed => "Fix syntax in .plank/config.toml and retry."
  | .itemsUnreadable => "Pass an existing file with --items."
  | .itemsMalformed => "Export the board as a JSON array of objects with at least an `id`."
  | .queryMalformed => "Combine field:value terms with AND, OR, NOT and balanced parentheses."
  | .presetUnknown => "Run `pk presets` to list available presets."

end ErrorCode

end Taskboard
