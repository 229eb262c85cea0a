import Taskboard.Board.Item
import Taskboard.Json.Reading

/-!
# Taskboard — items as JSON

An item is an object with fourteen known members, all of them optional; a member under any other
key is a further property. Written, it has all known members and then the further ones.

* `Json.field?` — the value of a member that may be absent but not repeated;
* `WorkItem.ofJson?`, `WorkItem.toJson` — an item as a value;
* `WorkItem.read?`, `Board.read?` — an item, or a list of items, from a text.
-/

namespace Taskboard

namespace Json

/-- The text of a string. -/
def string? : Json → Option String
  | .string s => some s
  | _ => none

/-- The truth value of a boolean. -/
def bool? : Json → Option Bool
  | .bool b => some b
  | _ => none

/-- The number of an integer between 0 and 2^64 - 1. -/
def natural? : Json → Option Nat
  | .number (.integer n) => if 0 ≤ n ∧ n < Nat.pow 2 64 then some n.toNat else none
  | _ => none

/-- The number of an integer that 64 bits hold. -/
def word? (j : Json) : Option UInt64 :=
  j.natural?.map Nat.toUInt64

/-- The texts of an array of strings. -/
def strings? : Json → Option (List String)
  | .array items => items.mapM string?
  | _ => none

/-- A reading to which `null` means absence. -/
def nullable {α : Type} (read : Json → Option α) : Json → Option (Option α)
  | .null => some none
  | j => (read j).map some

/-- The member of an object under a key: `absent` when it is missing, refused when it is there
twice. -/
def field? {α : Type} (members : List (String × Json)) (key : String) (absent : α)
    (read : Json → Option α) : Option α :=
  match members.filter fun m => m.1 == key with
  | [] => some absent
  | [m] => read m.2
  | _ => none

/-- The item of an array at an index, `absent` when the array ends before it. -/
def position? {α : Type} (items : List Json) (index : Nat) (absent : α)
    (read : Json → Option α) : Option α :=
  match items[index]? with
  | none => some absent
  | some j => read j

/-- A constant by its name, or as the only key of an object whose value is `null`. -/
def constant? {α : Type} (ofName? : String → Option α) : Json → Option α
  | .string s => ofName? s
  | .object [(key, .null)] => ofName? key
  | _ => none

end Json

open Json

namespace PullRequest

/-- The members that are read. -/
def keys : List String :=
  ["number", "url", "state"]

/-- A pull request as an object, or as an array of its parts in order. -/
def ofJson? : Json → Option PullRequest
  | .object members => do
    let number ← field? members "number" 0 word?
    let url ← field? members "url" none (nullable string?)
    let state ← field? members "state" .opened (constant? PrState.ofName?)
    pure { number, url, state }
  | .array items =>
    if items.length > 3 then none
    else do
      let number ← position? items 0 0 word?
      let url ← position? items 1 none (nullable string?)
      let state ← position? items 2 .opened (constant? PrState.ofName?)
      pure { number, url, state }
  | _ => none

/-- A pull request as an object. -/
def toJson (p : PullRequest) : Json :=
  .object [("number", .ofNat p.number.toNat), ("url", ofOption .string p.url),
    ("state", .string p.state.name)]

end PullRequest

namespace AgentSession

/-- The members that are read. -/
def keys : List String :=
  ["name", "state"]

/-- An agent session as an object, or as an array of its parts in order. -/
def ofJson? : Json → Option AgentSession
  | .object members => do
    let name ← field? members "name" "" string?
    let state ← field? members "state" .idle (constant? AgentState.ofName?)
    pure { name, state }
  | .array items =>
    if items.length > 2 then none
    else do
      let name ← position? items 0 "" string?
      let state ← position? items 1 .idle (constant? AgentState.ofName?)
      pure { name, state }
  | _ => none

/-- An agent session as an object. -/
def toJson (a : AgentSession) : Json :=
  .object [("name", .string a.name), ("state", .string a.state.name)]

end AgentSession

namespace WorkItem

/-- The members that have a meaning. -/
def keys : List String :=
  ["id", "title", "description", "status", "priority", "labels", "blockedBy", "blocking",
   "assignee", "branch", "pr", "agent", "ready", "criticalPath"]

/-- The item that an object writes. -/
def ofMembers? (members : List (String × Json)) : Option WorkItem := do
  let id ← field? members "id" "" string?
  let title ← field? members "title" "" string?
  let description ← field? members "description" none (nullable string?)
  let status ← field? members "status" none (nullable string?)
  let priority ← field? members "priority" .medium fun j => some (Priority.ofJson j)
  let labels ← field? members "labels" [] strings?
  let blockedBy ← field? members "blockedBy" none (nullable strings?)
  let blocking ← field? members "blocking" none (nullable strings?)
  let assignee ← field? members "assignee" none (nullable string?)
  let branch ← field? members "branch" none (nullable string?)
  let pullRequest ← field? members "pr" none (nullable PullRequest.ofJson?)
  let agent ← field? members "agent" none (nullable AgentSession.ofJson?)
  let ready ← field? members "ready" false bool?
  let criticalPath ← field? members "criticalPath" false bool?
  let extra := Properties.ofList (members.filter fun m => !keys.contains m.1)
  pure { id, title, description, status, priority, labels, blockedBy, blocking, assignee, branch,
         pullRequest, agent, ready, criticalPath, extra }

/-- The item that a value writes. -/
def ofJson? : Json → Option WorkItem
  | .object members => ofMembers? members
  | _ => none

/-- The known members of an item. -/
def knownMembers (item : WorkItem) : List (String × Json) :=
  [("id", .string item.id),
   ("title", .string item.title),
   ("description", ofOption .string item.description),
   ("status", ofOption .string item.status),
   ("priority", .string item.priority.name),
   ("labels", .ofStrings item.labels),
   ("blockedBy", ofOption .ofStrings item.blockedBy),
   ("blocking", ofOption .ofStrings item.blocking),
   ("assignee", ofOption .string item.assignee),
   ("branch", ofOption .string item.branch),
   ("pr", ofOption PullRequest.toJson item.pullRequest),
   ("agent", ofOption AgentSession.toJson item.agent),
   ("ready", .bool item.ready),
   ("criticalPath", .bool item.criticalPath)]

/-- An item as a value. -/
def toJson (item : WorkItem) : Json :=
  .object (item.knownMembers ++ item.extra.entries)

end WorkItem

/-! ## From texts -/

/-- An object of a text with the members under the given keys only. What is dropped is never
decoded. A key that has no value is kept, so that it is refused. -/
def Json.Source.restrict (keys : List String) : Source → Source
  | .object members => .object (members.filter fun m => m.1.all keys.contains)
  | source => source

/-- An item of a text without the members of its attachments that no one reads. -/
def WorkItem.restrictSource : Source → Source
  | .object members =>
    .object (members.map fun m =>
      if m.1 = some "pr" then (m.1, m.2.restrict PullRequest.keys)
      else if m.1 = some "agent" then (m.1, m.2.restrict AgentSession.keys)
      else m)
  | source => source

/-- The item that a text writes. -/
def WorkItem.read? (text : String) : Option WorkItem := do
  let source ← Source.parse? text
  let value ← (restrictSource source).toJson? maxDepth
  ofJson? value

/-- The items that a value writes, an array. -/
def Board.ofJson? : Json → Option Board
  | .array items => items.mapM WorkItem.ofJson?
  | _ => none

/-- The items that a text writes. -/
def Board.read? (text : String) : Option Board := do
  let source ← Source.parse? text
  let restricted : Source := match source with
    | .array items => .array (items.map WorkItem.restrictSource)
    | other => other
  let value ← restricted.toJson? maxDepth
  Board.ofJson? value

end Taskboard
