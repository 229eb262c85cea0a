import Taskboard.Command.OutputMode
import Taskboard.Decimal.Reading

/-!
# Taskboard — command lines

```text
pk [options] filter [QUERY] [--preset ID] [options]
pk [options] validate QUERY [options]
pk [options] presets [options]
pk [options] triage [--limit N] [options]
options: -v --verbose --items PATH --json --format MODE
```

Options may stand in front of the name of the action and behind it, in either place once; the one
behind counts. A value follows its option as the next argument or after an equals sign. Behind
`--` no argument is an option.

* `Invocation` — what a command line asks for;
* `Given`, `Given.read` — the arguments of one place;
* `Invocation.parse?` — the invocation that a command line writes, if it is well formed.
-/

namespace Taskboard

/-- Which query a filter uses. -/
inductive QueryChoice where
  | query (text : String)
  | preset (id : String)
  | configured
  deriving DecidableEq, Repr

/-- What is to be done. -/
inductive Action where
  | filter (choice : QueryChoice)
  | validate (query : String)
  | presets
  | triage (limit : Nat)
  deriving DecidableEq, Repr

/-- What a command line asks for. -/
structure Invocation where
  action  : Action
  items   : String := "items.json"
  json    : Bool := false
  format  : Option OutputMode := none
  verbose : Bool := false
  deriving DecidableEq, Repr

/-- The places of a command line: in front of the name of the action, or behind it. -/
inductive Place where
  | front
  | filter
  | validate
  | presets
  | triage
  deriving DecidableEq, Repr

/-- The place behind the name of an action. -/
def Place.ofName? (name : String) : Option Place :=
  [("filter", .filter), ("validate", .validate), ("presets", .presets),
    ("triage", Place.triage)].lookup name

/-- How many arguments a place has that belong to no option. -/
def Place.capacity : Place → Nat
  | .filter => 1
  | .validate => 1
  | _ => 0

/-- The arguments of one place. -/
structure Given where
  verbose : Bool := false
  json    : Bool := false
  items   : Option String := none
  format  : Option OutputMode := none
  preset  : Option String := none
  limit   : Option Nat := none
  words   : List String := []

/-- The number that digits behind an optional plus sign write, if it has 64 bits. -/
def readCount? (text : String) : Option Nat :=
  let digits := match text.toList with
    | '+' :: rest => rest
    | cs => cs
  if digits.isEmpty || !digits.all Char.isDigit then none
  else
    let n := Decimal.digitsValue digits
    if n < Nat.pow 2 64 then some n else none

namespace Given

/-- Sets what has not been set. -/
def once {α : Type} (current : Option α) (value : Option α) : Option (Option α) :=
  match current, value with
  | none, some a => some (some a)
  | _, _ => none

/-- The arguments with a flag. -/
def setFlag? (given : Given) (name : String) : Option Given :=
  if name = "verbose" then if given.verbose then none else some { given with verbose := true }
  else if name = "json" then if given.json then none else some { given with json := true }
  else none

/-- The options of a place that have a value. -/
def valued (place : Place) : List String :=
  ["items", "format"] ++
  match place with
  | .filter => ["preset"]
  | .triage => ["limit"]
  | _ => []

/-- The arguments with the value of an option. -/
def setValue? (given : Given) (name value : String) : Option Given :=
  if name = "items" then do
    let items ← once given.items (if value = "" then none else some value)
    pure { given with items }
  else if name = "format" then do
    let format ← once given.format (OutputMode.ofName? value)
    pure { given with format }
  else if name = "preset" then do
    let preset ← once given.preset (some value)
    pure { given with preset }
  else if name = "limit" then do
    let limit ← once given.limit (readCount? value)
    pure { given with limit }
  else none

/-- The arguments with one more that belongs to no option. -/
def addWord? (given : Given) (place : Place) (word : String) : Option Given :=
  if given.words.length < place.capacity then some { given with words := given.words ++ [word] }
  else none

/-- Whether an argument looks like an option. A dash alone does not. -/
def isOption (arg : String) : Bool :=
  match arg.toList with
  | '-' :: _ :: _ => true
  | _ => false

/-- The name of a long option, and the value behind an equals sign. -/
def splitLong (cs : List Char) : String × Option String :=
  let name := String.ofList (cs.takeWhile fun c => c != '=')
  match cs.dropWhile fun c => c != '=' with
  | [] => (name, none)
  | _ :: value => (name, some (String.ofList value))

/-- Reads the arguments of a place. In front, the first one that belongs to no option ends it;
what follows is returned. -/
def read (place : Place) (given : Given) : List String → Option (Given × List String)
  | [] => some (given, [])
  | arg :: rest =>
    match arg.toList with
    | ['-', '-'] => do
      -- no option from here on
      let given ← rest.foldlM (fun given word => given.addWord? place word) given
      pure (given, [])
    | '-' :: '-' :: cs =>
      match splitLong cs with
      | (name, some value) =>
        if (valued place).contains name then do
          let given ← given.setValue? name value
          read place given rest
        else none
      | (name, none) =>
        if (valued place).contains name then
          match rest with
          | [] => none
          | value :: rest =>
            -- an option is not taken for the value of another one
            if isOption value then none
            else do
              let given ← given.setValue? name value
              read place given rest
        else do
          let given ← given.setFlag? name
          read place given rest
    | ['-', 'v'] => do
      let given ← given.setFlag? "verbose"
      read place given rest
    -- there is one short option, and it is not given twice
    | '-' :: _ :: _ => none
    | _ =>
      if place = .front then some (given, arg :: rest)
      else do
        let given ← given.addWord? place arg
        read place given rest

/-- The action that the arguments behind its name ask for. -/
def action? (given : Given) : Place → Option Action
  | .front => none
  | .filter =>
    match given.preset, given.words with
    | none, [] => some (.filter .configured)
    | none, query :: _ => some (.filter (.query query))
    | some id, [] => some (.filter (.preset id))
    | some _, _ :: _ => none
  | .validate => given.words.head?.map .validate
  | .presets => some .presets
  | .triage => some (.triage (given.limit.getD 10))

end Given

/-- The invocation that a command line writes. -/
def Invocation.parse? (args : List String) : Option Invocation := do
  let (front, rest) ← Given.read .front {} args
  let name ← rest.head?
  let place ← Place.ofName? name
  let (behind, _) ← Given.read place {} rest.tail
  let action ← behind.action? place
  pure
    { action
      items := ((behind.items <|> front.items)).getD "items.json"
      json := front.json || behind.json
      format := behind.format <|> front.format
      verbose := front.verbose || behind.verbose }

end Taskboard
