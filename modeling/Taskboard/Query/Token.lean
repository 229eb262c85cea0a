import Taskboard.Text.Blank
import Taskboard.Text.Lowercase

/-!
# Taskboard — the tokens of a query

A query is cut at blanks and parentheses. Each parenthesis is a token of its own, each longest run
of other characters a word. Every text has tokens; what makes no sense is left to the parser.

* `Kind` — what a token is;
* `Kind.ofWord` — the kind of a word: an operator in any case of letters, `name:value`, or a bare
  term;
* `Token` — a kind and the place where it starts, counted in characters;
* `tokenize` — the tokens of a text, the end of the query last.
-/

namespace Taskboard.Query

/-- The field that a bare term searches: title and description. -/
def textField : String := "_text"

/-- What a token is. -/
inductive Kind where
  | field (name value : String)
  | and
  | or
  | not
  | leftParen
  | rightParen
  | endOfQuery
  deriving DecidableEq, Repr

namespace Kind

/-- The wording of a token in an error message. -/
def describe : Kind → String
  | .field name value =>
    if name = textField then "term '" ++ value ++ "'" else "term '" ++ name ++ ":" ++ value ++ "'"
  | .and => "operator 'AND'"
  | .or => "operator 'OR'"
  | .not => "operator 'NOT'"
  | .leftParen => "'('"
  | .rightParen => "')'"
  | .endOfQuery => "end of query"

/-- A token as it is written. -/
def render : Kind → String
  | .field name value => name ++ ":" ++ value
  | .and => "AND"
  | .or => "OR"
  | .not => "NOT"
  | .leftParen => "("
  | .rightParen => ")"
  | .endOfQuery => "<eof>"

/-- The kind of a word that is no operator. It splits at its first colon; the name is lower-cased
and the value stays as it is. -/
def ofTerm (word : List Char) : Kind :=
  match word.dropWhile fun c => c != ':' with
  | [] => .field textField (String.ofList word)
  | _ :: value =>
    .field (Text.lowercase (String.ofList (word.takeWhile fun c => c != ':')))
      (String.ofList value)

/-- The kind of a word. -/
def ofWord (word : List Char) : Kind :=
  let lowered := (String.ofList word).toLower
  if lowered = "and" then .and
  else if lowered = "or" then .or
  else if lowered = "not" then .not
  else ofTerm word

end Kind

/-- A token and the number of characters in front of it. -/
structure Token where
  kind     : Kind
  position : Nat
  deriving DecidableEq, Repr

/-- Whether a character can be part of a word. -/
def isWordChar (c : Char) : Bool :=
  !Text.isBlank c && c != '(' && c != ')'

/-- What follows a run is no longer than what it was taken from. -/
theorem length_dropWhile_le {α : Type} (p : α → Bool) (l : List α) :
    (l.dropWhile p).length ≤ l.length :=
  (List.dropWhile_sublist p).length_le

/-- The tokens of the rest of a text; `position` characters stand in front of it. -/
def scan (position : Nat) : List Char → List Token
  | [] => [⟨.endOfQuery, position⟩]
  | c :: rest =>
    if Text.isBlank c then scan (position + 1) rest
    else if c = '(' then ⟨.leftParen, position⟩ :: scan (position + 1) rest
    else if c = ')' then ⟨.rightParen, position⟩ :: scan (position + 1) rest
    else
      let word := c :: rest.takeWhile isWordChar
      ⟨.ofWord word, position⟩ :: scan (position + word.length) (rest.dropWhile isWordChar)
termination_by cs => cs.length
decreasing_by
  all_goals simp only [List.length_cons]
  all_goals first | omega | exact Nat.lt_succ_of_le (length_dropWhile_le _ _)

/-- The tokens of a query. -/
def tokenize (text : String) : List Token :=
  scan 0 text.toList

end Taskboard.Query
