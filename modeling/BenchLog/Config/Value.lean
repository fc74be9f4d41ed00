/-!
# `BenchLog.Config.Value` — settings before they are given a meaning

What a settings file holds, whatever its format: texts, lists and tables, and values of which only the
presence matters, because no setting takes them. A table remembers how it came about, since that decides
who may still add to it while a file is being read.

## Contents
- `Origin`, `Value`;
- `Value.member?`, a member of a table; `Value.firstMember?`, the member with the least name.
-/

namespace BenchLog.Config

/-- How a table came about. -/
inductive Origin where
  /-- Written in one piece. -/
  | closed
  /-- Opened by a header of its own. -/
  | named
  /-- Passed through by the header of another table. -/
  | implied
  /-- Passed through by a dotted key. -/
  | dotted
deriving DecidableEq, Repr

/-- What a settings file holds. -/
inductive Value where
  | null
  /-- A number, a truth value, a date or a time. -/
  | scalar
  | text (content : String)
  /-- `growing` marks a list of tables that headers may add to. -/
  | list (growing : Bool) (items : List Value)
  | table (origin : Origin) (entries : List (String × Value))

namespace Value

/-- The member of a table; of several with one name the last counts. -/
def member? (entries : List (String × Value)) (name : String) : Option Value :=
  (entries.reverse.find? (·.1 = name)).map Prod.snd

/-- The lesser of two names. -/
def lesser (a b : String) : String := if b < a then b else a

/-- The member of a table with the least name. -/
def firstMember? : List (String × Value) → Option (String × Value)
  | [] => none
  | (name, value) :: rest =>
    let least := (rest.map Prod.fst).foldl lesser name
    (member? ((name, value) :: rest) least).map fun found => (least, found)

end Value

end BenchLog.Config
