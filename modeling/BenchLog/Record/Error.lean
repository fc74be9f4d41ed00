import BenchLog.Decimal.Numeral
import BenchLog.Decimal.Shortest
import BenchLog.Text.Quoted

/-!
# `BenchLog.Record.Error` — what can be wrong with a line

Reading a line gives a complete value or one of these causes, never a part of a value.

## Contents
- `Grammar` and `Field`, what a line or a part of it should be, with their names;
- `LineError` and its wording;
- `readField`, a count inside a line.
-/

namespace BenchLog.Record

open BenchLog.Decimal BenchLog.Text

/-- The shapes a line can be asked to have. -/
inductive Grammar where
  | counterRecord
  | measurement
  | missed
  | sectionTag
deriving DecidableEq, Repr

/-- The name of a shape. -/
def Grammar.name : Grammar → String
  | .counterRecord => "counter record"
  | .measurement => "measurement"
  | .missed => "missed"
  | .sectionTag => "section tag"

/-- The counts inside the lines. -/
inductive Field where
  | threads
  | preempt
  | max
  | cycle
  | a
  | b
  | delta
  | hits
  | missed
  | count
  | insts
deriving DecidableEq, Repr

/-- The name of a field. -/
def Field.name : Field → String
  | .threads => "threads"
  | .preempt => "preempt"
  | .max => "max"
  | .cycle => "cycle"
  | .a => "a"
  | .b => "b"
  | .delta => "delta"
  | .hits => "hits"
  | .missed => "missed"
  | .count => "count"
  | .insts => "insts"

/-- Why a line, or the measurements of a section, gave no value. -/
inductive LineError where
  | noMatch (grammar : Grammar) (line : String)
  | integer (field : Field) (value : String) (cause : NumeralError)
  | number (value : String)
  | zeroDelta (line : String)
  | nonPositiveInterval (index : Nat) (elapsed : Float)
deriving DecidableEq

/-- The wording of a `LineError`. -/
def LineError.message : LineError → String
  | .noMatch grammar line =>
    "Line does not match the " ++ grammar.name ++ " grammar: " ++ quoted line
  | .integer field value _ =>
    "Field '" ++ field.name ++ "' is not a valid integer: " ++ quoted value
  | .number value => "Field 'elapsed' is not a valid number: " ++ quoted value
  | .zeroDelta line =>
    "Record has a zero delta and cannot be turned into a rate: " ++ quoted line
  | .nonPositiveInterval index elapsed =>
    "Measurement interval " ++ Nat.repr index ++ " is not positive (" ++ floatText elapsed ++ "s)"

/-- The wording of what made a field unreadable, where there is such a cause. -/
def LineError.cause? : LineError → Option String
  | .integer _ _ cause => some cause.message
  | .number _ => some "invalid float literal"
  | _ => none

/-- Reads the count that stands in a field. -/
def readField (field : Field) (cs : List Char) : Except LineError UInt64 :=
  (Decimal.read cs).mapError (.integer field (String.ofList cs))

end BenchLog.Record
