import BenchLog.Decimal.Real
import BenchLog.Record.Error
import BenchLog.Text.Piece

/-!
# `BenchLog.Record.Measurement` — interval counts of the syscall log

A measurement line gives the seconds since the start of the measurement and the events counted in the
last interval, whose digits may be grouped by commas, as in

        20.014119528          1,249,626      syscalls:sys_enter_flock

## Contents
- `MeasurementText`, the pieces of such a line, and `MeasurementText.ofLine?`;
- `Measurement`, their values, and `Measurement.ofLine`;
- `measurementWord`, by which such a line is picked out.
-/

namespace BenchLog.Record

open BenchLog.Text

/-- A measurement as written. -/
structure MeasurementText where
  elapsed : List Char
  count : List Char
deriving DecidableEq, Repr

/-- May stand in a count after its first digit. -/
def isCountChar (c : Char) : Bool := isDecimal c || c == ','

/-- The pieces of a measurement line: blanks, a number with a point, blanks, a count, and a blank before
whatever else is on the line. -/
def MeasurementText.ofLine? (cs : List Char) : Option MeasurementText := do
  let (whole, cs) ← takeDigits? (← dropBlanks? cs)
  let (places, cs) ← takeDigits? (← dropChar? '.' cs)
  let cs ← dropBlanks? cs
  let _ ← takeDigits? cs
  let rest ← dropBlanks? (cs.dropWhile isCountChar)
  if onOneLine rest then some ⟨whole ++ '.' :: places, cs.takeWhile isCountChar⟩ else none

/-- The seconds since the start and the events of the interval that ends there. -/
structure Measurement where
  elapsed : Float
  count : UInt64
deriving DecidableEq

/-- Reads a measurement line: first the seconds, then the count with its commas taken out. -/
def Measurement.ofLine (line : String) : Except LineError Measurement :=
  match MeasurementText.ofLine? line.toList with
  | none => .error (.noMatch .measurement line)
  | some ⟨elapsed, count⟩ =>
    match Decimal.readReal? elapsed with
    | none => .error (.number (String.ofList elapsed))
    | some seconds =>
      match Decimal.read (count.filter (· != ',')) with
      | .error cause => .error (.integer .count (String.ofList count) cause)
      | .ok events => .ok ⟨seconds, events⟩

/-- The word by which a line is taken for a measurement. -/
def measurementWord : String := "syscalls:sys_enter_flock"

end BenchLog.Record
