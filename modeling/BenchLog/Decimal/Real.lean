import BenchLog.Text.Digit

/-!
# `BenchLog.Decimal.Real` — decimal numbers with a point

A number written with ASCII digits before and after a point stands for the double nearest to it, however
many digits it has.

## Contents
- `valueOf`, the number of a digit string;
- `readReal?`, from text to a double.
-/

namespace BenchLog.Decimal

open BenchLog.Text

/-- The number that a string of ASCII digits writes. -/
def valueOf (digits : List Char) : Nat :=
  digits.foldl (fun value c => value * 10 + digitValue c) 0

/-- Reads digits, a point and digits, all of them ASCII and at least one on each side. -/
def readReal? (cs : List Char) : Option Float :=
  let whole := cs.takeWhile Char.isDigit
  match cs.dropWhile Char.isDigit with
  | '.' :: places =>
    if !whole.isEmpty && !places.isEmpty && places.all Char.isDigit then
      some (Float.ofScientific (valueOf (whole ++ places)) true places.length)
    else none
  | _ => none

end BenchLog.Decimal
