import BenchLog.Decimal.Numeral

/-!
# `BenchLog.Axis` — closed axes and their buckets

An axis is an ordered, closed list of admissible values. Each listed value has a bucket, numbered in
order and labelled with the decimal text of the value; one bucket past the last takes every other value.
That unmapped bucket has no label and is never exported.

## Contents
- `Axis` with its sizes; `bucketOf`, `label?`, `labels`;
- `AxisError` and `Axis.check`, for lists that are empty or repeat a value;
- the axes of the two kinds of log, and `Axis.otherLabel`.
-/

namespace BenchLog

/-- An ordered, closed list of admissible values. -/
structure Axis where
  name : String
  values : List UInt64
deriving DecidableEq, Repr

namespace Axis

/-- How many buckets have a label. -/
def size (axis : Axis) : Nat := axis.values.length

/-- How many buckets there are, the unmapped one included. -/
def width (axis : Axis) : Nat := axis.size + 1

/-- The unmapped bucket. -/
def unmapped (axis : Axis) : Nat := axis.size

/-- Whether a bucket is the unmapped one, or lies past it. -/
def isUnmapped (axis : Axis) (bucket : Nat) : Bool := axis.unmapped ≤ bucket

/-- The bucket of a value: the first place where it is listed, or the unmapped bucket. -/
def bucketOf (axis : Axis) (value : UInt64) : Nat :=
  (axis.values.findIdx? (· == value)).getD axis.unmapped

/-- The label of a bucket. -/
def label? (axis : Axis) (bucket : Nat) : Option String :=
  axis.values[bucket]?.map Decimal.text

/-- The labels in order. -/
def labels (axis : Axis) : List String := axis.values.map Decimal.text

end Axis

/-! ## Well-formed axes -/

/-- What is wrong with an axis. -/
inductive AxisError where
  | empty (axis : String)
  | duplicate (axis : String) (value : UInt64)
deriving DecidableEq, Repr

/-- The wording of an `AxisError`. -/
def AxisError.message : AxisError → String
  | .empty axis => "Axis '" ++ axis ++ "' has no admissible values"
  | .duplicate axis value =>
    "Axis '" ++ axis ++ "' lists value " ++ Decimal.text value ++ " more than once"

/-- The first value that was seen before, given those seen so far. -/
def Axis.firstRepeat? (seen : List UInt64) : List UInt64 → Option UInt64
  | [] => none
  | v :: rest => if seen.contains v then some v else firstRepeat? (v :: seen) rest

/-- Accepts an axis that lists at least one value and none twice. -/
def Axis.check (axis : Axis) : Except AxisError Unit :=
  if axis.values.isEmpty then .error (.empty axis.name)
  else
    match firstRepeat? [] axis.values with
    | some value => .error (.duplicate axis.name value)
    | none => .ok ()

/-! ## The axes of the logs -/

/-- Thread counts of the counter log. -/
def Axis.counterThreads : Axis :=
  ⟨"threads", [1, 2, 4, 6, 8, 12, 16, 24, 32, 48, 64, 80, 96]⟩

/-- Instance counts of the syscall log. -/
def Axis.syscallInstances : Axis := ⟨"instances", [96, 128, 192, 256, 384]⟩

/-- Thread counts of the syscall log. -/
def Axis.syscallThreads : Axis :=
  ⟨"threads", [1, 2, 4, 6, 8, 12, 16, 24, 32, 48, 64, 96, 128, 192]⟩

/-- The name given to whatever an axis does not list. -/
def Axis.otherLabel : String := "other"

end BenchLog
