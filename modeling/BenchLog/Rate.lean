import BenchLog.Record.Counter
import BenchLog.Record.Measurement
import BenchLog.Selection

/-!
# `BenchLog.Rate` — counts per ten seconds

Counts are compared as rates per ten seconds. A counter record gives its length in nanoseconds, and its
rates are whole numbers: rounded down, and the largest count where they are larger still. A measurement
gives its end, so its length is the time since the end of the one before; such rates are floating-point
numbers, and an interval that is not longer than nothing has none.

## Contents
- `perTenSeconds`, `CounterRate`, `CounterRate.ofRecord`;
- `intervalRate`, `intervalRates`.
-/

namespace BenchLog

open BenchLog.Record

/-- Ten seconds in nanoseconds. -/
def tenSeconds : Nat := 10000000000

/-- A count made in `delta` nanoseconds, per ten seconds. -/
def perTenSeconds (count delta : UInt64) : UInt64 :=
  UInt64.ofNat (min (tenSeconds * count.toNat / max delta.toNat 1) Decimal.largest)

/-- The rates of a counter record. -/
structure CounterRate where
  hits : UInt64
  missed : UInt64
deriving DecidableEq, Repr

/-- The rates of a record. -/
def CounterRate.ofRecord (r : CounterRecord) : CounterRate :=
  ⟨perTenSeconds r.hits r.delta, perTenSeconds r.missed r.delta⟩

/-- The rate of one measurement, `index` in its section, that began at second `start`. -/
def intervalRate (index : Nat) (start : Float) (m : Measurement) : Except LineError Float :=
  let seconds := m.elapsed - start
  if 0 < seconds then .ok (m.count.toFloat * 10 / seconds)
  else .error (.nonPositiveInterval index seconds)

/-- The rates of three measurements in a row, the first of which began at second zero. -/
def intervalRates (ms : Triple Measurement) : Except LineError (Triple Float) := do
  let first ← intervalRate 0 0 ms.first
  let second ← intervalRate 1 ms.first.elapsed ms.second
  let third ← intervalRate 2 ms.second.elapsed ms.third
  return ⟨first, second, third⟩

end BenchLog
