import BenchLog.Axis
import BenchLog.Record.Counter
import BenchLog.Record.Marks
import BenchLog.Section

/-!
# `BenchLog.Mining.Variant` — the two kinds of log

The counter log has five records per load of the benchmark module; the syscall log has three measurements
per section tag. They differ in how sections open, in how long a section must be, in the thread counts
that have a column, and in the header of their tables.

## Contents
- `Variant` with its name, columns and corner label;
- `Variant.sections`, the sections that are mined.
-/

namespace BenchLog

open BenchLog.Record

/-- The kinds of log. -/
inductive Variant where
  | counter
  | syscall
deriving DecidableEq, Repr

namespace Variant

/-- The name of a kind, as written in settings. -/
def name : Variant → String
  | .counter => "counter"
  | .syscall => "syscall"

/-- The kind of a name. -/
def ofName? (name : String) : Option Variant :=
  if name = "counter" then some .counter
  else if name = "syscall" then some .syscall
  else none

/-- The thread counts that have a column. -/
def columns : Variant → Axis
  | .counter => .counterThreads
  | .syscall => .syscallThreads

/-- The first cell of a table's header. -/
def corner : Variant → String
  | .counter => " "
  | .syscall => "data"

/-- Whether a line opens a section. -/
def opens : Variant → String → Bool
  | .counter => isLoad
  | .syscall => isSectionTag

/-- The span that a section must exceed. Five records between two load lines do. -/
def minSpan : Variant → Nat
  | .counter => 5
  | .syscall => 0

/-- The sections that are mined. -/
def sections (v : Variant) (log : List String) : List Section :=
  BenchLog.sections v.opens v.minSpan log

end Variant

end BenchLog
