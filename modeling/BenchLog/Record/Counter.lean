import BenchLog.Record.Error
import BenchLog.Text.Piece

/-!
# `BenchLog.Record.Counter` — interval reports of the counter log

A counter record is one interval report of the benchmark module, as in

    [1294614.893791] fl  : threads:96 preempt:0 max: 384 cycle: 0 a:0 b:1 delta: 10005563711  hits:       4294672 missed: 0

Anything may stand before the time stamp and after the last count, as long as it is on the same line. Of
several time stamps the last one from which a whole record can be read counts. The tag is the shortest
text that the fields can follow.

## Contents
- `CounterText`, the pieces of such a line, and `CounterText.ofLine?`;
- `CounterRecord`, their values, and `CounterRecord.ofLine`;
- `isLoad`, `reportWord`, by which lines of the log are picked out.
-/

namespace BenchLog.Record

open BenchLog.Text

/-! ## The shape of a record -/

/-- The nine counts of a record, as written. -/
structure CounterFields where
  threads : List Char
  preempt : List Char
  max : List Char
  cycle : List Char
  a : List Char
  b : List Char
  delta : List Char
  hits : List Char
  missed : List Char
deriving DecidableEq, Repr

/-- A record as written. -/
structure CounterText where
  tag : List Char
  fields : CounterFields
deriving DecidableEq, Repr

/-- What follows a time stamp: digits, a point and digits in square brackets. -/
def dropStamp? (cs : List Char) : Option (List Char) := do
  let (_, cs) ← takeDigits? (← dropChar? '[' cs)
  let (_, cs) ← takeDigits? (← dropChar? '.' cs)
  dropChar? ']' cs

/-- The fields of a record, from the blanks before the colon that ends the tag to the end of the line. -/
def readFields? (cs : List Char) : Option CounterFields := do
  let cs ← dropChar? ':' (trimStart cs)
  let (threads, cs) ← takeNumber? ['t', 'h', 'r', 'e', 'a', 'd', 's', ':'] (← dropBlank? cs)
  let (preempt, cs) ← takeNumber? ['p', 'r', 'e', 'e', 'm', 'p', 't', ':'] (← dropBlank? cs)
  let (max, cs) ← takeNumber? ['m', 'a', 'x', ':'] (← dropBlank? cs)
  let (cycle, cs) ← takeNumber? ['c', 'y', 'c', 'l', 'e', ':'] (← dropBlank? cs)
  let (a, cs) ← takeDigits? (← dropWord? ['a', ':'] (← dropBlank? cs))
  let (b, cs) ← takeDigits? (← dropWord? ['b', ':'] (← dropBlank? cs))
  let (delta, cs) ← takeNumber? ['d', 'e', 'l', 't', 'a', ':'] (← dropBlank? cs)
  let (hits, cs) ← takeNumber? ['h', 'i', 't', 's', ':'] (← dropBlanks? cs)
  let (missed, cs) ← takeNumber? ['m', 'i', 's', 's', 'e', 'd', ':'] (← dropBlank? cs)
  if onOneLine cs then
    some { threads, preempt, max, cycle, a, b, delta, hits, missed }
  else none

/-- The shortest tag, at least one character long and on one line, that the fields follow; `reversed` is
the tag so far, last character first. -/
def readTagged? (reversed : List Char) : List Char → Option CounterText
  | [] => none
  | c :: cs =>
    if c = '\n' then none
    else
      match readFields? cs with
      | some fields => some ⟨(c :: reversed).reverse, fields⟩
      | none => readTagged? (c :: reversed) cs

/-- The tag and the fields after the time stamp. The blanks between the stamp and the tag are no part of
the tag. Where the fields follow these blanks directly, one of the blanks after the first serves as the
tag, unless all of them are newlines, and leaves it empty. -/
def readBody? (cs : List Char) : Option CounterText :=
  match cs.takeWhile isBlank with
  | [] => none
  | _ :: blanks =>
    let body := trimStart cs
    (readTagged? [] body).orElse fun _ =>
      if blanks.any (· != '\n') then (readFields? body).map fun fields => ⟨[], fields⟩ else none

/-- The pieces of a record line. -/
def CounterText.ofLine? : List Char → Option CounterText :=
  lastMatch? fun cs => (dropStamp? cs).bind readBody?

/-! ## The values of a record -/

/-- One interval report. -/
structure CounterRecord where
  tag : String
  threads : UInt64
  preempt : UInt64
  max : UInt64
  cycle : UInt64
  a : UInt64
  b : UInt64
  delta : UInt64
  hits : UInt64
  missed : UInt64
deriving DecidableEq, Repr

/-- Reads a record line. The length of the interval is looked at first, since a record without one is of
no use, then the other counts in the order in which they stand. -/
def CounterRecord.ofLine (line : String) : Except LineError CounterRecord :=
  match CounterText.ofLine? line.toList with
  | none => .error (.noMatch .counterRecord line)
  | some ⟨tag, fields⟩ => do
    let delta ← readField .delta fields.delta
    if delta = 0 then throw (.zeroDelta line)
    let threads ← readField .threads fields.threads
    let preempt ← readField .preempt fields.preempt
    let max ← readField .max fields.max
    let cycle ← readField .cycle fields.cycle
    let a ← readField .a fields.a
    let b ← readField .b fields.b
    let hits ← readField .hits fields.hits
    let missed ← readField .missed fields.missed
    return { tag := String.ofList tag, threads, preempt, max, cycle, a, b, delta, hits, missed }

/-! ## Lines of the counter log -/

/-- Whether a line opens a section: the benchmark module is loaded once per run. -/
def isLoad (line : String) : Bool := mentions "insmod" line

/-- The word by which a line is taken for a record. -/
def reportWord : String := "threads:"

end BenchLog.Record
