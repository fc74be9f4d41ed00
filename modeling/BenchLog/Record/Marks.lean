import BenchLog.Record.Error
import BenchLog.Text.Piece

/-!
# `BenchLog.Record.Marks` — the other lines of the syscall log

A section of the syscall log opens with a tag that gives the number of probe instances. The benchmark
echoes its thread count on two lines of their own, and the probe reports what it missed when it unloads.

## Contents
- `SectionTag.instances`, `isSectionTag`;
- `ThreadCount.ofLine`;
- `Missed.ofLine`, `missedWord`;
- `syscallWord`, the measured call.
-/

namespace BenchLog.Record

open BenchLog.Text

/-! ## Section tags -/

/-- The digits of a tag: any blanks, the word, and a number that anything may follow on the line. -/
def SectionTag.digits? (cs : List Char) : Option (List Char) := do
  let (digits, rest) ←
    takeDigits? (← dropWord? ['k', 'r', 'p', '_', 'i', 'n', 's', 't', 's', '='] (trimStart cs))
  if onOneLine rest then some digits else none

/-- Reads the number of instances from a section tag. -/
def SectionTag.instances (line : String) : Except LineError UInt64 :=
  match SectionTag.digits? line.toList with
  | none => .error (.noMatch .sectionTag line)
  | some digits => readField .insts digits

/-- Whether a line opens a section of the syscall log. -/
def isSectionTag (line : String) : Bool := (SectionTag.digits? line.toList).isSome

/-! ## Thread counts -/

/-- Reads a line that holds nothing but a thread count and blanks around it. -/
def ThreadCount.ofLine (line : String) : Except LineError UInt64 :=
  readField .threads (trim line.toList)

/-! ## Missed counts -/

/-- The digits behind the word that opens a missed count, if the rest stays on the line. -/
def Missed.digitsHere? (cs : List Char) : Option (List Char) := do
  let cs ←
    dropWord? ['_', 's', 'y', 's', '_', 'f', 'l', 'o', 'c', 'k', ':', ' ',
      'm', 'i', 's', 's', 'e', 'd', ':'] cs
  let (digits, rest) ← takeDigits? (← dropBlanks? cs)
  if onOneLine rest then some digits else none

/-- The digits of a missed count, at the last place of the line that has one. -/
def Missed.digits? : List Char → Option (List Char) := lastMatch? Missed.digitsHere?

/-- Reads a missed count. -/
def Missed.ofLine (line : String) : Except LineError UInt64 :=
  match Missed.digits? line.toList with
  | none => .error (.noMatch .missed line)
  | some digits => readField .missed digits

/-- The word by which a line is taken for a missed count. -/
def missedWord : String := "sys_flock: missed: "

/-- The name of the measured call. -/
def syscallWord : String := "flock"

end BenchLog.Record
