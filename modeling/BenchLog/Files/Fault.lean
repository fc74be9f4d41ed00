import BenchLog.Files.Disk

/-!
# `BenchLog.Files.Fault` — operations that fail for reasons the disk does not show

Where a path leads does not settle whether an operation succeeds. Permissions may forbid it, the device may
fail, and a disk may be full before a file is complete. Such reasons are not modelled; `Faults` says which
operations they stop, and how far these get. Without faults an operation does what the disk alone allows.

A file is cut to nothing when it is opened for writing, and then written from its first byte on. So a write
that stops has taken the old content away, and leaves the bytes that it got to. What stops a write goes on
stopping it: nothing is written to a file after that.

## Contents
- `WriteStage`, how far the making of a file came; `Faults`;
- `Faults.read`, `Faults.createDirs`, `Faults.write`: the operations of a disk where they can fail.
-/

namespace BenchLog

/-- The step in the making of a file that failed: to create or open it, or to write it. -/
inductive WriteStage where
  | creation
  | writing
deriving DecidableEq, Repr

/-- What fails although nothing on the disk is in its way, by the path of the operation. -/
structure Faults where
  /-- Files that cannot be read. -/
  unreadable : String → Bool := fun _ => false
  /-- Directories that cannot be created, with the number of segments of the path that are dealt with. -/
  noDirectory : String → Option Nat := fun _ => none
  /-- Files that cannot be created or opened for writing. -/
  uncreatable : String → Bool := fun _ => false
  /-- Files whose writing stops, with the number of bytes that are written. -/
  stop : String → Option Nat := fun _ => none

namespace Faults

/-- The bytes of the file that a path leads to, if they can be read. -/
def read (f : Faults) (d : Disk) (path : String) : Option (List UInt8) :=
  if f.unreadable path then none else d.read? path

/-- Creates a directory and those above it, as far as that goes. -/
def createDirs (f : Faults) (d : Disk) (path : String) : Disk × Bool :=
  match f.noDirectory path with
  | none => d.createDirs path
  | some n => ((d.createFrom (d.origin path) ((Disk.steps path).take n)).1, false)

/-- The bytes that a file holds once its writing has ended or stopped. -/
def written (f : Faults) (path : String) (bytes : List UInt8) : List UInt8 :=
  match f.stop path with
  | none => bytes
  | some n => bytes.take n

/-- How the writing of a file ends that could be created. -/
def writing (f : Faults) (path : String) : Except WriteStage Unit :=
  match f.stop path with
  | none => .ok ()
  | some _ => .error .writing

/-- Creates a file, or replaces its content. Gives the disk as it is then, and the stage that failed. -/
def write (f : Faults) (d : Disk) (path : String) (bytes : List UInt8) : Disk × Except WriteStage Unit :=
  if f.uncreatable path then (d, .error .creation)
  else
    match d.write? path (f.written path bytes) with
    | none => (d, .error .creation)
    | some d' => (d', f.writing path)

end Faults

end BenchLog
