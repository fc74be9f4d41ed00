import BenchLog.Files.Path

/-!
# `BenchLog.Files.Disk` — a file system as a value

A disk maps locations to files and directories. A location is the list of names from the root down, and the
working directory is one of them, so that absolute and relative paths lead into one tree. Along a path every
location but the last has to be a directory. A name has at most 255 bytes, a path fewer than 4096, and
neither holds the null character.

Two things that a file system may have are left out. There are no links: what is at a location can be reached
by that list of names only. And a disk knows no permissions, no hardware errors and no limit of its size: an
operation that fails for such a reason is the business of `BenchLog.Files.Fault`.

## Contents
- `Disk`, `Disk.node?`, `Disk.resolve?`;
- `find?`, `read?`, `isDirectory`, what a path leads to;
- `createDirs`, `write?`, the two ways to change a disk; `createAll` and `place`, a file with its directories;
- `files`, every file below the working directory.
-/

namespace BenchLog

/-- Names from the root down. -/
abbrev Location := List String

/-- What a location holds. -/
inductive Node where
  | file (bytes : List UInt8)
  | directory
deriving DecidableEq, Repr

/-- Files and directories by location. -/
structure Disk where
  entries : List (Location × Node) := []
  /-- The working directory. -/
  home : Location := ["work"]
deriving DecidableEq, Repr

namespace Disk

/-- What a location holds. The working directory and the directories above it are there. -/
def node? (d : Disk) (l : Location) : Option Node :=
  if l <+: d.home then some .directory else (d.entries.find? (·.1 = l)).map Prod.snd

/-- The location above another. The root is above itself. -/
def up (l : Location) : Location := l.dropLast

/-- Whether a name is short enough. -/
def isName (name : String) : Bool := name.utf8ByteSize ≤ 255

/-- Whether a text can be a path at all. -/
def isPath (path : String) : Bool :=
  path ≠ "" && path.utf8ByteSize < 4096 && !path.toList.contains '\x00'

/-- Where a path starts. -/
def origin (d : Disk) (path : String) : Location :=
  if path.toList.head? = some '/' then [] else d.home

/-- The segments of a path. -/
def steps (path : String) : List String := (Path.segments path.toList).map String.ofList

/-- One step along a path, from a location that has to be a directory. -/
def step? (d : Disk) (l : Location) (segment : String) : Option Location :=
  if d.node? l ≠ some .directory then none
  else if segment = "" ∨ segment = "." then some l
  else if segment = ".." then some (up l)
  else if isName segment then some (l ++ [segment])
  else none

/-- The location that a path leads to, whether or not there is something. -/
def resolve? (d : Disk) (path : String) : Option Location :=
  if isPath path then (steps path).foldlM d.step? (d.origin path) else none

/-- What a path leads to. -/
def find? (d : Disk) (path : String) : Option Node := (d.resolve? path).bind d.node?

/-- The bytes of the file that a path leads to. -/
def read? (d : Disk) (path : String) : Option (List UInt8) :=
  match d.find? path with
  | some (.file bytes) => some bytes
  | _ => none

/-- Whether a path leads to a directory. -/
def isDirectory (d : Disk) (path : String) : Bool := d.find? path = some .directory

/-! ## Changes -/

/-- Puts something at a location, in the place of what was there. -/
def put (d : Disk) (l : Location) (node : Node) : Disk :=
  if d.entries.any (·.1 = l) then
    { d with entries := d.entries.map fun e => if e.1 = l then (l, node) else e }
  else { d with entries := d.entries ++ [(l, node)] }

/-- Creates the directories along these segments that are not there, up to the first thing in the way.
Gives the disk as it is then, and whether the end was reached. -/
def createFrom (d : Disk) (l : Location) : List String → Disk × Bool
  | [] => (d, true)
  | segment :: rest =>
    if segment = "" ∨ segment = "." then createFrom d l rest
    else if segment = ".." then createFrom d (up l) rest
    else if isName segment then
      let next := l ++ [segment]
      match d.node? next with
      | some .directory => createFrom d next rest
      | some (.file _) => (d, false)
      | none => createFrom (d.put next .directory) next rest
    else (d, false)

/-- Creates a directory and those above it where they are not there. The empty path is the working
directory. -/
def createAll (d : Disk) (path : String) : Disk × Bool :=
  if path = "" then (d, true)
  else if isPath path then d.createFrom (d.origin path) (steps path)
  else (d, false)

/-- Without the last name, where a single dot follows it. A directory is created under its own name only,
so a path that ends like that leads to one that must be there. -/
def withoutDotted (steps : List String) : List String :=
  match steps.reverse.dropWhile (· = "") with
  | "." :: above =>
    match above.dropWhile fun segment => segment = "" ∨ segment = "." with
    | ".." :: _ => steps
    | _ :: above => above.reverse
    | [] => []
  | _ => steps

/-- Creates a directory and those above it, as far as the form of the path allows it. -/
def createDirs (d : Disk) (path : String) : Disk × Bool :=
  if path = "" then (d, true)
  else if isPath path then
    let (d', reached) := d.createFrom (d.origin path) (withoutDotted (steps path))
    (d', reached && d'.isDirectory path)
  else (d, false)

/-- Creates a file, or replaces its content. -/
def write? (d : Disk) (path : String) (bytes : List UInt8) : Option Disk :=
  match d.resolve? path with
  | none => none
  | some l =>
    match d.node? l with
    | some .directory => none
    | _ => some (d.put l (.file bytes))

/-- Creates a file and the directories above it. -/
def place (d : Disk) (path : String) (bytes : List UInt8) : Disk :=
  ((d.createAll (Path.parent path)).1.write? path bytes).getD d

/-! ## Listing -/

/-- Every file below the working directory with its path. -/
def files (d : Disk) : List (String × List UInt8) :=
  d.entries.filterMap fun (l, node) =>
    match node with
    | .file bytes => (d.home.isPrefixOf? l).map fun names => ("/".intercalate names, bytes)
    | .directory => none

end Disk

end BenchLog
