import BenchLog.Files.Path
import BenchLog.Text.Blank

/-!
# `BenchLog.Job.LogSpec` — naming a log

A log is given by the set its rows belong to and the path of its file. On the command line both stand in
one text, `SET=PATH`; a path alone belongs to the set named like its file.

## Contents
- `LogSpec`;
- `LogSpec.parts?`, what a text gives, and `LogSpec.ofText?`, which checks it.
-/

namespace BenchLog

/-- A log file and the set its rows belong to. -/
structure LogSpec where
  set : String
  path : String
deriving DecidableEq, Repr

namespace LogSpec

/-- What stands before and after the first `=` of a text, if there is one. -/
def splitAtEquals? (cs : List Char) : Option (List Char × List Char) :=
  match cs.dropWhile (· != '=') with
  | [] => none
  | _ :: path => some (cs.takeWhile (· != '='), path)

/-- The set and the path that a text gives, without the blanks around either. -/
def parts? (cs : List Char) : Option (List Char × List Char) :=
  match splitAtEquals? cs with
  | some (set, path) => some (Text.trim set, Text.trim path)
  | none =>
    let path := Text.trim cs
    (Path.fileStem? path).map fun set => (set, path)

/-- Reads `SET=PATH`, or a path alone. Neither part may be empty. -/
def ofText? (text : String) : Option LogSpec :=
  (parts? text.toList).bind fun (set, path) =>
    if set.isEmpty || path.isEmpty then none else some ⟨String.ofList set, String.ofList path⟩

end LogSpec

end BenchLog
