/-!
# `BenchLog.Files.Path` — the text of a path

A path is a text of segments with slashes between them. Empty segments and single dots name nothing, so
the last segment that is left names the file, unless it steps up. A file name is cut at its last point,
except where that is its first character.

## Contents
- `segments`, `fileName?`;
- `fileStem?` and `extension?`, before and after the cut;
- `join`, a path inside a directory; `parent`, the text before the last slash.
-/

namespace BenchLog.Path

/-- The texts between the slashes; `current` is the segment so far, last character first. -/
def segmentsFrom (current : List Char) : List Char → List (List Char)
  | [] => [current.reverse]
  | c :: cs => if c = '/' then current.reverse :: segmentsFrom [] cs else segmentsFrom (c :: current) cs

/-- The texts between the slashes of a path. -/
def segments (path : List Char) : List (List Char) := segmentsFrom [] path

/-- Names nothing. -/
def isIdle (segment : List Char) : Bool := segment == [] || segment == ['.']

/-- The name of the file at the end of a path. -/
def fileName? (path : List Char) : Option (List Char) :=
  match ((segments path).filter (!isIdle ·)).getLast? with
  | none => none
  | some name => if name = ['.', '.'] then none else some name

/-- The parts of a file name before and after its last point, if it is to be cut there. -/
def cut? (name : List Char) : Option (List Char × List Char) :=
  match name.reverse.dropWhile (· != '.') with
  | [] => none
  | _ :: before =>
    if before.isEmpty then none
    else some (before.reverse, (name.reverse.takeWhile (· != '.')).reverse)

/-- The file name of a path without its extension. -/
def fileStem? (path : List Char) : Option (List Char) :=
  (fileName? path).map fun name => ((cut? name).map Prod.fst).getD name

/-- The extension of the file name of a path. -/
def extension? (path : List Char) : Option (List Char) :=
  (fileName? path).bind fun name => (cut? name).map Prod.snd

/-- The path `name` as seen from a directory; a path that starts with a slash is the same from
everywhere. -/
def join (directory name : String) : String :=
  if name.toList.head? = some '/' ∨ directory = "" then name
  else if directory.toList.getLast? = some '/' then directory ++ name
  else directory ++ "/" ++ name

/-- The text before the last slash. -/
def parent (path : String) : String :=
  String.ofList ((path.toList.reverse.dropWhile (· != '/')).drop 1).reverse

end BenchLog.Path
