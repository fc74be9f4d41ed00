import BenchLog.Table.Matrix

/-!
# `BenchLog.Table.Csv` — tables as comma-separated values

A record is one line of fields with commas between them. A field that holds a comma, a quote or a line
break stands between quotes, and each quote inside it is written twice. A record that is one empty field
is a pair of quotes, so that no record is an empty line.

## Contents
- `encodeField`, `encodeRecord`;
- `Matrix.records`, the exported part of a matrix; `Matrix.toCsv`, its text.
-/

namespace BenchLog

namespace Csv

/-- Cannot stand in a field without quotes around it. -/
def isSpecial (c : Char) : Bool := c == ',' || c == '\x22' || c == '\n' || c == '\r'

/-- A text with each quote written twice. -/
def doubleQuotes (cs : List Char) : List Char :=
  cs.flatMap fun c => if c = '\x22' then ['\x22', '\x22'] else [c]

/-- A text between quotes. -/
def enclose (cs : List Char) : List Char := '\x22' :: (doubleQuotes cs ++ ['\x22'])

/-- The written form of a field. -/
def encodeField (cs : List Char) : List Char := if cs.any isSpecial then enclose cs else cs

/-- The fields of a record with commas between them. -/
def joinFields : List (List Char) → List Char
  | [] => []
  | [cs] => encodeField cs
  | cs :: rest => encodeField cs ++ ',' :: joinFields rest

/-- The line of a record. -/
def encodeRecord (fields : List (List Char)) : List Char :=
  (if fields = [[]] then enclose [] else joinFields fields) ++ ['\n']

end Csv

namespace Matrix

/-- The exported record of a row: its key and the labelled cells. -/
def rowRecord (m : Matrix) (r : Row) : List String :=
  r.key.text :: (List.range m.columns.size).map fun bucket => Decimal.text (r.value bucket)

/-- The exported records: a header that starts with `corner`, and the visible rows. -/
def records (m : Matrix) (corner : String) : List (List String) :=
  (corner :: m.columns.labels) :: (m.rows.filter (·.visible)).map m.rowRecord

/-- The exported text. -/
def toCsv (m : Matrix) (corner : String) : String :=
  String.ofList
    ((m.records corner).flatMap fun fields => Csv.encodeRecord (fields.map String.toList))

end Matrix

end BenchLog
