/-!
# `BenchLog.Text.Blank` — blank characters

The characters with the White_Space property. They are what separates the fields of a log line and
what trimming removes from the ends of a text.

## Contents
- `isBlank`, the property itself;
- `trimStart`, `trimEnd`, `trim` on character lists, `trimText` on strings.
-/

namespace BenchLog.Text

/-- Has the White_Space property. -/
def isBlank (c : Char) : Bool :=
  let n := c.toNat
  (0x09 ≤ n && n ≤ 0x0d) || n == 0x20 || n == 0x85 || n == 0xa0 || n == 0x1680
    || (0x2000 ≤ n && n ≤ 0x200a) || n == 0x2028 || n == 0x2029 || n == 0x202f || n == 0x205f
    || n == 0x3000

/-- Without the blanks at the front. -/
def trimStart (cs : List Char) : List Char := cs.dropWhile isBlank

/-- Without the blanks at the back. -/
def trimEnd (cs : List Char) : List Char := (cs.reverse.dropWhile isBlank).reverse

/-- Without the blanks at either end. -/
def trim (cs : List Char) : List Char := trimEnd (trimStart cs)

/-- `trim` on strings. -/
def trimText (s : String) : String := String.ofList (trim s.toList)

end BenchLog.Text
