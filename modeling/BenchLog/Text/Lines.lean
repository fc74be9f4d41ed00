import BenchLog.Text.Utf8

/-!
# `BenchLog.Text.Lines` — the lines of a text

A line ends at a newline; one carriage return directly before the newline belongs to the line end. A
carriage return anywhere else stays, and a text that ends in a line end has no empty line after it.

## Contents
- `Splitter` and `Splitter.push`, the state of a run over a text;
- `split`, the lines of a text; `ofText` on strings; `ofBytes` on bytes that may be damaged.
-/

namespace BenchLog.Text.Lines

/-- The lines read so far and the one being read, both last first. -/
structure Splitter where
  finished : List (List Char) := []
  current : List Char := []

/-- A line, given last character first, without a carriage return at its end. -/
def dropReturn : List Char → List Char
  | '\r' :: cs => cs.reverse
  | cs => cs.reverse

/-- Reads one character. -/
def Splitter.push (s : Splitter) (c : Char) : Splitter :=
  if c = '\n' then ⟨dropReturn s.current :: s.finished, []⟩ else ⟨s.finished, c :: s.current⟩

/-- Ends the text: what follows the last newline is a line unless it is empty. -/
def Splitter.finish (s : Splitter) : List (List Char) :=
  match s.current with
  | [] => s.finished.reverse
  | cs => (cs.reverse :: s.finished).reverse

/-- The lines of a text. -/
def split (cs : List Char) : List (List Char) :=
  (cs.foldl Splitter.push {}).finish

/-- The lines of a string. -/
def ofText (s : String) : List String := (split s.toList).map String.ofList

/-- The lines of a file. -/
def ofBytes (bytes : List UInt8) : List String := (split (Utf8.decode bytes)).map String.ofList

end BenchLog.Text.Lines
