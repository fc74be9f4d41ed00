import BenchLog.Text.Blank
import BenchLog.Text.CaseFold
import BenchLog.Text.Digit

/-!
# `BenchLog.Text.Piece` — the pieces of a log line

A log line is read piece by piece from the left. Every reader takes the characters still to be read and
gives what it found with the rest, or nothing when the line does not continue that way. Runs of blanks
and digits are taken whole: what follows a run never begins with a character of it.

## Contents
- `dropChar?`, `dropBlank?`, `dropBlanks?`, `takeDigits?`, `takeNumber?`, the pieces;
- `onOneLine`, for what may trail;
- `lastMatch?`, a reader tried from the last place of the first line backwards.
-/

namespace BenchLog.Text

/-- What follows the character `c`. -/
def dropChar? (c : Char) : List Char → Option (List Char)
  | [] => none
  | d :: cs => if d = c then some cs else none

/-- What follows a single blank. -/
def dropBlank? : List Char → Option (List Char)
  | [] => none
  | c :: cs => if isBlank c then some cs else none

/-- What follows a run of blanks, of which there is at least one. -/
def dropBlanks? (cs : List Char) : Option (List Char) := (dropBlank? cs).map trimStart

/-- A run of decimal digits, of which there is at least one. -/
def takeDigits? (cs : List Char) : Option (List Char × List Char) :=
  match cs.takeWhile isDecimal with
  | [] => none
  | digits => some (digits, cs.dropWhile isDecimal)

/-- A word, any blanks, and digits. -/
def takeNumber? (word cs : List Char) : Option (List Char × List Char) :=
  (dropWord? word cs).bind fun rest => takeDigits? (trimStart rest)

/-- Whether a text holds no newline. -/
def onOneLine (cs : List Char) : Bool := cs.all (· != '\n')

/-- Tries a reader at every place up to the first newline, the last place first. -/
def lastMatch? {α : Type} (reader : List Char → Option α) : List Char → Option α
  | [] => reader []
  | c :: cs =>
    if c = '\n' then reader (c :: cs)
    else (lastMatch? reader cs).orElse fun _ => reader (c :: cs)

end BenchLog.Text
