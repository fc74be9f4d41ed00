import BenchLog.Text.GraphemeExtend
import BenchLog.Text.Unprintable

/-!
# `BenchLog.Text.Quoted` — quoted text for messages

A message shows a piece of its input between double quotes, so that blanks at its ends, controls and
invisible characters can be seen. Short escapes stand for the usual controls, the quote and the
backslash; a character that has no shape, or that would attach to its neighbour, is written by number.

## Contents
- `escape`, the written form of one character;
- `quote`, the written form of a text; `quoted` on strings.
-/

namespace BenchLog.Text

/-- The digits of `n` in base sixteen, in lower case and without leading zeros. -/
def hexDigits (n : Nat) : List Char := Nat.toDigits 16 n

/-- The written form of one character inside a quoted text. -/
def escape (c : Char) : List Char :=
  if c = '\x00' then ['\x5c', '0']
  else if c = '\t' then ['\x5c', 't']
  else if c = '\r' then ['\x5c', 'r']
  else if c = '\n' then ['\x5c', 'n']
  else if c = '\x22' ∨ c = '\x5c' then ['\x5c', c]
  else if isAttached c || isUnprintable c then
    ['\x5c', 'u', '\x7b'] ++ hexDigits c.toNat ++ ['\x7d']
  else [c]

/-- The written form of a text, quotes included. -/
def quote (cs : List Char) : List Char := '\x22' :: (cs.flatMap escape ++ ['\x22'])

/-- `quote` on strings. -/
def quoted (s : String) : String := String.ofList (quote s.toList)

end BenchLog.Text
