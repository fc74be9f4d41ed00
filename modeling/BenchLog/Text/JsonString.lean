/-!
# `BenchLog.Text.JsonString` — strings in JSON

A JSON string stands between double quotes. The quote, the backslash and the controls below the space are
escaped, by a short escape where there is one and else by number; every other character stands for itself.

## Contents
- `jsonEscape`, one character; `jsonString`, a whole string.
-/

namespace BenchLog.Text

/-- The digits of `n` in base sixteen, padded to at least two. -/
def twoHexDigits (n : Nat) : List Char :=
  if n < 16 then '0' :: Nat.toDigits 16 n else Nat.toDigits 16 n

/-- The written form of one character. -/
def jsonEscape (c : Char) : List Char :=
  if c = '\x22' ∨ c = '\x5c' then ['\x5c', c]
  else if c = '\x08' then ['\x5c', 'b']
  else if c = '\x0c' then ['\x5c', 'f']
  else if c = '\n' then ['\x5c', 'n']
  else if c = '\r' then ['\x5c', 'r']
  else if c = '\t' then ['\x5c', 't']
  else if c.toNat < 0x20 then ['\x5c', 'u', '0', '0'] ++ twoHexDigits c.toNat
  else [c]

/-- The written form of a string, quotes included. -/
def jsonString (s : String) : String :=
  String.ofList ('\x22' :: (s.toList.flatMap jsonEscape ++ ['\x22']))

end BenchLog.Text
