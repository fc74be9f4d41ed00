import BenchLog.Text.Digit

/-!
# `BenchLog.Config.Number` — the range of numbers

Settings take no number, but a file that holds one out of range cannot be read.

## Contents
- `rangeEnd`, `exceedsRange`, for decimal numbers with an exponent;
- `hexValue?`, `hexNumber?`, digits in base sixteen.
-/

namespace BenchLog.Config

/-- The least number that rounds past the largest double. -/
def rangeEnd : Nat := Nat.pow 2 1024 - Nat.pow 2 970

/-- Whether `factor * 10 ^ exponent` is past the largest double. -/
def exceedsRange (factor : Nat) (exponent : Int) : Bool :=
  if factor = 0 then false
  else
    let size : Int := (Nat.toDigits 10 factor).length + exponent
    if 310 < size then true
    else if size < 309 then false
    else rangeEnd * Nat.pow 10 (-exponent).toNat ≤ factor * Nat.pow 10 exponent.toNat

/-- The value of a digit in base sixteen. -/
def hexValue? (c : Char) : Option Nat :=
  if c.isDigit then some (c.toNat - 48)
  else if 'a' ≤ c ∧ c ≤ 'f' then some (c.toNat - 87)
  else if 'A' ≤ c ∧ c ≤ 'F' then some (c.toNat - 55)
  else none

/-- The number written by digits in base sixteen. -/
def hexNumber? (cs : List Char) : Option Nat :=
  cs.foldlM (fun n c => (hexValue? c).map fun d => n * 16 + d) 0

/-- The character of a code point. -/
def charOf? (n : Nat) : Option Char :=
  if n < 0xd800 ∨ (0xdfff < n ∧ n < 0x110000) then some (Char.ofNat n) else none

end BenchLog.Config
