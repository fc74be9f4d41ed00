import BenchLog.Text.Digit

/-!
# `BenchLog.Decimal.Numeral` — 64-bit counts and their decimal text

A count is an unsigned 64-bit number. Its text is read from left to right and the first thing wrong with
it is reported: a character that is no ASCII digit is one, a digit with which the number no longer fits
is the other. One plus sign may stand in front.

## Contents
- `NumeralError` and its wording;
- `readDigits`, `read`, from text; `text`, to text, with `text_inj`.
-/

namespace BenchLog.Decimal

open BenchLog.Text

/-- Why a text is no count. -/
inductive NumeralError where
  | empty
  | invalidDigit
  | tooLarge
deriving DecidableEq, Repr

/-- The wording of a `NumeralError`. -/
def NumeralError.message : NumeralError → String
  | .empty => "cannot parse integer from empty string"
  | .invalidDigit => "invalid digit found in string"
  | .tooLarge => "number too large to fit in target type"

/-- The largest count. -/
def largest : Nat := 0xffffffffffffffff

/-- Reads the digits that continue a number whose digits so far make `value`. -/
def readDigits (value : Nat) : List Char → Except NumeralError UInt64
  | [] => .ok (UInt64.ofNat value)
  | c :: cs =>
    if c.isDigit then
      let next := value * 10 + digitValue c
      if next ≤ largest then readDigits next cs else .error .tooLarge
    else .error .invalidDigit

/-- Reads a count. -/
def read : List Char → Except NumeralError UInt64
  | [] => .error .empty
  | ['+'] => .error .invalidDigit
  | '+' :: cs => readDigits 0 cs
  | cs => readDigits 0 cs

/-- The decimal text of a count, without leading zeros. -/
def text (n : UInt64) : String := Nat.repr n.toNat

theorem text_inj {m n : UInt64} : text m = text n ↔ m = n := by
  constructor
  · intro h
    have digits := congrArg String.toList h
    simp only [text, Nat.repr_eq_ofList_toDigits, String.toList_ofList] at digits
    have values := congrArg (Nat.ofDigitChars 10 · 0) digits
    simp only [Nat.ofDigitChars_ten_toDigits] at values
    exact UInt64.toNat_inj.1 values
  · rintro rfl
    rfl

end BenchLog.Decimal
