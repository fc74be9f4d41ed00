import BenchLog.Decimal.Numeral
import Mathlib.Data.List.TakeWhile

/-!
# `BenchLog.Proofs.Decimal.Numeral` — digits read as the number they write

A text of ASCII digits, however long and with whatever zeros in front, is read as the number that it writes,
and is too large exactly if that number is larger than the largest count. In any other text the first
character that is no ASCII digit is reported, unless the digits before it already make too large a number.

## Contents
- `value`, the number that digits write;
- `readDigits_eq`, `read_eq`, any text; `read_digits`, digits only;
- `toNat_ofNat`, a count is the number it was made of;
- `readDigits_eq_ok_iff`, `read_eq_ok_iff`, what is read;
- `isDigit_of_mem_text`, `not_mem_text`, `value_text`, the text of a count.
-/

namespace BenchLog.Decimal

open BenchLog.Text

/-- The number that digits write. -/
def value (digits : List Char) : Nat := Nat.ofDigitChars 10 digits 0

/-- More digits never make a number smaller. -/
theorem le_ofDigitChars (digits : List Char) (start : Nat) :
    start ≤ Nat.ofDigitChars 10 digits start := by
  induction digits generalizing start with
  | nil => exact Nat.le_refl start
  | cons d digits ih =>
      rw [Nat.ofDigitChars_cons]
      have hmore := ih (10 * start + (d.toNat - '0'.toNat))
      omega

/-- Reading stops at the first character that is no digit, or at the first digit with which the number no
    longer fits, whichever comes first. In the second case the number would not fit with all of its digits
    either. -/
theorem readDigits_eq {start : Nat} (hstart : start ≤ largest) (cs : List Char) :
    readDigits start cs
      = if largest < Nat.ofDigitChars 10 (cs.takeWhile Char.isDigit) start then .error .tooLarge
        else if cs.all Char.isDigit then .ok (UInt64.ofNat (Nat.ofDigitChars 10 cs start))
        else .error .invalidDigit := by
  induction cs generalizing start with
  | nil => simp [readDigits, Nat.not_lt.2 hstart]
  | cons c cs ih =>
      rw [readDigits]
      by_cases hc : c.isDigit = true
      · have hnext : start * 10 + digitValue c = 10 * start + (c.toNat - '0'.toNat) := by
          rw [Nat.mul_comm start 10]
          rfl
        rw [if_pos hc, List.takeWhile_cons_of_pos hc, Nat.ofDigitChars_cons, Nat.ofDigitChars_cons,
          ← hnext, List.all_cons, hc, Bool.true_and]
        by_cases hfits : start * 10 + digitValue c ≤ largest
        · show (if start * 10 + digitValue c ≤ largest then _ else _) = _
          rw [if_pos hfits, ih hfits]
        · show (if start * 10 + digitValue c ≤ largest then _ else _) = _
          have hmore := le_ofDigitChars (cs.takeWhile Char.isDigit) (start * 10 + digitValue c)
          rw [if_neg hfits, if_pos (by omega)]
      · rw [if_neg hc, List.takeWhile_cons_of_neg hc, Nat.ofDigitChars_nil,
          if_neg (Nat.not_lt.2 hstart)]
        simp [hc]

/-- A text that does not begin with a plus sign is read digit by digit. -/
theorem read_eq {cs : List Char} (hne : cs ≠ []) (hplus : cs.head? ≠ some '+') :
    read cs
      = if largest < value (cs.takeWhile Char.isDigit) then .error .tooLarge
        else if cs.all Char.isDigit then .ok (UInt64.ofNat (value cs)) else .error .invalidDigit := by
  rw [value, value, ← readDigits_eq (Nat.zero_le largest)]
  unfold read
  split
  · exact absurd rfl hne
  · exact absurd rfl hplus
  · exact absurd rfl hplus
  · rfl

/-- Digits are read as the number they write, unless it is too large. -/
theorem read_digits {digits : List Char} (hne : digits ≠ [])
    (hdigits : ∀ d ∈ digits, d.isDigit = true) :
    read digits
      = if largest < value digits then .error .tooLarge else .ok (UInt64.ofNat (value digits)) := by
  have hplus : digits.head? ≠ some '+' := by
    intro h
    exact absurd (hdigits '+' (List.mem_of_mem_head? h)) (by decide)
  rw [read_eq hne hplus, List.takeWhile_eq_self_iff.2 hdigits, List.all_eq_true.2 hdigits, if_pos rfl]

/-- A number that is not too large is kept as a count. -/
theorem toNat_ofNat {n : Nat} (h : ¬ largest < n) : (UInt64.ofNat n).toNat = n := by
  refine UInt64.toNat_ofNat_of_lt' ?_
  show n < 18446744073709551616
  unfold largest at h
  omega

/-- What is read digit by digit is the number that the digits write. -/
theorem readDigits_eq_ok_iff {cs : List Char} {n : UInt64} :
    readDigits 0 cs = .ok n ↔ (∀ c ∈ cs, c.isDigit = true) ∧ n.toNat = value cs := by
  rw [readDigits_eq (Nat.zero_le largest)]
  constructor
  · intro h
    split at h
    · exact nomatch h
    · next hfits =>
        split at h
        · next hall =>
            have hdigits : ∀ c ∈ cs, c.isDigit = true := List.all_eq_true.1 hall
            rw [List.takeWhile_eq_self_iff.2 hdigits] at hfits
            obtain rfl := Except.ok.inj h
            exact ⟨hdigits, toNat_ofNat hfits⟩
        · exact nomatch h
  · rintro ⟨hdigits, hn⟩
    have hvalue : Nat.ofDigitChars 10 cs 0 = n.toNat := hn.symm
    have hfits : ¬ largest < n.toNat := by
      have hlt := n.toNat_lt
      unfold largest
      omega
    rw [List.takeWhile_eq_self_iff.2 hdigits, hvalue, if_neg hfits, if_pos (List.all_eq_true.2 hdigits),
      UInt64.ofNat_toNat]

/-- A count is read from digits, with one plus sign in front of them or without. -/
theorem read_eq_ok_iff {cs : List Char} {n : UInt64} :
    read cs = .ok n
      ↔ ∃ sign digits, (sign = [] ∨ sign = ['+']) ∧ digits ≠ [] ∧ (∀ d ∈ digits, d.isDigit = true)
          ∧ n.toNat = value digits ∧ cs = sign ++ digits := by
  constructor
  · intro h
    unfold read at h
    split at h
    · exact nomatch h
    · exact nomatch h
    · next digits hne =>
        obtain ⟨hdigits, hn⟩ := readDigits_eq_ok_iff.1 h
        exact ⟨['+'], digits, Or.inr rfl, fun hnil => hne (by rw [hnil]), hdigits, hn, rfl⟩
    · next hne _ _ =>
        obtain ⟨hdigits, hn⟩ := readDigits_eq_ok_iff.1 h
        exact ⟨[], cs, Or.inl rfl, hne, hdigits, hn, rfl⟩
  · rintro ⟨sign, digits, hsign, hne, hdigits, hn, rfl⟩
    have hread : readDigits 0 digits = .ok n := readDigits_eq_ok_iff.2 ⟨hdigits, hn⟩
    rw [← hread]
    rcases hsign with rfl | rfl
    · rw [List.nil_append]
      unfold read
      split
      · exact absurd rfl hne
      · exact absurd (hdigits '+' List.mem_cons_self) (by decide)
      · exact absurd (hdigits '+' List.mem_cons_self) (by decide)
      · rfl
    · cases digits with
      | nil => exact absurd rfl hne
      | cons d ds => rfl

example : read ['+', '0', '7'] = .ok 7 := rfl

/-! ## The text of a count -/

theorem isDigit_of_mem_text {n : UInt64} {c : Char} (h : c ∈ (text n).toList) :
    c.isDigit = true := by
  rw [text, Nat.repr_eq_ofList_toDigits, String.toList_ofList] at h
  exact Nat.isDigit_of_mem_toDigits (by decide) (by decide) h

/-- The text of a count holds nothing but digits. -/
theorem not_mem_text {c : Char} (hc : c.isDigit = false) (n : UInt64) : c ∉ (text n).toList := by
  intro h
  rw [isDigit_of_mem_text h] at hc
  exact Bool.noConfusion hc

/-- The text of a count writes that count. -/
theorem value_text (n : UInt64) : value (text n).toList = n.toNat := by
  rw [value, text, Nat.repr_eq_ofList_toDigits, String.toList_ofList, Nat.ofDigitChars_ten_toDigits]

end BenchLog.Decimal
