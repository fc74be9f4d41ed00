import BenchLog.Config.Override
import BenchLog.Proofs.Decimal.Numeral
import BenchLog.Proofs.Text.Piece

/-!
# `BenchLog.Proofs.Config.Word` — bare words and the numbers among them

A bare word of a variable stands for itself without the blanks around it, unless it writes a number. The
words that do are told here by how they are made up: an `IsReal` number has a point and digits on at least
one side of it, an `IsWhole` one has no point and has to fit into 64 bits, with a sign or without. So digits
that write too large a number are a word like any other.

## Contents
- `IsSign`, `Digits`, `IsExponent`, the parts of a number, with `isExponent_iff`;
- `isReal_iff`, `isWhole_iff`, the two kinds of number;
- `Numeral` and `bare_eq`, bare words.
-/

namespace BenchLog.Config.Override

open BenchLog.Text

/-! ## Numbers -/

/-- A sign, which may be left out. -/
def IsSign (cs : List Char) : Prop := cs = [] ∨ cs = ['-'] ∨ cs = ['+']

/-- Digits of ASCII, of which there may be none. -/
def Digits (cs : List Char) : Prop := ∀ c ∈ cs, c.isDigit = true

/-- The exponent of a number, which may be left out. -/
inductive IsExponent : List Char → Prop
  | absent : IsExponent []
  | present {c : Char} {sign digits : List Char} (hc : c = 'e' ∨ c = 'E') (hsign : IsSign sign)
      (hne : digits ≠ []) (hdigits : Digits digits) : IsExponent (c :: (sign ++ digits))

/-- A number with a point. Digits may be missing on one side of it. -/
inductive IsReal : List Char → Prop
  | mk {sign whole places exponent : List Char} (hsign : IsSign sign) (hwhole : Digits whole)
      (hplaces : Digits places) (hne : whole ≠ [] ∨ places ≠ []) (hexponent : IsExponent exponent) :
      IsReal (sign ++ (whole ++ '.' :: (places ++ exponent)))

/-- A whole number that 64 bits can hold. -/
inductive IsWhole : List Char → Prop
  | unsigned {sign digits : List Char} (hsign : sign = [] ∨ sign = ['+']) (hne : digits ≠ [])
      (hdigits : Digits digits) (hfits : Decimal.value digits < UInt64.size) : IsWhole (sign ++ digits)
  | negative {digits : List Char} (hne : digits ≠ []) (hdigits : Digits digits)
      (hfits : Decimal.value digits ≤ 0x8000000000000000) : IsWhole ('-' :: digits)

variable {cs rest digits : List Char}

theorem exists_sign (cs : List Char) : ∃ sign, IsSign sign ∧ cs = sign ++ dropSign cs := by
  unfold dropSign
  split
  · exact ⟨['-'], Or.inr (Or.inl rfl), rfl⟩
  · exact ⟨['+'], Or.inr (Or.inr rfl), rfl⟩
  · exact ⟨[], Or.inl rfl, rfl⟩

/-- The characters of signs. -/
def isSign (c : Char) : Bool := c == '-' || c == '+'

theorem dropSign_append {sign : List Char} (hsign : IsSign sign) (hends : Ends isSign cs) :
    dropSign (sign ++ cs) = cs := by
  rcases hsign with rfl | rfl | rfl
  · rw [List.nil_append]
    unfold dropSign
    split
    · exact absurd (hends '-' rfl) (by decide)
    · exact absurd (hends '+' rfl) (by decide)
    · rfl
  · rfl
  · rfl

/-- Digits do not go on with a sign. -/
theorem Digits.ends (h : Digits digits) (hrest : Ends isSign rest) : Ends isSign (digits ++ rest) := by
  cases digits with
  | nil => exact hrest
  | cons d ds =>
      refine ends_cons ?_
      have hd : d.isDigit = true := h d List.mem_cons_self
      cases hsign : isSign d with
      | false => rfl
      | true =>
          rcases Bool.or_eq_true_iff.1 hsign with heq | heq
          all_goals
            rw [beq_iff_eq] at heq
            rw [heq] at hd
            exact absurd hd (by decide)

theorem digits_takeWhile (cs : List Char) : Digits (cs.takeWhile Char.isDigit) :=
  List.all_eq_true.1 List.all_takeWhile

theorem isExponent_iff : isExponent cs = true ↔ IsExponent cs := by
  constructor
  · intro h
    cases cs with
    | nil => exact .absent
    | cons c cs =>
        simp only [isExponent, Bool.and_eq_true, Bool.or_eq_true, beq_iff_eq, Bool.not_eq_true',
          List.isEmpty_eq_false_iff, List.all_eq_true] at h
        obtain ⟨⟨hc, hne⟩, hdigits⟩ := h
        obtain ⟨sign, hsign, hcs⟩ := exists_sign cs
        rw [hcs]
        exact .present hc hsign hne hdigits
  · intro h
    cases h with
    | absent => rfl
    | @present c sign digits hc hsign hne hdigits =>
        have hdrop : dropSign (sign ++ digits) = digits := by
          have hends : Ends isSign digits := List.append_nil digits ▸ hdigits.ends (fun _ h => nomatch h)
          exact dropSign_append hsign hends
        simp only [isExponent, hdrop, Bool.and_eq_true, Bool.or_eq_true, beq_iff_eq, Bool.not_eq_true',
          List.isEmpty_eq_false_iff, List.all_eq_true]
        exact ⟨⟨hc, hne⟩, hdigits⟩

theorem isReal_iff : isReal cs = true ↔ IsReal cs := by
  constructor
  · intro h
    obtain ⟨sign, hsign, hcs⟩ := exists_sign cs
    simp only [isReal] at h
    split at h
    · next rest hpoint =>
        simp only [Bool.and_eq_true, Bool.or_eq_true, Bool.not_eq_true', List.isEmpty_eq_false_iff] at h
        obtain ⟨hne, hexponent⟩ := h
        have hbody : dropSign cs = (dropSign cs).takeWhile Char.isDigit
            ++ '.' :: (rest.takeWhile Char.isDigit ++ rest.dropWhile Char.isDigit) := by
          rw [List.takeWhile_append_dropWhile, ← hpoint, List.takeWhile_append_dropWhile]
        rw [hcs, hbody]
        exact .mk hsign (digits_takeWhile _) (digits_takeWhile _) hne (isExponent_iff.1 hexponent)
    · exact nomatch h
  · rintro (@⟨sign, whole, places, exponent, hsign, hwhole, hplaces, hne, hexponent⟩)
    have hpoint : Ends Char.isDigit ('.' :: (places ++ exponent)) := ends_cons (by decide)
    have hletter : Ends Char.isDigit exponent := by
      cases hexponent with
      | absent => exact fun _ h => nomatch h
      | present hc _ _ _ =>
          refine ends_cons ?_
          rcases hc with rfl | rfl <;> decide
    have hdrop : dropSign (sign ++ (whole ++ '.' :: (places ++ exponent)))
        = whole ++ '.' :: (places ++ exponent) :=
      dropSign_append hsign (hwhole.ends (ends_cons (by decide)))
    simp only [isReal, hdrop, takeWhile_append_of_ends hwhole hpoint,
      dropWhile_append_of_ends hwhole hpoint, takeWhile_append_of_ends hplaces hletter,
      dropWhile_append_of_ends hplaces hletter, isExponent_iff.2 hexponent, Bool.and_true,
      Bool.or_eq_true, Bool.not_eq_true', List.isEmpty_eq_false_iff]
    exact hne

theorem isWhole_iff : isWhole cs = true ↔ IsWhole cs := by
  unfold isWhole
  cases hread : Decimal.read cs with
  | ok n =>
      obtain ⟨sign, digits, hsign, hne, hdigits, hn, rfl⟩ := Decimal.read_eq_ok_iff.1 hread
      exact iff_of_true rfl (.unsigned hsign hne hdigits (hn ▸ n.toNat_lt_size))
  | error cause =>
      dsimp only
      constructor
      · intro h
        split at h
        · split at h
          · next n hn =>
              obtain ⟨hdigits, hvalue⟩ := Decimal.readDigits_eq_ok_iff.1 hn
              refine .negative (List.cons_ne_nil _ _) hdigits ?_
              rw [← hvalue]
              exact of_decide_eq_true h
          · exact nomatch h
        · exact nomatch h
      · intro h
        cases h with
        | @unsigned sign digits hsign hne hdigits hfits =>
            -- It would have been read as a count.
            have hn : (UInt64.ofNat (Decimal.value digits)).toNat = Decimal.value digits :=
              UInt64.toNat_ofNat_of_lt' hfits
            have hok := Decimal.read_eq_ok_iff.2 ⟨sign, digits, hsign, hne, hdigits, hn, rfl⟩
            exact nomatch hok.symm.trans hread
        | @negative digits hne hdigits hfits =>
            have hn : (UInt64.ofNat (Decimal.value digits)).toNat = Decimal.value digits :=
              UInt64.toNat_ofNat_of_lt' (Nat.lt_of_le_of_lt hfits (by decide))
            have hok := Decimal.readDigits_eq_ok_iff.2 ⟨hdigits, hn⟩
            cases digits with
            | nil => exact absurd rfl hne
            | cons d ds =>
                simp only [hok, hn]
                exact decide_eq_true hfits

/-! ## Bare words -/

/-- The words that write a number. -/
def Numeral (cs : List Char) : Prop := IsReal cs ∨ IsWhole cs

/-- A bare word that writes no number stands for itself, without the blanks around it. -/
theorem bare_of_numeral (h : Numeral (trim cs)) : bare cs = .scalar := by
  rw [bare, if_pos]
  rw [Bool.or_eq_true, isReal_iff, isWhole_iff]
  exact h

theorem bare_of_not_numeral (h : ¬ Numeral (trim cs)) :
    bare cs = .text (String.ofList (trim cs)) := by
  rw [bare, if_neg]
  rw [Bool.or_eq_true, isReal_iff, isWhole_iff]
  exact h

end BenchLog.Config.Override
