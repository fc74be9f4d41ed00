import BenchLog.Proofs.Record.Line
import BenchLog.Record.Measurement
import Mathlib.Data.List.TakeWhile

/-!
# `BenchLog.Proofs.Record.Measurement` — measurement lines are accepted by their shape

`MeasurementLine` is a measurement line in pieces: blanks, digits with a point, blanks, a digit with more digits
and commas behind it, blanks, and any text. A line is accepted if and only if it can be taken apart in this
way. The pieces that are looked at are then the same however it is done, since every run ends where the next
one begins; only the blanks behind the count may be shared out differently.

The shape admits the digits of every script, the numbers only those of ASCII. So a line of the right shape may
still fail for its seconds, and after them for its count.

## Contents
- `Decimal.readReal?_point`, digits with a point;
- `MeasurementLine`, with `MeasurementLine.ofLine?_chars` and `MeasurementText.exists_line_of_ofLine?`;
- `MeasurementLine.outcome`, what reading a line gives, and `MeasurementLine.ofLine_line_eq`;
- `thousands`, digits in groups;
- `MeasurementLine.outcome_cases`, the ways to end, and one equivalence for each;
- `Measurement.ofLine_by_shape`.
-/

namespace BenchLog

open BenchLog.Text

/-- Digits with a point are read if all of them are ASCII digits. -/
theorem Decimal.readReal?_point {whole places : List Char} (hwhole : whole ≠ []) (hplaces : places ≠ [])
    (hpoint : '.' ∉ whole) :
    Decimal.readReal? (whole ++ '.' :: places)
      = if (whole ++ places).all Char.isDigit then
          some (Float.ofScientific (Decimal.valueOf (whole ++ places)) true places.length)
        else none := by
  cases hrest : whole.dropWhile Char.isDigit with
  | nil =>
      have hdigits : ∀ c ∈ whole, c.isDigit = true := List.dropWhile_eq_nil_iff.1 hrest
      have hends : Ends Char.isDigit ('.' :: places) := ends_cons (by decide)
      simp only [Decimal.readReal?, takeWhile_append_of_ends hdigits hends,
        dropWhile_append_of_ends hdigits hends, List.all_append, List.all_eq_true.2 hdigits,
        Bool.true_and, List.isEmpty_eq_false_iff.2 hwhole, List.isEmpty_eq_false_iff.2 hplaces,
        Bool.not_false]
  | cons c cs =>
      -- Before the point stands a character that is no ASCII digit, and reading stops there.
      have hc : c.isDigit = false := ends_dropWhile Char.isDigit whole c (by rw [hrest]; rfl)
      have hparts : whole.takeWhile Char.isDigit ++ c :: cs = whole :=
        hrest ▸ List.takeWhile_append_dropWhile
      have hmem : c ∈ whole := hparts ▸ List.mem_append_right _ List.mem_cons_self
      have hdrop : (whole ++ '.' :: places).dropWhile Char.isDigit = c :: (cs ++ '.' :: places) := by
        rw [← hparts, List.append_assoc]
        exact dropWhile_append_of_ends (List.all_eq_true.1 List.all_takeWhile) (ends_cons hc)
      have hall : (whole ++ places).all Char.isDigit = false :=
        List.all_eq_false.2 ⟨c, List.mem_append_left _ hmem, by simp [hc]⟩
      rw [hall, if_neg Bool.false_ne_true, Decimal.readReal?, hdrop]
      split
      · next heq =>
          obtain rfl := (List.cons.inj heq).1
          exact absurd hmem hpoint
      · rfl

namespace Record

variable {p : Char → Bool} {c : Char} {cs : List Char}

/-! ## The pieces of a line -/

/-- A run made of what a reader has taken. -/
def Run.ofTaken (chars : List Char) (hne : chars ≠ []) (hall : ∀ c ∈ chars, p c = true) : Run p 1 where
  chars := chars
  least_le := List.length_pos_iff.2 hne
  all_true := List.all_eq_true.2 hall

/-- A measurement line as it may be written. -/
structure MeasurementLine where
  indent : Run isBlank 1
  /-- The digits of the seconds before and after their point. -/
  whole : Run isDecimal 1
  places : Run isDecimal 1
  gap : Run isBlank 1
  /-- The first digit of the count. -/
  lead : Char
  /-- The other digits of the count, with commas anywhere. -/
  grouped : Run isCountChar 0
  pad : Run isBlank 1
  /-- What stands after the count. -/
  after : List Char
  lead_isDecimal : isDecimal lead = true := by decide
  after_oneLine : '\n' ∉ after := by decide

namespace MeasurementLine

/-- The seconds as written. -/
def elapsed (m : MeasurementLine) : List Char := m.whole.chars ++ '.' :: m.places.chars

/-- The count as written. -/
def count (m : MeasurementLine) : List Char := m.lead :: m.grouped.chars

/-- A line from its count on. -/
def countChars (m : MeasurementLine) : List Char := m.count ++ (m.pad.chars ++ m.after)

/-- The characters of a line. -/
def chars (m : MeasurementLine) : List Char :=
  m.indent.chars ++ (m.whole.chars ++ '.' :: (m.places.chars ++ (m.gap.chars ++ m.countChars)))

/-- The line itself. -/
def line (m : MeasurementLine) : String := String.ofList m.chars

/-- The pieces that are looked at. -/
def text (m : MeasurementLine) : MeasurementText := ⟨m.elapsed, m.count⟩

end MeasurementLine

/-! ## The shape -/

theorem isCountChar_of_isBlank (h : isBlank c = true) : isCountChar c = false :=
  forall_isBlank (P := fun c => isCountChar c = false) (by decide) h

theorem isCountChar_of_isDecimal (h : isDecimal c = true) : isCountChar c = true := by
  rw [isCountChar, h, Bool.true_or]

/-- A line in pieces is taken to these pieces. -/
theorem MeasurementLine.ofLine?_chars (m : MeasurementLine) :
    MeasurementText.ofLine? m.chars = some m.text := by
  have hlead : isCountChar m.lead = true := isCountChar_of_isDecimal m.lead_isDecimal
  have hindent := dropBlanks?_append m.indent.ne_nil m.indent.all
    (m.whole.chars ++ '.' :: (m.places.chars ++ (m.gap.chars ++ m.countChars)))
  rw [trimStart_of_ends (m.whole.ends (fun _ => isBlank_of_isDecimal) _)] at hindent
  have hwhole : takeDigits? (m.whole.chars ++ '.' :: (m.places.chars ++ (m.gap.chars ++ m.countChars)))
      = some (m.whole.chars, '.' :: (m.places.chars ++ (m.gap.chars ++ m.countChars))) :=
    takeDigits?_eq_some.2 ⟨m.whole.ne_nil, m.whole.all, ends_cons (by decide), rfl⟩
  have hpoint : dropChar? '.' ('.' :: (m.places.chars ++ (m.gap.chars ++ m.countChars)))
      = some (m.places.chars ++ (m.gap.chars ++ m.countChars)) := dropChar?_eq_some.2 rfl
  have hplaces : takeDigits? (m.places.chars ++ (m.gap.chars ++ m.countChars))
      = some (m.places.chars, m.gap.chars ++ m.countChars) :=
    takeDigits?_eq_some.2
      ⟨m.places.ne_nil, m.places.all, m.gap.ends (fun _ => isDecimal_of_isBlank) _, rfl⟩
  have hgap : dropBlanks? (m.gap.chars ++ m.countChars) = some m.countChars := by
    rw [dropBlanks?_append m.gap.ne_nil m.gap.all, trimStart_of_ends]
    exact ends_cons (isBlank_of_isDecimal m.lead_isDecimal)
  have hdigits : takeDigits? m.countChars
      = some (m.countChars.takeWhile isDecimal, m.countChars.dropWhile isDecimal) := by
    refine takeDigits?_eq_some.2 ⟨?_, List.all_eq_true.1 List.all_takeWhile, ends_dropWhile _ _,
      List.takeWhile_append_dropWhile.symm⟩
    rw [countChars, count, List.cons_append, List.takeWhile_cons_of_pos m.lead_isDecimal]
    exact List.cons_ne_nil _ _
  have hall : ∀ c ∈ m.count, isCountChar c = true := List.forall_mem_cons.2 ⟨hlead, m.grouped.all⟩
  have hends : Ends isCountChar (m.pad.chars ++ m.after) :=
    m.pad.ends (fun _ => isCountChar_of_isBlank) _
  have htake : m.countChars.takeWhile isCountChar = m.count := takeWhile_append_of_ends hall hends
  have hdrop : m.countChars.dropWhile isCountChar = m.pad.chars ++ m.after :=
    dropWhile_append_of_ends hall hends
  have hpad := dropBlanks?_append m.pad.ne_nil m.pad.all m.after
  have honeLine : onOneLine (trimStart m.after) = true :=
    onOneLine_iff.2 fun h => m.after_oneLine ((trimStart_suffix m.after).subset h)
  simp only [MeasurementText.ofLine?, chars, hindent, hwhole, hpoint, hplaces, hgap, hdigits, htake, hdrop,
    hpad, honeLine, Option.bind_eq_bind, Option.bind_some, if_true]
  rfl

/-- What is taken apart is a line in pieces. -/
theorem MeasurementText.exists_line_of_ofLine? {t : MeasurementText}
    (h : MeasurementText.ofLine? cs = some t) :
    ∃ m : MeasurementLine, m.chars = cs ∧ m.text = t := by
  unfold MeasurementText.ofLine? at h
  obtain ⟨afterIndent, hindent, h⟩ := Option.bind_eq_some_iff.1 h
  obtain ⟨⟨whole, afterWhole⟩, hwhole, h⟩ := Option.bind_eq_some_iff.1 h
  obtain ⟨afterPoint, hpoint, h⟩ := Option.bind_eq_some_iff.1 h
  obtain ⟨⟨places, afterPlaces⟩, hplaces, h⟩ := Option.bind_eq_some_iff.1 h
  obtain ⟨body, hgap, h⟩ := Option.bind_eq_some_iff.1 h
  obtain ⟨⟨digits, afterDigits⟩, hdigits, h⟩ := Option.bind_eq_some_iff.1 h
  obtain ⟨rest, hpad, hlast⟩ := Option.bind_eq_some_iff.1 h
  obtain ⟨indent, hindentNe, hindentAll, -, rfl⟩ := dropBlanks?_eq_some.1 hindent
  obtain ⟨hwholeNe, hwholeAll, -, rfl⟩ := takeDigits?_eq_some.1 hwhole
  obtain rfl := dropChar?_eq_some.1 hpoint
  obtain ⟨hplacesNe, hplacesAll, -, rfl⟩ := takeDigits?_eq_some.1 hplaces
  obtain ⟨gap, hgapNe, hgapAll, -, rfl⟩ := dropBlanks?_eq_some.1 hgap
  obtain ⟨pad, hpadNe, hpadAll, -, hdrop⟩ := dropBlanks?_eq_some.1 hpad
  obtain ⟨hne, hall, -, hbody⟩ := takeDigits?_eq_some.1 hdigits
  split at hlast
  · next honeLine =>
      obtain rfl := Option.some.inj hlast
      cases digits with
      | nil => exact absurd rfl hne
      | cons lead digits =>
          have hlead : isDecimal lead = true := hall lead List.mem_cons_self
          have hcount : isCountChar lead = true := isCountChar_of_isDecimal hlead
          obtain rfl : body = lead :: (digits ++ afterDigits) := hbody
          rw [List.dropWhile_cons_of_pos hcount] at hdrop
          refine ⟨⟨.ofTaken indent hindentNe hindentAll, .ofTaken whole hwholeNe hwholeAll,
            .ofTaken places hplacesNe hplacesAll, .ofTaken gap hgapNe hgapAll, lead,
            ⟨(digits ++ afterDigits).takeWhile isCountChar, Nat.zero_le _, List.all_takeWhile⟩,
            .ofTaken pad hpadNe hpadAll, rest, hlead, onOneLine_iff.1 honeLine⟩, ?_, ?_⟩
          · simp only [MeasurementLine.chars, MeasurementLine.countChars, MeasurementLine.count,
              Run.ofTaken, ← hdrop, List.cons_append, List.takeWhile_append_dropWhile]
          · rw [MeasurementLine.text, MeasurementLine.count, List.takeWhile_cons_of_pos hcount]
            rfl
  · exact nomatch hlast

/-! ## The values -/

namespace MeasurementLine

variable (m : MeasurementLine)

/-- The digits of the count, without the commas. -/
def digits : List Char := m.count.filter (· != ',')

/-- The seconds are spelled with ASCII digits. -/
def PlainTime : Prop := ∀ c ∈ m.whole.chars ++ m.places.chars, c.isDigit = true

/-- The seconds, provided that they are spelled with ASCII digits. -/
def seconds : Float :=
  Float.ofScientific (Decimal.valueOf (m.whole.chars ++ m.places.chars)) true m.places.chars.length

/-- The same line with the commas taken out of its count. -/
def withoutCommas : MeasurementLine :=
  { m with
    grouped := ⟨m.grouped.chars.filter (· != ','), Nat.zero_le _,
      List.all_eq_true.2 fun c hc => m.grouped.all c (List.mem_filter.1 hc).1⟩ }

theorem digits_eq : m.digits = m.lead :: m.grouped.chars.filter (· != ',') := by
  have hlead : m.lead ≠ ',' := by
    intro h
    exact absurd (h ▸ m.lead_isDecimal) (by decide)
  rw [digits, count, List.filter_cons_of_pos (by simpa using hlead)]

theorem digits_withoutCommas : m.withoutCommas.digits = m.digits := by
  rw [digits_eq, digits_eq]
  simp [withoutCommas]

instance : Decidable m.PlainTime :=
  inferInstanceAs (Decidable (∀ c ∈ m.whole.chars ++ m.places.chars, c.isDigit = true))

/-- What reading a line gives: an error for the seconds if one of their digits is no ASCII digit, else an error
    for the count if that is too large or has another digit, whichever shows first, else the measurement. -/
def outcome : Except LineError Measurement :=
  if m.PlainTime then
    if Decimal.largest < Decimal.value (m.digits.takeWhile Char.isDigit) then
      .error (.integer .count (String.ofList m.count) .tooLarge)
    else if m.digits.all Char.isDigit then
      .ok ⟨m.seconds, UInt64.ofNat (Decimal.value m.digits)⟩
    else .error (.integer .count (String.ofList m.count) .invalidDigit)
  else .error (.number (String.ofList m.elapsed))

theorem readReal?_elapsed :
    Decimal.readReal? m.elapsed = if m.PlainTime then some m.seconds else none := by
  have hpoint : '.' ∉ m.whole.chars := m.whole.not_mem (by decide)
  rw [elapsed, Decimal.readReal?_point m.whole.ne_nil m.places.ne_nil hpoint, seconds]
  by_cases htime : m.PlainTime
  · rw [if_pos htime, if_pos (List.all_eq_true.2 htime)]
  · rw [if_neg htime, if_neg (mt List.all_eq_true.1 htime)]

theorem read_digits :
    Decimal.read m.digits
      = if Decimal.largest < Decimal.value (m.digits.takeWhile Char.isDigit) then .error .tooLarge
        else if m.digits.all Char.isDigit then .ok (UInt64.ofNat (Decimal.value m.digits))
        else .error .invalidDigit := by
  have hlead : m.lead ≠ '+' := by
    intro h
    exact absurd (h ▸ m.lead_isDecimal) (by decide)
  refine Decimal.read_eq ?_ ?_
  · rw [digits_eq]
    exact List.cons_ne_nil _ _
  · rw [digits_eq]
    simpa using hlead

theorem ofLine_line_eq : Measurement.ofLine m.line = m.outcome := by
  have hpieces : MeasurementText.ofLine? m.line.toList = some ⟨m.elapsed, m.count⟩ := by
    rw [line, String.toList_ofList]
    exact m.ofLine?_chars
  have hdigits : m.count.filter (· != ',') = m.digits := rfl
  rw [Measurement.ofLine, hpieces, outcome]
  dsimp only
  rw [m.readReal?_elapsed, hdigits, m.read_digits]
  by_cases htime : m.PlainTime
  · rw [if_pos htime, if_pos htime]
    by_cases hlarge : Decimal.largest < Decimal.value (m.digits.takeWhile Char.isDigit)
    · rw [if_pos hlarge, if_pos hlarge]
    · rw [if_neg hlarge, if_neg hlarge]
      by_cases hall : m.digits.all Char.isDigit = true
      · rw [if_pos hall, if_pos hall]
      · rw [if_neg hall, if_neg hall]
  · rw [if_neg htime, if_neg htime]

end MeasurementLine

/-! ## Commas -/

/-- Digits in groups of three, counted from the right, with a comma between two groups. -/
def thousands : List Char → List Char
  | [] => []
  | d :: ds => if ds ≠ [] ∧ ds.length % 3 = 0 then d :: ',' :: thousands ds else d :: thousands ds

theorem filter_thousands {digits : List Char} (h : ',' ∉ digits) :
    (thousands digits).filter (· != ',') = digits := by
  induction digits with
  | nil => rfl
  | cons d ds ih =>
      rw [List.mem_cons, not_or] at h
      have hd : d ≠ ',' := Ne.symm h.1
      rw [thousands]
      split
      · simp [hd, ih h.2]
      · simp [hd, ih h.2]

/-! ## The ways to end -/

namespace MeasurementLine

variable {m : MeasurementLine}

theorem outcome_of_not_plainTime (htime : ¬ m.PlainTime) :
    m.outcome = .error (.number (String.ofList m.elapsed)) := by
  rw [outcome, if_neg htime]

/-- A count of ASCII digits is too large exactly if the number that they write is. -/
theorem outcome_of_digits (htime : m.PlainTime) (hall : ∀ d ∈ m.digits, d.isDigit = true) :
    m.outcome
      = if Decimal.largest < Decimal.value m.digits then
          .error (.integer .count (String.ofList m.count) .tooLarge)
        else .ok ⟨m.seconds, UInt64.ofNat (Decimal.value m.digits)⟩ := by
  rw [outcome, if_pos htime, List.takeWhile_eq_self_iff.2 hall, if_pos (List.all_eq_true.2 hall)]

theorem outcome_of_other_digit (htime : m.PlainTime) (hother : ∃ d ∈ m.digits, d.isDigit = false) :
    ∃ cause, m.outcome = .error (.integer .count (String.ofList m.count) cause) := by
  obtain ⟨d, hd, hdigit⟩ := hother
  have hall : ¬ m.digits.all Char.isDigit = true := by
    intro h
    rw [List.all_eq_true.1 h d hd] at hdigit
    exact absurd hdigit.symm Bool.false_ne_true
  rw [outcome, if_pos htime]
  by_cases hlarge : Decimal.largest < Decimal.value (m.digits.takeWhile Char.isDigit)
  · exact ⟨.tooLarge, by rw [if_pos hlarge]⟩
  · exact ⟨.invalidDigit, by rw [if_neg hlarge, if_neg hall]⟩

/-- What can be wrong with the count of a line. -/
def BadCount (m : MeasurementLine) : Prop :=
  (∃ d ∈ m.digits, d.isDigit = false) ∨ Decimal.largest < Decimal.value m.digits

/-- There are three ways to end, which exclude each other. -/
theorem outcome_cases (m : MeasurementLine) :
    ¬ m.PlainTime ∧ m.outcome = .error (.number (String.ofList m.elapsed))
    ∨ m.PlainTime ∧ m.BadCount
        ∧ (∃ cause, m.outcome = .error (.integer .count (String.ofList m.count) cause))
    ∨ m.PlainTime ∧ ¬ m.BadCount
        ∧ m.outcome = .ok ⟨m.seconds, UInt64.ofNat (Decimal.value m.digits)⟩ := by
  by_cases htime : m.PlainTime
  · right
    by_cases hother : ∃ d ∈ m.digits, d.isDigit = false
    · exact Or.inl ⟨htime, Or.inl hother, outcome_of_other_digit htime hother⟩
    · have hall : ∀ d ∈ m.digits, d.isDigit = true := by simpa using hother
      rw [outcome_of_digits htime hall]
      by_cases hlarge : Decimal.largest < Decimal.value m.digits
      · exact Or.inl ⟨htime, Or.inr hlarge, .tooLarge, if_pos hlarge⟩
      · exact Or.inr ⟨htime, not_or.2 ⟨hother, hlarge⟩, if_neg hlarge⟩
  · exact Or.inl ⟨htime, outcome_of_not_plainTime htime⟩

theorem outcome_ne_noMatch (m : MeasurementLine) (grammar : Grammar) (text : String) :
    m.outcome ≠ .error (.noMatch grammar text) := by
  intro h
  rcases m.outcome_cases with ⟨-, h'⟩ | ⟨-, -, cause, h'⟩ | ⟨-, -, h'⟩
  all_goals exact nomatch h.symm.trans h'

theorem outcome_eq_number_iff {text : String} :
    m.outcome = .error (.number text) ↔ text = String.ofList m.elapsed ∧ ¬ m.PlainTime := by
  rcases m.outcome_cases with ⟨htime, h⟩ | ⟨htime, -, cause, h⟩ | ⟨htime, -, h⟩ <;> rw [h]
  · simp [htime, eq_comm]
  · simp [htime]
  · simp [htime]

theorem outcome_eq_integer_iff {field : Field} {text : String} :
    (∃ cause, m.outcome = .error (.integer field text cause))
      ↔ field = .count ∧ text = String.ofList m.count ∧ m.PlainTime ∧ m.BadCount := by
  rcases m.outcome_cases with ⟨htime, h⟩ | ⟨htime, hbad, cause, h⟩ | ⟨htime, hgood, h⟩ <;> rw [h]
  · simp [htime]
  · simp [htime, hbad, eq_comm]
  · simp [hgood]

theorem outcome_eq_ok_iff {r : Measurement} :
    m.outcome = .ok r
      ↔ m.PlainTime ∧ (∀ d ∈ m.digits, d.isDigit = true) ∧ r.elapsed = m.seconds
          ∧ r.count.toNat = Decimal.value m.digits := by
  constructor
  · intro h
    rcases m.outcome_cases with ⟨-, h'⟩ | ⟨-, -, cause, h'⟩ | ⟨htime, hgood, h'⟩
    · exact nomatch h.symm.trans h'
    · exact nomatch h.symm.trans h'
    · obtain rfl := Except.ok.inj (h.symm.trans h')
      obtain ⟨hother, hlarge⟩ := not_or.1 hgood
      exact ⟨htime, by simpa using hother, rfl, Decimal.toNat_ofNat hlarge⟩
  · rintro ⟨htime, hall, helapsed, hcount⟩
    have hfits : ¬ Decimal.largest < Decimal.value m.digits := by
      have hlt := r.count.toNat_lt
      unfold Decimal.largest
      omega
    rw [outcome_of_digits htime hall, if_neg hfits, ← helapsed, ← hcount, UInt64.ofNat_toNat]

/-- Commas make no difference to what is read. -/
theorem outcome_withoutCommas_eq_ok_iff {r : Measurement} :
    m.withoutCommas.outcome = .ok r ↔ m.outcome = .ok r := by
  rw [outcome_eq_ok_iff, outcome_eq_ok_iff, digits_withoutCommas]
  rfl

end MeasurementLine

/-- **A measurement line is accepted by its shape, and commas never change its count.** A line that is no
    measurement line in pieces has no match, and no other line has none. Reading a measurement line gives an
    error for its seconds if one of their digits is no ASCII digit, else an error for its count if one of the
    digits of the count is none or their number is too large, else the seconds and that number. So a line that
    writes a count, with commas anywhere behind the first digit, is read as that count, and with the seconds
    that it gives without commas. -/
theorem Measurement.ofLine_by_shape :
    (∀ line grammar text, Measurement.ofLine line = .error (.noMatch grammar text)
        ↔ grammar = .measurement ∧ text = line ∧ ¬ ∃ m : MeasurementLine, m.line = line)
      ∧ (∀ m : MeasurementLine,
          (∀ text, Measurement.ofLine m.line = .error (.number text)
            ↔ text = String.ofList m.elapsed ∧ ¬ m.PlainTime)
          ∧ (∀ field text, (∃ cause, Measurement.ofLine m.line = .error (.integer field text cause))
            ↔ field = .count ∧ text = String.ofList m.count ∧ m.PlainTime
              ∧ ((∃ d ∈ m.digits, d.isDigit = false) ∨ UInt64.size ≤ Decimal.value m.digits))
          ∧ (∀ r, Measurement.ofLine m.line = .ok r
            ↔ m.PlainTime ∧ (∀ d ∈ m.digits, d.isDigit = true) ∧ r.elapsed = m.seconds
              ∧ r.count.toNat = Decimal.value m.digits)
          ∧ ∀ r, Measurement.ofLine m.withoutCommas.line = .ok r ↔ Measurement.ofLine m.line = .ok r)
      ∧ ∀ (m : MeasurementLine) (n : UInt64), m.PlainTime →
          (m.digits = (Decimal.text n).toList ∨ m.count = thousands (Decimal.text n).toList) →
          Measurement.ofLine m.line = .ok ⟨m.seconds, n⟩
            ∧ Measurement.ofLine m.withoutCommas.line = .ok ⟨m.seconds, n⟩ := by
  have hbad : ∀ m : MeasurementLine,
      m.BadCount ↔ (∃ d ∈ m.digits, d.isDigit = false) ∨ UInt64.size ≤ Decimal.value m.digits :=
    fun m => Iff.rfl
  refine ⟨?_, ?_, ?_⟩
  · intro line grammar text
    by_cases hshape : ∃ m : MeasurementLine, m.line = line
    · obtain ⟨m, rfl⟩ := hshape
      rw [m.ofLine_line_eq]
      constructor
      · exact fun h => absurd h (m.outcome_ne_noMatch grammar text)
      · exact fun h => absurd ⟨m, rfl⟩ h.2.2
    · have hnone : MeasurementText.ofLine? line.toList = none := by
        cases htaken : MeasurementText.ofLine? line.toList with
        | none => rfl
        | some t =>
            obtain ⟨m, hchars, -⟩ := MeasurementText.exists_line_of_ofLine? htaken
            refine absurd ⟨m, ?_⟩ hshape
            rw [MeasurementLine.line, hchars, String.ofList_toList]
      have hline : Measurement.ofLine line = .error (.noMatch .measurement line) := by
        rw [Measurement.ofLine, hnone]
      rw [hline]
      constructor
      · rintro ⟨⟩
        exact ⟨rfl, rfl, hshape⟩
      · rintro ⟨rfl, rfl, -⟩
        rfl
  · intro m
    rw [m.ofLine_line_eq, m.withoutCommas.ofLine_line_eq]
    refine ⟨fun text => MeasurementLine.outcome_eq_number_iff, fun field text => ?_,
      fun r => MeasurementLine.outcome_eq_ok_iff, fun r => MeasurementLine.outcome_withoutCommas_eq_ok_iff⟩
    rw [← hbad]
    exact MeasurementLine.outcome_eq_integer_iff
  · intro m n htime hwrites
    have hdigits : m.digits = (Decimal.text n).toList := by
      rcases hwrites with hdigits | hcount
      · exact hdigits
      · rw [MeasurementLine.digits, hcount, filter_thousands (Decimal.not_mem_text (by decide) n)]
    have hok : m.outcome = .ok ⟨m.seconds, n⟩ := by
      refine MeasurementLine.outcome_eq_ok_iff.2 ⟨htime, ?_, rfl, ?_⟩
      · rw [hdigits]
        exact fun d hd => Decimal.isDigit_of_mem_text hd
      · rw [hdigits, Decimal.value_text]
    rw [m.ofLine_line_eq, m.withoutCommas.ofLine_line_eq]
    exact ⟨hok, MeasurementLine.outcome_withoutCommas_eq_ok_iff.2 hok⟩

/-- The line that the description of the log gives as an example. -/
def exampleMeasurement : MeasurementLine where
  indent := { chars := "    ".toList }
  whole := { chars := "20".toList }
  places := { chars := "014119528".toList }
  gap := { chars := "          ".toList }
  lead := '1'
  grouped := { chars := ",249,626".toList }
  pad := { chars := "      ".toList }
  after := "syscalls:sys_enter_flock     ".toList

theorem Measurement.ofLine_by_shape_grouped :
    exampleMeasurement.line = "    20.014119528          1,249,626      syscalls:sys_enter_flock     "
      ∧ exampleMeasurement.PlainTime
      ∧ exampleMeasurement.count = thousands (Decimal.text 1249626).toList
      ∧ Measurement.ofLine exampleMeasurement.line = .ok ⟨exampleMeasurement.seconds, 1249626⟩ := by
  have htime : exampleMeasurement.PlainTime := List.all_eq_true.1 (by decide)
  have hcount : exampleMeasurement.count = thousands (Decimal.text 1249626).toList := by decide
  refine ⟨by decide, htime, hcount, ?_⟩
  exact (Measurement.ofLine_by_shape.2.2 exampleMeasurement 1249626 htime (Or.inr hcount)).1

end Record

end BenchLog
