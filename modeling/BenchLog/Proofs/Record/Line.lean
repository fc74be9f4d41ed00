import BenchLog.Proofs.Decimal.Numeral
import BenchLog.Proofs.Text.Piece
import BenchLog.Record.Counter

/-!
# `BenchLog.Proofs.Record.Line` — the pieces of a record line

A record line leaves much freedom to whoever writes it: what stands before the time stamp and after the last
count, how wide the gaps are, in which letter case the words are spelled, how many zeros a count begins with.
`RecordLine` is such a line in pieces, and reading finds these pieces again.

The time stamp is the last one of the line, since no bracket opens after it; the tag ends at its colon, since
no shorter tag has the colon behind it; and every run ends where the next piece begins, since no piece begins
with a character of the run before it.

## Contents
- `Run`, `WrittenCount`, `RecordLine`: the pieces, with what is asked of them;
- `WrittenCount.takeNumber?_append`, `WrittenCount.read_bind`: one count;
- `RecordLine.readFields?_fieldChars`, `RecordLine.readBody?_bodyChars`, `RecordLine.dropStamp?_stampChars`:
  what stands behind the tag, behind the time stamp, and from the time stamp on;
- `RecordLine.ofLine?_chars`: the whole line.
-/

namespace BenchLog.Record

open BenchLog.Text

/-! ## The pieces of a line -/

/-- Characters of one kind, at least `least` of them. -/
structure Run (p : Char → Bool) (least : Nat) where
  chars : List Char
  least_le : least ≤ chars.length := by decide
  all_true : chars.all p = true := by decide

/-- A count as it may be written: a blank, its word in any letter case, any blanks, and ASCII digits. -/
structure WrittenCount (word : String) where
  blank : Char
  spelling : List Char
  gap : Run isBlank 0
  digits : Run Char.isDigit 1
  blank_isBlank : isBlank blank = true := by decide
  spelling_fold : spelling.map foldCase = word.toList := by decide

/-- The characters of a count. -/
def WrittenCount.chars {word : String} (n : WrittenCount word) : List Char :=
  n.blank :: (n.spelling ++ (n.gap.chars ++ n.digits.chars))

/-- The number that a count is. -/
def WrittenCount.value {word : String} (n : WrittenCount word) : Nat := Decimal.value n.digits.chars

/-- A record line as it may be written. -/
structure RecordLine where
  /-- What stands before the time stamp. -/
  before : List Char
  /-- The digits of the time stamp before and after its point. -/
  whole : Run isDecimal 1
  places : Run isDecimal 1
  indent : Run isBlank 1
  tag : List Char
  /-- The blanks between the tag and its colon. -/
  pad : Run isBlank 0
  threads : WrittenCount "threads:"
  preempt : WrittenCount "preempt:"
  max : WrittenCount "max:"
  cycle : WrittenCount "cycle:"
  a : WrittenCount "a:"
  b : WrittenCount "b:"
  delta : WrittenCount "delta:"
  /-- The blanks before the one that belongs to the hits. -/
  wide : Run isBlank 0
  hits : WrittenCount "hits:"
  missed : WrittenCount "missed:"
  /-- What stands after the last count. -/
  after : List Char
  before_oneLine : '\n' ∉ before := by decide
  tag_ne_nil : tag ≠ [] := by decide
  tag_plain : '\n' ∉ tag ∧ '[' ∉ tag ∧ ':' ∉ tag := by decide
  /-- The tag neither begins nor ends with a blank. -/
  tag_trimmed : Ends isBlank tag ∧ Ends isBlank tag.reverse
  /-- These two counts follow their words directly. -/
  close : a.gap.chars = [] ∧ b.gap.chars = [] := by decide
  after_plain : '\n' ∉ after ∧ '[' ∉ after := by decide
  /-- The last count is over before what stands after it. -/
  after_ends : Ends isDecimal after

namespace RecordLine

/-- The counts of a line, and what stands after them. -/
def countChars (l : RecordLine) : List Char :=
  l.threads.chars ++ (l.preempt.chars ++ (l.max.chars ++ (l.cycle.chars ++ (l.a.chars ++ (l.b.chars ++
    (l.delta.chars ++ (l.wide.chars ++ (l.hits.chars ++ (l.missed.chars ++ l.after)))))))))

/-- A line from the blanks before its colon on. -/
def fieldChars (l : RecordLine) : List Char := l.pad.chars ++ ':' :: l.countChars

/-- A line from the end of its time stamp on. -/
def bodyChars (l : RecordLine) : List Char := l.indent.chars ++ (l.tag ++ l.fieldChars)

/-- A line from within the bracket of its time stamp on. -/
def stampChars (l : RecordLine) : List Char :=
  l.whole.chars ++ '.' :: (l.places.chars ++ ']' :: l.bodyChars)

/-- The characters of a line. -/
def chars (l : RecordLine) : List Char := l.before ++ '[' :: l.stampChars

/-- The line itself. -/
def line (l : RecordLine) : String := String.ofList l.chars

/-- The counts as written. -/
def fields (l : RecordLine) : CounterFields where
  threads := l.threads.digits.chars
  preempt := l.preempt.digits.chars
  max := l.max.digits.chars
  cycle := l.cycle.digits.chars
  a := l.a.digits.chars
  b := l.b.digits.chars
  delta := l.delta.digits.chars
  hits := l.hits.digits.chars
  missed := l.missed.digits.chars

end RecordLine

/-! ## Where a piece begins -/

variable {p : Char → Bool} {least : Nat} {word : String} {rest : List Char}

theorem Run.ne_nil (r : Run p 1) : r.chars ≠ [] := List.ne_nil_of_length_pos r.least_le

theorem Run.all (r : Run p least) : ∀ c ∈ r.chars, p c = true := List.all_eq_true.1 r.all_true

theorem Run.not_mem (r : Run p least) {c : Char} (hc : p c = false) : c ∉ r.chars := by
  intro hmem
  rw [r.all c hmem] at hc
  exact Bool.noConfusion hc

theorem isDecimal_of_isDigit {c : Char} (h : c.isDigit = true) : isDecimal c = true := by
  rw [isDecimal, h, Bool.true_or]

/-- A run ends any run of characters of another kind. -/
theorem Run.ends {q : Char → Bool} (r : Run p 1) (h : ∀ c, p c = true → q c = false) (rest : List Char) :
    Ends q (r.chars ++ rest) := by
  cases hchars : r.chars with
  | nil => exact absurd hchars r.ne_nil
  | cons c cs => exact ends_cons (h c (r.all c (hchars ▸ List.mem_cons_self)))

/-- Digits are no blanks. -/
theorem ends_digits (digits : Run Char.isDigit 1) (rest : List Char) :
    Ends isBlank (digits.chars ++ rest) :=
  digits.ends (fun _ hc => isBlank_of_isDecimal (isDecimal_of_isDigit hc)) rest

/-- Blanks end the digits before them. -/
theorem Run.ends_append (r : Run isBlank least) (hrest : Ends isDecimal rest) :
    Ends isDecimal (r.chars ++ rest) := by
  cases hchars : r.chars with
  | nil => exact hrest
  | cons c cs => exact ends_cons (isDecimal_of_isBlank (r.all c (hchars ▸ List.mem_cons_self)))

namespace WrittenCount

/-- A count begins with a blank, so it ends the digits before it. -/
theorem ends_chars (n : WrittenCount word) (rest : List Char) : Ends isDecimal (n.chars ++ rest) :=
  ends_cons (isDecimal_of_isBlank n.blank_isBlank)

/-- A word begins with no blank, so it ends the blanks before it. -/
theorem ends_spelling (n : WrittenCount word) (hword : word.toList.any isBlank = false)
    (hne : word.toList ≠ []) (rest : List Char) : Ends isBlank (n.spelling ++ rest) := by
  cases hspelling : n.spelling with
  | nil =>
      rw [← n.spelling_fold, hspelling] at hne
      exact absurd rfl hne
  | cons c cs =>
      refine ends_cons ?_
      cases hblank : isBlank c with
      | false => rfl
      | true =>
          -- A blank folds to itself, and the word has none.
          have hmem : foldCase c ∈ word.toList := by
            rw [← n.spelling_fold, hspelling]
            exact List.mem_cons_self
          have hc := List.any_eq_false.1 hword (foldCase c) hmem
          rw [foldCase_of_isBlank hblank] at hc
          exact absurd hblank hc

/-- What is left of a count when its blank has been read. -/
theorem dropBlank?_append (n : WrittenCount word) (rest : List Char) :
    dropBlank? (n.chars ++ rest)
      = some (n.spelling ++ (n.gap.chars ++ (n.digits.chars ++ rest))) := by
  refine dropBlank?_eq_some.2 ⟨n.blank, n.blank_isBlank, ?_⟩
  rw [chars, List.cons_append, List.append_assoc, List.append_assoc]

theorem dropWord?_append (n : WrittenCount word) (rest : List Char) :
    dropWord? word.toList (n.spelling ++ rest) = some rest :=
  dropWord?_eq_some.2 ⟨n.spelling, n.spelling_fold, rfl⟩

theorem takeDigits?_append (n : WrittenCount word) (hrest : Ends isDecimal rest) :
    takeDigits? (n.digits.chars ++ rest) = some (n.digits.chars, rest) :=
  takeDigits?_eq_some.2
    ⟨n.digits.ne_nil, fun d hd => isDecimal_of_isDigit (n.digits.all d hd), hrest, rfl⟩

/-- The digits of a count are found behind its word and its gap. -/
theorem takeNumber?_append (n : WrittenCount word) (hrest : Ends isDecimal rest) :
    takeNumber? word.toList (n.spelling ++ (n.gap.chars ++ (n.digits.chars ++ rest)))
      = some (n.digits.chars, rest) := by
  rw [takeNumber?, n.dropWord?_append, Option.bind_some,
    trimStart_append n.gap.all (ends_digits n.digits rest), n.takeDigits?_append hrest]

section Steps

variable {α : Type} (next : List Char × List Char → Option α)

/-- Reading a count hands its digits and what stands after it to the next step. -/
theorem read_bind (n : WrittenCount word) (hrest : Ends isDecimal rest) :
    ((dropBlank? (n.chars ++ rest)).bind fun cs => (takeNumber? word.toList cs).bind next)
      = next (n.digits.chars, rest) := by
  rw [n.dropBlank?_append, Option.bind_some, n.takeNumber?_append hrest, Option.bind_some]

/-- The same for a count that follows its word directly. -/
theorem readClose_bind (n : WrittenCount word) (hclose : n.gap.chars = [])
    (hrest : Ends isDecimal rest) :
    ((dropBlank? (n.chars ++ rest)).bind fun cs =>
        (dropWord? word.toList cs).bind fun cs => (takeDigits? cs).bind next)
      = next (n.digits.chars, rest) := by
  rw [n.dropBlank?_append, Option.bind_some, n.dropWord?_append, Option.bind_some, hclose,
    List.nil_append, n.takeDigits?_append hrest, Option.bind_some]

/-- The same for a count with more blanks before it. -/
theorem readWide_bind (n : WrittenCount word) (wide : Run isBlank 0)
    (hword : word.toList.any isBlank = false) (hne : word.toList ≠ [])
    (hrest : Ends isDecimal rest) :
    ((dropBlanks? (wide.chars ++ (n.chars ++ rest))).bind fun cs =>
        (takeNumber? word.toList cs).bind next)
      = next (n.digits.chars, rest) := by
  have hblanks : ∀ c ∈ wide.chars ++ [n.blank], isBlank c = true := by
    intro c hc
    rcases List.mem_append.1 hc with hwide | hblank
    · exact wide.all c hwide
    · rw [List.mem_singleton.1 hblank]
      exact n.blank_isBlank
  -- The blank of the count is the last one of the run.
  have hchars : wide.chars ++ (n.chars ++ rest)
      = (wide.chars ++ [n.blank]) ++ (n.spelling ++ (n.gap.chars ++ (n.digits.chars ++ rest))) := by
    simp [chars]
  rw [hchars, dropBlanks?_append (by simp) hblanks, trimStart_of_ends (n.ends_spelling hword hne _),
    Option.bind_some, n.takeNumber?_append hrest, Option.bind_some]

end Steps

end WrittenCount

/-! ## The fields -/

namespace RecordLine

/-- The fields of a line are read back. -/
theorem readFields?_fieldChars (l : RecordLine) : readFields? l.fieldChars = some l.fields := by
  have hcolon : dropChar? ':' (trimStart l.fieldChars) = some l.countChars := by
    rw [fieldChars, trimStart_append l.pad.all (ends_cons (by decide))]
    exact dropChar?_eq_some.2 rfl
  have hline : onOneLine l.after = true := onOneLine_iff.2 l.after_plain.1
  unfold readFields?
  rw [hcolon]
  -- One step for each count; what follows it begins with a blank, or is no digit at the end.
  refine (l.threads.read_bind _ (l.preempt.ends_chars _)).trans ?_
  refine (l.preempt.read_bind _ (l.max.ends_chars _)).trans ?_
  refine (l.max.read_bind _ (l.cycle.ends_chars _)).trans ?_
  refine (l.cycle.read_bind _ (l.a.ends_chars _)).trans ?_
  refine (l.a.readClose_bind _ l.close.1 (l.b.ends_chars _)).trans ?_
  refine (l.b.readClose_bind _ l.close.2 (l.delta.ends_chars _)).trans ?_
  refine (l.delta.read_bind _ (l.wide.ends_append (l.hits.ends_chars _))).trans ?_
  refine (l.hits.readWide_bind _ l.wide (by decide) (by decide) (l.missed.ends_chars _)).trans ?_
  refine (l.missed.read_bind _ l.after_ends).trans ?_
  exact if_pos hline

end RecordLine

/-! ## The tag -/

section Tag

variable {tag : List Char} {fields : CounterFields}

/-- The fields do not begin inside a tag, since the blanks there are not followed by a colon. -/
theorem readFields?_eq_none (hne : tag ≠ []) (hcolon : ':' ∉ tag) (hback : Ends isBlank tag.reverse)
    (rest : List Char) : readFields? (tag ++ rest) = none := by
  -- The last character of the tag is no blank, so trimming stops inside the tag.
  have htrim : trimStart tag ≠ [] := by
    intro hnil
    have hall := isBlank_of_trimStart_eq_nil hnil
    cases hreverse : tag.reverse with
    | nil => exact hne (List.reverse_eq_nil_iff.1 hreverse)
    | cons e es =>
        have he : isBlank e = false := hback e (by rw [hreverse]; rfl)
        have hmem : e ∈ tag := List.mem_reverse.1 (hreverse ▸ List.mem_cons_self)
        rw [hall e hmem] at he
        exact Bool.noConfusion he
  have happend : trimStart (tag ++ rest) = trimStart tag ++ rest := by
    rw [trimStart, List.dropWhile_append, if_neg]
    · rfl
    · rw [List.isEmpty_iff]
      exact htrim
  have hstop : dropChar? ':' (trimStart (tag ++ rest)) = none := by
    cases hfront : trimStart tag with
    | nil => exact absurd hfront htrim
    | cons e es =>
        have hmem : e ∈ tag := (trimStart_suffix tag).subset (hfront ▸ List.mem_cons_self)
        have he : e ≠ ':' := fun h => hcolon (h ▸ hmem)
        rw [happend, hfront, List.cons_append, dropChar?, if_neg he]
  unfold readFields?
  rw [hstop]
  rfl

/-- A tag ends where the fields begin. The induction is on the tag: as long as some of it is left the
    fields do not begin. -/
theorem readTagged?_append (hne : tag ≠ []) (hnewline : '\n' ∉ tag) (hcolon : ':' ∉ tag)
    (hback : Ends isBlank tag.reverse) (hfields : readFields? rest = some fields)
    (reversed : List Char) :
    readTagged? reversed (tag ++ rest) = some ⟨reversed.reverse ++ tag, fields⟩ := by
  induction tag generalizing reversed with
  | nil => exact absurd rfl hne
  | cons c tag ih =>
      rw [List.mem_cons, not_or] at hnewline hcolon
      rw [List.cons_append, readTagged?, if_neg (Ne.symm hnewline.1)]
      cases tag with
      | nil =>
          -- Only behind the last character do the fields begin.
          rw [List.nil_append, hfields, List.reverse_cons]
      | cons d tag =>
          have hback' : Ends isBlank (d :: tag).reverse := by
            intro e he
            refine hback e ?_
            rw [List.reverse_cons, List.head?_append, he]
            rfl
          rw [readFields?_eq_none (List.cons_ne_nil d tag) hcolon.2 hback' rest]
          dsimp only
          rw [ih (List.cons_ne_nil d tag) hnewline.2 hcolon.2 hback', List.reverse_cons,
            List.append_assoc]
          rfl

end Tag

namespace RecordLine

/-- Behind the time stamp the tag and the fields are found. -/
theorem readBody?_bodyChars (l : RecordLine) : readBody? l.bodyChars = some ⟨l.tag, l.fields⟩ := by
  have hends : Ends isBlank (l.tag ++ l.fieldChars) := by
    cases htag : l.tag with
    | nil => exact absurd htag l.tag_ne_nil
    | cons c cs => exact ends_cons (l.tag_trimmed.1 c (by rw [htag]; rfl))
  have hindent : l.bodyChars.takeWhile isBlank = l.indent.chars :=
    takeWhile_append_of_ends l.indent.all hends
  have hbody : trimStart l.bodyChars = l.tag ++ l.fieldChars := trimStart_append l.indent.all hends
  have htagged : readTagged? [] (l.tag ++ l.fieldChars) = some ⟨l.tag, l.fields⟩ :=
    readTagged?_append l.tag_ne_nil l.tag_plain.1 l.tag_plain.2.2 l.tag_trimmed.2
      l.readFields?_fieldChars []
  unfold readBody?
  rw [hindent, hbody]
  split
  · next hnil => exact absurd hnil l.indent.ne_nil
  · show (readTagged? [] (l.tag ++ l.fieldChars)).orElse _ = _
    rw [htagged]
    rfl

end RecordLine

/-! ## The time stamp -/

theorem WrittenCount.bracket_not_mem (n : WrittenCount word) (hword : '[' ∉ word.toList) :
    '[' ∉ n.chars := by
  have hblank : '[' ≠ n.blank := by
    intro h
    have hisBlank := n.blank_isBlank
    rw [← h] at hisBlank
    exact absurd hisBlank (by decide)
  have hspelling : '[' ∉ n.spelling := by
    intro h
    apply hword
    rw [← n.spelling_fold]
    exact List.mem_map.2 ⟨'[', h, by decide⟩
  simp only [chars, List.mem_cons, List.mem_append, not_or]
  exact ⟨hblank, hspelling, n.gap.not_mem (by decide), n.digits.not_mem (by decide)⟩

namespace RecordLine

/-- No bracket opens behind that of the time stamp. -/
theorem bracket_not_mem_stampChars (l : RecordLine) : '[' ∉ l.stampChars := by
  have hcounts : '[' ∉ l.countChars := by
    simp only [countChars, List.mem_append, not_or]
    exact ⟨l.threads.bracket_not_mem (by decide), l.preempt.bracket_not_mem (by decide),
      l.max.bracket_not_mem (by decide), l.cycle.bracket_not_mem (by decide),
      l.a.bracket_not_mem (by decide), l.b.bracket_not_mem (by decide),
      l.delta.bracket_not_mem (by decide), l.wide.not_mem (by decide),
      l.hits.bracket_not_mem (by decide), l.missed.bracket_not_mem (by decide), l.after_plain.2⟩
  simp only [stampChars, bodyChars, fieldChars, List.mem_append, List.mem_cons, not_or]
  exact ⟨l.whole.not_mem (by decide), by decide, l.places.not_mem (by decide), by decide,
    l.indent.not_mem (by decide), l.tag_plain.2.1, l.pad.not_mem (by decide), by decide, hcounts⟩

theorem dropStamp?_stampChars (l : RecordLine) : dropStamp? ('[' :: l.stampChars) = some l.bodyChars := by
  have hwhole : takeDigits? l.stampChars
      = some (l.whole.chars, '.' :: (l.places.chars ++ ']' :: l.bodyChars)) :=
    takeDigits?_eq_some.2 ⟨l.whole.ne_nil, l.whole.all, ends_cons (by decide), rfl⟩
  have hplaces : takeDigits? (l.places.chars ++ ']' :: l.bodyChars)
      = some (l.places.chars, ']' :: l.bodyChars) :=
    takeDigits?_eq_some.2 ⟨l.places.ne_nil, l.places.all, ends_cons (by decide), rfl⟩
  unfold dropStamp?
  rw [dropChar?_eq_some.2 rfl]
  show (takeDigits? l.stampChars).bind _ = _
  rw [hwhole, Option.bind_some]
  dsimp only
  rw [dropChar?_eq_some.2 rfl]
  show (takeDigits? (l.places.chars ++ ']' :: l.bodyChars)).bind _ = _
  rw [hplaces, Option.bind_some]
  exact dropChar?_eq_some.2 rfl

theorem dropStamp?_eq_none {cs : List Char} (h : '[' ∉ cs) : dropStamp? cs = none := by
  have hopen : dropChar? '[' cs = none := by
    cases cs with
    | nil => rfl
    | cons c cs =>
        rw [List.mem_cons, not_or] at h
        rw [dropChar?, if_neg (Ne.symm h.1)]
  unfold dropStamp?
  rw [hopen]
  rfl

/-- A line is taken apart into its tag and its fields. -/
theorem ofLine?_chars (l : RecordLine) : CounterText.ofLine? l.chars = some ⟨l.tag, l.fields⟩ := by
  -- There is no bracket in what follows, so no record can be read from a later place.
  have hlater : ∀ place, place <:+ l.stampChars → (dropStamp? place).bind readBody? = none := by
    intro place hplace
    have hnone := dropStamp?_eq_none fun h => l.bracket_not_mem_stampChars (hplace.subset h)
    rw [hnone, Option.bind_none]
  refine lastMatch?_append l.before_oneLine (by decide) ?_ hlater
  rw [l.dropStamp?_stampChars, Option.bind_some, l.readBody?_bodyChars]

end RecordLine

end BenchLog.Record
