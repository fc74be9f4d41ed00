import BenchLog.Proofs.Mining.Syscall

/-!
# `BenchLog.Proofs.Mining.Unread` — lines at the ends of a section that are not read

The lines of a section are told from others by a word: that of a record in the counter log, the name of the
measured call in the syscall log. A line that does not mention it makes no difference at the end of a
section, nor at the front of one of the counter log. The tag at the front of a section of the syscall log may
be taken for the first of the two lines that echo the thread count, but whether it is does not depend on what
else it says, and the section is skipped in that case.

## Contents
- `Variant.reads`, the word of a kind of log;
- `seek?_append`, `Counter.collect_append`, `Syscall.mineFrom_append`: one more line behind the others;
- `seek?_cons`, `Counter.collect_cons`, `Syscall.threadLines?_cons`, `Syscall.mineFrom_retag`: another line
  in front of the others.
-/

namespace BenchLog

open BenchLog.Record

variable {line tag opening : String} {rest : List String}

namespace Variant

/-- Whether a line mentions the word by which the lines of a section are told from others: that of a
    record, or that of the measured call. -/
def reads : Variant → String → Bool
  | .counter => Text.mentions reportWord
  | .syscall => Text.mentions syscallWord

end Variant

/-! ## One more line at the end -/

/-- A line that does not mention a word mentions no longer one. -/
theorem Text.not_mentions_of_infix {word part : String} (hpart : part.toList <:+: word.toList)
    (h : Text.mentions part line = false) : Text.mentions word line = false := by
  refine Bool.eq_false_iff.2 fun hword => Bool.eq_false_iff.1 h ?_
  exact Text.mentions_iff.2 (hpart.trans (Text.mentions_iff.1 hword))

/-- A search goes on as it did when the lines are followed by one that does not mention the word. -/
theorem seek?_append {word : String} (h : Text.mentions word line = false) (lines : List String) :
    seek? word (lines ++ [line])
      = (seek? word lines).map fun found => (found.1, found.2 ++ [line]) := by
  induction lines with
  | nil => simp [seek?, h]
  | cons first lines ih =>
      rw [List.cons_append, seek?, seek?]
      split
      · rfl
      · exact ih

theorem Counter.collect_append (h : Text.mentions reportWord line = false) (n : Nat)
    (lines : List String) : collect n (lines ++ [line]) = collect n lines := by
  induction n generalizing lines with
  | zero => rfl
  | succ n ih =>
      rw [collect, collect, seek?_append h]
      cases seek? reportWord lines with
      | none => rfl
      | some found =>
          simp only [Option.map_some, ih]

namespace Syscall

theorem need_append {word : String} (h : Text.mentions word line = false) (lines : List String) :
    need word (lines ++ [line])
      = (need word lines).map fun found => (found.1, found.2 ++ [line]) := by
  rw [need, need, seek?_append h]
  cases seek? word lines <;> rfl

theorem threadLines?_append (h : Text.mentions syscallWord line = false) (lines : List String) :
    threadLines? (lines ++ [line])
      = (threadLines? lines).map fun found => (found.1, found.2.1, found.2.2 ++ [line]) := by
  fun_induction threadLines? lines with
  | case1 first second rest hmention ih =>
      rw [List.cons_append, List.cons_append, threadLines?, if_pos hmention]
      exact ih
  | case2 first second rest hmention hany =>
      rw [List.cons_append, List.cons_append, threadLines?, if_neg hmention, if_pos]
      · rfl
      · rw [List.any_append, hany, Bool.true_or]
  | case3 first second rest hmention hany =>
      rw [List.cons_append, List.cons_append, threadLines?, if_neg hmention, if_neg]
      · rfl
      · simpa [h] using hany
  | case4 lines hshort =>
      -- With the line that is added there may be two lines, but none after them.
      match lines, hshort with
      | [], _ => rfl
      | [first], _ =>
          rw [List.singleton_append, threadLines?]
          split <;> rfl
      | first :: second :: rest, hshort => exact absurd rfl (hshort first second rest)

/-- A step that searches and goes on with what is left comes out the same with one more line that does
    not mention the word, if what it goes on to do does. -/
theorem need_bind_append {α : Type} {word : String} (h : Text.mentions word line = false)
    {next : String × List String → Except SkipReason α}
    (hnext : ∀ found rest, next (found, rest ++ [line]) = next (found, rest)) (lines : List String) :
    need word (lines ++ [line]) >>= next = need word lines >>= next := by
  rw [need_append h]
  cases need word lines with
  | error reason => rfl
  | ok found => exact hnext found.1 found.2

theorem lineStage_append (h : Text.mentions syscallWord line = false) (lines : List String) :
    lineStage (lines ++ [line]) = lineStage lines := by
  -- Both other words of a section hold the name of the measured call.
  have hmeasurement : Text.mentions measurementWord line = false :=
    Text.not_mentions_of_infix ⟨"syscalls:sys_enter_".toList, [], by decide⟩ h
  have hmissed : Text.mentions missedWord line = false :=
    Text.not_mentions_of_infix ⟨"sys_".toList, ": missed: ".toList, by decide⟩ h
  refine need_bind_append hmeasurement (fun line1 rest1 => ?_) lines
  refine need_bind_append hmeasurement (fun line2 rest2 => ?_) rest1
  refine need_bind_append hmeasurement (fun line3 rest3 => ?_) rest2
  exact need_bind_append hmissed (fun _ _ => rfl) rest3

theorem threadStage_append (h : Text.mentions syscallWord line = false) (lines : List String) :
    threadStage (lines ++ [line])
      = (threadStage lines).map fun found => (found.1, found.2 ++ [line]) := by
  rw [threadStage, threadStage, threadLines?_append h]
  cases threadLines? lines with
  | none => rfl
  | some found =>
      obtain ⟨first, second, rest⟩ := found
      simp only [Option.map_some]
      split
      · rfl
      · cases orSkip (ThreadCount.ofLine first) <;> rfl

/-- One more line that does not mention the measured call changes nothing. -/
theorem mineFrom_append (h : Text.mentions syscallWord line = false) (set tag : String)
    (lines : List String) : mineFrom set tag (lines ++ [line]) = mineFrom set tag lines := by
  have hsample : sample set tag (lines ++ [line]) = sample set tag lines := by
    rw [sample_eq_stages, sample_eq_stages, threadStage_append h]
    refine congrArg _ (funext fun instances => ?_)
    cases threadStage lines with
    | error reason => rfl
    | ok found =>
        simp only [Except.map, ok_bind, lineStage_append h]
  rw [mineFrom, mineFrom, hsample]

end Syscall

/-! ## Another line at the front -/

/-- A search passes over a first line that does not mention the word. -/
theorem seek?_cons {word : String} (h : Text.mentions word line = false) (rest : List String) :
    seek? word (line :: rest) = seek? word rest := by
  rw [seek?, h]
  rfl

/-- Nor does such a line take part in the collection of records. -/
theorem Counter.collect_cons (h : Text.mentions reportWord line = false) (n : Nat)
    (rest : List String) : collect n (line :: rest) = collect n rest := by
  cases n with
  | zero => rfl
  | succ n => rw [collect, collect, seek?_cons h]

namespace Syscall

/-- The two lines that should echo the thread count are found behind the first line, or are that line and
    the next one. Which of the two is the case is not up to the first line, but to whether it mentions the
    measured call. -/
theorem threadLines?_cons (h : Text.mentions syscallWord opening = Text.mentions syscallWord tag)
    (rest : List String) :
    threadLines? (opening :: rest) = threadLines? (tag :: rest)
      ∨ Text.mentions syscallWord tag = false ∧ ∃ second more, rest = second :: more ∧ more ≠ []
          ∧ threadLines? (tag :: rest) = some (tag, second, more)
          ∧ threadLines? (opening :: rest) = some (opening, second, more) := by
  cases rest with
  | nil => exact Or.inl rfl
  | cons second more =>
      by_cases hmention : (Text.mentions syscallWord tag || Text.mentions syscallWord second) = true
      · refine Or.inl ?_
        rw [threadLines?, threadLines?, h, if_pos hmention, if_pos hmention]
      · by_cases hany : more.any (Text.mentions syscallWord) = true
        · have hunread : Text.mentions syscallWord tag = false := by
            rw [Bool.or_eq_true, not_or] at hmention
            exact Bool.eq_false_iff.2 hmention.1
          refine Or.inr ⟨hunread, second, more, rfl, ?_, ?_, ?_⟩
          · rintro rfl
            exact Bool.noConfusion hany
          · rw [threadLines?, if_neg hmention, if_pos hany]
          · rw [threadLines?, h, if_neg hmention, if_pos hany]
        · refine Or.inl ?_
          rw [threadLines?, threadLines?, h, if_neg hmention, if_neg hmention, if_neg hany, if_neg hany]

/-- Two lines that differ are no thread count. -/
theorem threadStage_of_ne {first second : String} {lines more : List String}
    (hfound : threadLines? lines = some (first, second, more)) (hne : first ≠ second) :
    threadStage lines = .error (.threadMismatch first second) := by
  rw [threadStage, hfound]
  exact if_pos (Bool.or_eq_true_iff.2 (Or.inr (decide_eq_true hne)))

/-- Without a thread count a section is skipped for that reason, unless its tag gives one before. -/
theorem mineFrom_of_threadStage {set : String} {lines : List String} {reason : SkipReason}
    (hstage : threadStage lines = .error reason) :
    mineFrom set tag lines
      = match SectionTag.instances tag with
        | .ok _ => .skipped reason
        | .error fault => .skipped (.line fault) := by
  rw [mineFrom, sample_eq_stages, hstage]
  cases SectionTag.instances tag <;> rfl

/-- A section yields the same under a tag with the same number of instances that mentions the measured call
    if the old one does, or it is skipped in both cases because its tag is no thread count. -/
theorem mineFrom_retag (hnumber : SectionTag.instances opening = SectionTag.instances tag)
    (hmention : Text.mentions syscallWord opening = Text.mentions syscallWord tag)
    (hnext : ∀ second more, rest = second :: more → more ≠ [] → tag ≠ second ∧ opening ≠ second)
    (set : String) :
    mineFrom set opening (opening :: rest) = mineFrom set tag (tag :: rest)
      ∨ Text.mentions syscallWord tag = false ∧ ∃ second,
          mineFrom set tag (tag :: rest) = .skipped (.threadMismatch tag second)
            ∧ mineFrom set opening (opening :: rest) = .skipped (.threadMismatch opening second) := by
  rcases threadLines?_cons hmention rest with hsame | ⟨hunread, second, more, hrest, hmore, htag, hopening⟩
  · -- Both lines stand behind the tag, so all stages but the first get the same.
    refine Or.inl ?_
    have hstage : threadStage (opening :: rest) = threadStage (tag :: rest) := by
      rw [threadStage, threadStage, hsame]
    rw [mineFrom, mineFrom, sample_eq_stages, sample_eq_stages, hnumber, hstage]
  · -- The tag is the first of the two, and the line behind it is another one.
    obtain ⟨htagNe, hopeningNe⟩ := hnext second more hrest hmore
    rw [mineFrom_of_threadStage (threadStage_of_ne htag htagNe),
      mineFrom_of_threadStage (threadStage_of_ne hopening hopeningNe), hnumber]
    cases SectionTag.instances tag with
    | error fault => exact Or.inl rfl
    | ok instances => exact Or.inr ⟨hunread, second, rfl, rfl⟩

end Syscall

end BenchLog
