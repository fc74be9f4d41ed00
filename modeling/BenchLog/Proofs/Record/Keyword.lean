import BenchLog.Proofs.Text.Piece
import BenchLog.Record.Counter
import BenchLog.Record.Marks

/-!
# `BenchLog.Proofs.Record.Keyword` — the word by which an accepted line is found

A miner looks for a word, letter for letter, before it reads a line; the readers take the same word in any
letter case and with any blank in it. So a line can be accepted by a reader and never be shown to it. What
holds of every accepted line is that it has the word in its plain spelling, in which letters are in lower
case and every blank is a space. A line is therefore found if it spells this one word plainly, however the
rest of it is spelled.

## Contents
- `plain`, `plainText`, the plain spelling, and `plain_of_foldCase`;
- `SpelledPlainly`, a word of a line in its plain spelling, and `mentions_of_spelledPlainly`;
- `readFields?_word`, `CounterText.ofLine?_word`, `Missed.digits?_word`: the word that a reader has passed;
- `mentions_plainText_of_accepted`, and the lines that are accepted and not found.
-/

namespace BenchLog

open BenchLog.Text BenchLog.Record

namespace Text

/-! ## The plain spelling -/

/-- A letter in lower case, a blank as a space. -/
def plain (c : Char) : Char := if isBlank c then ' ' else foldCase c

/-- A line in its plain spelling. -/
def plainText (line : String) : String := String.ofList (line.toList.map plain)

/-- A character that folds to one of a word is spelled plainly as that one. -/
theorem plain_of_foldCase {c w : Char} (hfold : foldCase c = w) (hw : isBlank w = true → w = ' ') :
    plain c = w := by
  unfold plain
  split
  · next hc =>
      rw [foldCase_of_isBlank hc] at hfold
      subst hfold
      exact (hw hc).symm
  · exact hfold

/-- However a word is spelled, its plain spelling is the word. -/
theorem map_plain_of_map_foldCase {spelling word : List Char} (hfold : spelling.map foldCase = word)
    (hword : (word.all fun w => isBlank w → w = ' ') = true) : spelling.map plain = word := by
  subst hfold
  refine List.map_congr_left fun c hc => ?_
  have hspace := List.all_eq_true.1 hword (foldCase c) (List.mem_map_of_mem hc)
  exact plain_of_foldCase rfl (of_decide_eq_true hspace)

/-- A word has its plain spelling wherever it stands in a line, in whatever spelling. -/
def SpelledPlainly (word line : String) : Prop :=
  ∀ spelling, spelling <:+: line.toList → spelling.map plain = word.toList → spelling = word.toList

/-- It is enough to look at the places of a line one by one. -/
theorem spelledPlainly_iff {word line : String} :
    SpelledPlainly word line
      ↔ ∀ i ≤ line.toList.length,
          ((line.toList.drop i).take word.toList.length).map plain = word.toList →
            (line.toList.drop i).take word.toList.length = word.toList := by
  constructor
  · intro h i _ hi
    exact h _ ((List.take_prefix _ _).isInfix.trans (List.drop_suffix i _).isInfix) hi
  · intro h spelling hinfix hplain
    have hlength : spelling.length = word.toList.length := by rw [← hplain, List.length_map]
    obtain ⟨tail, hfront, hback⟩ := List.infix_iff_prefix_suffix.1 hinfix
    have htail := List.suffix_iff_eq_drop.1 hback
    have hspelling := List.prefix_iff_eq_take.1 hfront
    rw [hlength] at hspelling
    have hplace := h (line.toList.length - tail.length) (Nat.sub_le _ _)
    rw [← htail, ← hspelling] at hplace
    exact hplace hplain

instance {word line : String} : Decidable (SpelledPlainly word line) :=
  decidable_of_iff' _ spelledPlainly_iff

/-- A word that is there in the plain spelling of a line is there in the line, if it is spelled plainly. -/
theorem mentions_of_spelledPlainly {word line : String} (h : mentions word (plainText line) = true)
    (hplain : SpelledPlainly word line) : mentions word line = true := by
  rw [mentions_iff, plainText, String.toList_ofList] at h
  obtain ⟨spelling, hinfix, hword⟩ := List.infix_map_iff.1 h
  rw [mentions_iff, ← hplain spelling hinfix hword.symm]
  exact hinfix

/-- What stands in a line stands, plainly spelled, in its plain spelling. -/
theorem map_plain_infix {line : String} {piece : List Char} (h : piece <:+: line.toList) :
    piece.map plain <:+: (plainText line).toList := by
  rw [plainText, String.toList_ofList]
  exact h.map plain

/-- A word that a reader drops is spelled at the front of the text. -/
theorem exists_spelling_of_dropWord? {word cs rest : List Char} (h : dropWord? word cs = some rest) :
    ∃ spelling, spelling.map foldCase = word ∧ spelling <+: cs := by
  obtain ⟨spelling, hfold, rfl⟩ := dropWord?_eq_some.1 h
  exact ⟨spelling, hfold, List.prefix_append spelling rest⟩

end Text

namespace Record

/-! ## The word of a counter record -/

/-- The fields of a record begin with its word. -/
theorem readFields?_word {cs : List Char} {fields : CounterFields} (h : readFields? cs = some fields) :
    ∃ spelling, spelling.map foldCase = reportWord.toList ∧ spelling <:+: cs := by
  unfold readFields? at h
  obtain ⟨colon, hcolon, h⟩ := Option.bind_eq_some_iff.1 h
  obtain ⟨blank, hblank, h⟩ := Option.bind_eq_some_iff.1 h
  obtain ⟨⟨threads, _⟩, hthreads, _⟩ := Option.bind_eq_some_iff.1 h
  obtain ⟨_, hword, _⟩ := Option.bind_eq_some_iff.1 hthreads
  obtain ⟨spelling, hfold, hfront⟩ := exists_spelling_of_dropWord? hword
  have hsuffix : blank <:+ cs :=
    (dropBlank?_suffix hblank).trans ((dropChar?_suffix hcolon).trans (trimStart_suffix cs))
  exact ⟨spelling, hfold, hfront.isInfix.trans hsuffix.isInfix⟩

/-- What stands behind a tag is read as fields. -/
theorem exists_fields_of_readTagged? {reversed cs : List Char} {found : CounterText}
    (h : readTagged? reversed cs = some found) :
    ∃ place fields, place <:+ cs ∧ readFields? place = some fields := by
  fun_induction readTagged? reversed cs with
  | case1 => exact nomatch h
  | case2 => exact nomatch h
  | case3 reversed c cs _ fields hfields => exact ⟨cs, fields, List.suffix_cons c cs, hfields⟩
  | case4 reversed c cs _ _ ih =>
      obtain ⟨place, fields, hplace, hfields⟩ := ih h
      exact ⟨place, fields, hplace.trans (List.suffix_cons c cs), hfields⟩

theorem exists_fields_of_readBody? {cs : List Char} {found : CounterText}
    (h : readBody? cs = some found) :
    ∃ place fields, place <:+ cs ∧ readFields? place = some fields := by
  unfold readBody? at h
  split at h
  · exact nomatch h
  · next blank blanks _ =>
      cases htagged : readTagged? [] (trimStart cs) with
      | some tagged =>
          obtain ⟨place, fields, hplace, hfields⟩ := exists_fields_of_readTagged? htagged
          exact ⟨place, fields, hplace.trans (trimStart_suffix cs), hfields⟩
      | none =>
          -- Without a tag the fields follow the blanks.
          simp only [htagged, Option.orElse_none] at h
          split at h
          · obtain ⟨fields, hfields, _⟩ := Option.map_eq_some_iff.1 h
            exact ⟨trimStart cs, fields, trimStart_suffix cs, hfields⟩
          · exact nomatch h

theorem dropStamp?_suffix {cs rest : List Char} (h : dropStamp? cs = some rest) : rest <:+ cs := by
  unfold dropStamp? at h
  obtain ⟨opened, hopen, h⟩ := Option.bind_eq_some_iff.1 h
  obtain ⟨⟨whole, afterWhole⟩, hwhole, h⟩ := Option.bind_eq_some_iff.1 h
  obtain ⟨point, hpoint, h⟩ := Option.bind_eq_some_iff.1 h
  obtain ⟨⟨places, afterPlaces⟩, hplaces, hclose⟩ := Option.bind_eq_some_iff.1 h
  exact (dropChar?_suffix hclose).trans <| (takeDigits?_suffix hplaces).trans <|
    (dropChar?_suffix hpoint).trans <| (takeDigits?_suffix hwhole).trans (dropChar?_suffix hopen)

/-- A line that has the shape of a record has its word, in some letter case. -/
theorem CounterText.ofLine?_word {cs : List Char} {found : CounterText}
    (h : CounterText.ofLine? cs = some found) :
    ∃ spelling, spelling.map foldCase = reportWord.toList ∧ spelling <:+: cs := by
  obtain ⟨stamp, hstamp, h⟩ := exists_of_lastMatch? h
  obtain ⟨body, hbody, h⟩ := Option.bind_eq_some_iff.1 h
  obtain ⟨place, fields, hplace, hfields⟩ := exists_fields_of_readBody? h
  obtain ⟨spelling, hfold, hinfix⟩ := readFields?_word hfields
  have hsuffix : place <:+ cs := hplace.trans ((dropStamp?_suffix hbody).trans hstamp)
  exact ⟨spelling, hfold, hinfix.trans hsuffix.isInfix⟩

/-! ## The word of a missed count -/

/-- A missed count has its word, in some letter case, with a blank behind it. -/
theorem Missed.digits?_word {cs digits : List Char} (h : Missed.digits? cs = some digits) :
    ∃ spelling blank, spelling.map foldCase = "_sys_flock: missed:".toList ∧ isBlank blank = true
      ∧ spelling ++ [blank] <:+: cs := by
  obtain ⟨place, hplace, h⟩ := exists_of_lastMatch? h
  unfold Missed.digitsHere? at h
  obtain ⟨rest, hword, h⟩ := Option.bind_eq_some_iff.1 h
  obtain ⟨trimmed, hblanks, _⟩ := Option.bind_eq_some_iff.1 h
  obtain ⟨afterBlank, hblank, _⟩ := Option.map_eq_some_iff.1 hblanks
  obtain ⟨spelling, hfold, rfl⟩ := dropWord?_eq_some.1 hword
  obtain ⟨blank, hisBlank, rfl⟩ := dropBlank?_eq_some.1 hblank
  refine ⟨spelling, blank, hfold, hisBlank, List.IsInfix.trans ?_ hplace.isInfix⟩
  exact ⟨[], afterBlank, by simp⟩

/-! ## Accepted lines -/

/-- **Every accepted line has its word in its plain spelling.** A line that is read as a counter record, or
    as a missed count, may spell the word by which a miner looks for such lines with capital letters or
    another blank. Once letters are in lower case and every blank is a space, the word is there; so a line
    that spells this word plainly is found, in whatever spelling the rest of it is. -/
theorem mentions_plainText_of_accepted (line : String) :
    (∀ r, CounterRecord.ofLine line = .ok r →
        mentions reportWord (plainText line) = true
          ∧ (SpelledPlainly reportWord line → mentions reportWord line = true))
      ∧ (∀ n, Missed.ofLine line = .ok n →
          mentions missedWord (plainText line) = true
            ∧ (SpelledPlainly missedWord line → mentions missedWord line = true)) := by
  constructor
  · intro r h
    unfold CounterRecord.ofLine at h
    split at h
    · exact nomatch h
    · next tag fields hshape =>
        obtain ⟨spelling, hfold, hinfix⟩ := CounterText.ofLine?_word hshape
        have hplain : mentions reportWord (plainText line) = true := by
          rw [mentions_iff, ← map_plain_of_map_foldCase hfold (by decide)]
          exact map_plain_infix hinfix
        exact ⟨hplain, mentions_of_spelledPlainly hplain⟩
  · intro n h
    unfold Missed.ofLine at h
    split at h
    · exact nomatch h
    · next digits hshape =>
        obtain ⟨spelling, blank, hfold, hblank, hinfix⟩ := Missed.digits?_word hshape
        have hword : (spelling ++ [blank]).map plain = "_sys_flock: missed: ".toList := by
          rw [List.map_append, map_plain_of_map_foldCase hfold (by decide), List.map_singleton, plain,
            if_pos hblank]
          decide
        have hplain : mentions missedWord (plainText line) = true := by
          have hfound := map_plain_infix hinfix
          rw [hword] at hfound
          exact mentions_iff.2 (List.IsInfix.trans ⟨['_'], [], by decide⟩ hfound)
        exact ⟨hplain, mentions_of_spelledPlainly hplain⟩

/-- In its plain spelling the word of a record in capital letters is there, and so is that of a missed count
    with a tab behind it. Where only the word is in small letters and the rest in capitals, the record is found,
    and a missed count behind a prefix in capitals is. -/
theorem mentions_plainText_of_respelled :
    (∃ r, CounterRecord.ofLine
          "[12.5] SACA: THREADS:8 PREEMPT:1 MAX: 16 CYCLE: 2 A:3 B:4 DELTA: 100 HITS: 7 MISSED: 2" = .ok r)
      ∧ mentions reportWord (plainText
          "[12.5] SACA: THREADS:8 PREEMPT:1 MAX: 16 CYCLE: 2 A:3 B:4 DELTA: 100 HITS: 7 MISSED: 2") = true
      ∧ Missed.ofLine "krp_sys_flock: missed:\t12" = .ok 12
      ∧ mentions missedWord (plainText "krp_sys_flock: missed:\t12") = true
      ∧ mentions reportWord
          "[12.5] SACA: threads:8 PREEMPT:1 MAX: 16 CYCLE: 2 A:3 B:4 DELTA: 100 HITS: 7 MISSED: 2" = true
      ∧ mentions missedWord "KRP_sys_flock: missed: 12" = true := by
  have hrecord : CounterRecord.ofLine
      "[12.5] SACA: THREADS:8 PREEMPT:1 MAX: 16 CYCLE: 2 A:3 B:4 DELTA: 100 HITS: 7 MISSED: 2"
      = .ok ⟨"SACA", 8, 1, 16, 2, 3, 4, 100, 7, 2⟩ := rfl
  have hmissed : Missed.ofLine "krp_sys_flock: missed:\t12" = .ok 12 := rfl
  have htagged : CounterRecord.ofLine
      "[12.5] SACA: threads:8 PREEMPT:1 MAX: 16 CYCLE: 2 A:3 B:4 DELTA: 100 HITS: 7 MISSED: 2"
      = .ok ⟨"SACA", 8, 1, 16, 2, 3, 4, 100, 7, 2⟩ := rfl
  have hbehind : Missed.ofLine "KRP_sys_flock: missed: 12" = .ok 12 := rfl
  exact ⟨⟨_, hrecord⟩, ((mentions_plainText_of_accepted _).1 _ hrecord).1, hmissed,
    ((mentions_plainText_of_accepted _).2 _ hmissed).1,
    ((mentions_plainText_of_accepted _).1 _ htagged).2 (by decide),
    ((mentions_plainText_of_accepted _).2 _ hbehind).2 (by decide)⟩

/-- Lines in other spellings are accepted and not found: capital letters do, and so does a tab. -/
theorem accepted_not_found :
    (∃ r, CounterRecord.ofLine
          "[12.5] SACA: THREADS:8 PREEMPT:1 MAX: 16 CYCLE: 2 A:3 B:4 DELTA: 100 HITS: 7 MISSED: 2" = .ok r)
      ∧ mentions reportWord
          "[12.5] SACA: THREADS:8 PREEMPT:1 MAX: 16 CYCLE: 2 A:3 B:4 DELTA: 100 HITS: 7 MISSED: 2" = false
      ∧ Missed.ofLine "krp_sys_flock: missed:\t12" = .ok 12
      ∧ mentions missedWord "krp_sys_flock: missed:\t12" = false :=
  ⟨⟨⟨"SACA", 8, 1, 16, 2, 3, 4, 100, 7, 2⟩, rfl⟩, by decide, rfl, by decide⟩

end Record

end BenchLog
