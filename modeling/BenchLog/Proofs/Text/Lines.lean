import BenchLog.Text.Lines
import BenchLog.Proofs.Text.Utf8

/-!
# `BenchLog.Proofs.Text.Lines` — a log is read line by line

A text is a line with its newline and then a text again, or it has no newline and is the last line
(`lineInduction`). `split` follows that shape (`split_line`, `split_last`), and every law of it here is an
induction over the lines. A newline byte cuts the decoded text in the same place, so the laws hold of bytes,
damaged or not: what one line holds has no say in the lines behind it, nor in how many there are.

## Contents
- `lineInduction`; `foldl_push`, `split_line`, `split_last`;
- `split_append_newline`, `length_split_newline`, `newline_not_mem_split`;
- `intercalate_split_newline`, `intercalate_split`, the way back;
- `withReturns` and `split_withReturns`, the other line end;
- `ofBytes_by_lines`.
-/

namespace BenchLog.Text.Lines

variable {cs line rest : List Char}

/-! ## Over the lines of a text -/

/-- A text by its lines: the last one, or one with its newline and a text behind it. -/
@[elab_as_elim]
theorem lineInduction {motive : List Char → Prop} (last : ∀ cs, '\n' ∉ cs → motive cs)
    (line : ∀ line rest, '\n' ∉ line → motive rest → motive (line ++ '\n' :: rest)) (cs : List Char) :
    motive cs :=
  if hmem : '\n' ∈ cs then by
    obtain ⟨front, back, hcs, hfront⟩ := List.eq_append_cons_of_mem hmem
    rw [hcs]
    exact line front back hfront (lineInduction last line back)
  else last cs hmem
termination_by cs.length
decreasing_by
  rw [hcs, List.length_append, List.length_cons]
  omega

/-- Without a newline, characters only join the line being read. -/
theorem foldl_push (h : '\n' ∉ line) (s : Splitter) :
    line.foldl Splitter.push s = ⟨s.finished, line.reverse ++ s.current⟩ := by
  induction line generalizing s with
  | nil => rfl
  | cons c line ih =>
      rw [List.mem_cons, not_or] at h
      rw [List.foldl_cons, Splitter.push, if_neg (Ne.symm h.1), ih h.2, List.reverse_cons, List.append_assoc]
      rfl

theorem finish_eq (s : Splitter) :
    s.finish = s.finished.reverse ++ if s.current = [] then [] else [s.current.reverse] := by
  obtain ⟨done, current⟩ := s
  cases current with
  | nil => exact (List.append_nil _).symm
  | cons c cs => exact List.reverse_cons

/-- The lines that are finished stay in front of those to come. -/
theorem finish_foldl_push (cs : List Char) (done : List (List Char)) (current : List Char) :
    (cs.foldl Splitter.push ⟨done, current⟩).finish
      = done.reverse ++ (cs.foldl Splitter.push ⟨[], current⟩).finish := by
  induction cs generalizing done current with
  | nil => exact (finish_eq _).trans (congrArg _ (finish_eq ⟨[], current⟩).symm)
  | cons c cs ih =>
      simp only [List.foldl_cons, Splitter.push]
      split
      · rw [ih, ih [_], List.reverse_cons, List.append_assoc]
        rfl
      · exact ih done _

/-- **A line with its newline is a line**, and the text behind it is split on its own. -/
theorem split_line (h : '\n' ∉ line) (rest : List Char) :
    split (line ++ '\n' :: rest) = dropReturn line.reverse :: split rest := by
  rw [split, List.foldl_append, foldl_push h, List.foldl_cons, Splitter.push, if_pos rfl, finish_foldl_push,
    List.append_nil]
  rfl

example : split ['a', '\r', '\n', '\n', 'b', '\r'] = [['a'], [], ['b', '\r']] := by decide

theorem split_last (h : '\n' ∉ cs) : split cs = if cs = [] then [] else [cs] := by
  rw [split, foldl_push h, finish_eq]
  simp only [List.append_nil, List.reverse_nil, List.nil_append, List.reverse_eq_nil_iff, List.reverse_reverse]

/-- The empty text has no line, and no other text is without one. -/
theorem split_eq_nil_iff : split cs = [] ↔ cs = [] := by
  induction cs using lineInduction with
  | last cs hcs => simp [split_last hcs]
  | line line rest hline _ => simp [split_line hline]

/-- A carriage return within the line stays. -/
theorem dropReturn_reverse (h : '\r' ∉ line) : dropReturn line.reverse = line := by
  unfold dropReturn
  split
  · next heq => exact absurd (List.mem_reverse.1 (heq ▸ List.mem_cons_self)) h
  · exact List.reverse_reverse line

/-- One at its end does not. -/
theorem dropReturn_return (line : List Char) : dropReturn (line ++ ['\r']).reverse = line := by
  rw [List.reverse_append]
  exact List.reverse_reverse line

theorem newline_not_mem_dropReturn (h : '\n' ∉ cs) : '\n' ∉ dropReturn cs := by
  unfold dropReturn
  split
  · rw [List.mem_reverse]
    exact fun hmem => h (List.mem_cons_of_mem _ hmem)
  · rwa [List.mem_reverse]

/-! ## Each line on its own -/

/-- What stands before a newline and what stands behind it are split each on its own. -/
theorem split_append_newline (front back : List Char) :
    split (front ++ '\n' :: back) = split (front ++ ['\n']) ++ split back := by
  induction front using lineInduction with
  | last cs hcs => rw [split_line hcs, split_line hcs]; rfl
  | line line rest hline ih =>
      rw [List.append_assoc, List.cons_append, split_line hline, ih, List.append_assoc, List.cons_append,
        split_line hline, List.cons_append]

/-- There is a line for each newline. -/
theorem length_split_newline (cs : List Char) : (split (cs ++ ['\n'])).length = cs.count '\n' + 1 := by
  induction cs using lineInduction with
  | last cs hcs => rw [split_line hcs, List.count_eq_zero.2 hcs]; rfl
  | line line rest hline ih =>
      rw [List.append_assoc, List.cons_append, split_line hline, List.length_cons, ih, List.count_append,
        List.count_cons_self, List.count_eq_zero.2 hline, Nat.zero_add]

theorem newline_not_mem_split (cs : List Char) : ∀ l ∈ split cs, '\n' ∉ l := by
  induction cs using lineInduction with
  | last cs hcs =>
      intro l hl
      rw [split_last hcs] at hl
      split at hl
      · exact absurd hl List.not_mem_nil
      · exact List.mem_singleton.1 hl ▸ hcs
  | line line rest hline ih =>
      intro l hl
      rw [split_line hline, List.mem_cons] at hl
      obtain rfl | hl := hl
      · exact newline_not_mem_dropReturn fun hmem => hline (List.mem_reverse.1 hmem)
      · exact ih l hl

/-! ## The way back -/

theorem intercalate_cons (l : List Char) {ls : List (List Char)} (h : ls ≠ []) :
    ['\n'].intercalate (l :: ls) = l ++ '\n' :: ['\n'].intercalate ls := by
  obtain ⟨l', ls, rfl⟩ := List.exists_cons_of_ne_nil h
  rw [List.intercalate_cons_cons, List.append_assoc]
  rfl

/-- A text that ends in a newline is its lines, joined, with a newline behind them. -/
theorem intercalate_split_newline (h : '\r' ∉ cs) : ['\n'].intercalate (split (cs ++ ['\n'])) = cs := by
  induction cs using lineInduction with
  | last cs hcs =>
      rw [split_line hcs, dropReturn_reverse h]
      exact List.intercalate_singleton
  | line line rest hline ih =>
      rw [List.mem_append, List.mem_cons, not_or, not_or] at h
      have hne : split (rest ++ ['\n']) ≠ [] := fun hnil => by simpa using split_eq_nil_iff.1 hnil
      rw [List.append_assoc, List.cons_append, split_line hline, dropReturn_reverse h.1, intercalate_cons _ hne,
        ih h.2.2]

/-- Any other is its lines, joined. -/
theorem intercalate_split (h : '\r' ∉ cs) (hend : ∀ front, cs ≠ front ++ ['\n']) :
    ['\n'].intercalate (split cs) = cs := by
  induction cs using lineInduction with
  | last cs hcs =>
      rw [split_last hcs]
      split
      · next hnil => rw [hnil]; rfl
      · exact List.intercalate_singleton
  | line line rest hline ih =>
      rw [List.mem_append, List.mem_cons, not_or, not_or] at h
      -- A rest without lines would be empty, and the text would end in the newline before it.
      have hne : split rest ≠ [] := fun hnil => hend line (by rw [split_eq_nil_iff.1 hnil])
      have hrest : ∀ front, rest ≠ front ++ ['\n'] := fun front heq =>
        hend (line ++ '\n' :: front) (by rw [heq, List.append_assoc, List.cons_append])
      rw [split_line hline, dropReturn_reverse h.1, intercalate_cons _ hne, ih h.2.2 hrest]

/-! ## The other line end -/

/-- The text with a carriage return before every newline. -/
def withReturns (cs : List Char) : List Char := cs.flatMap fun c => if c = '\n' then ['\r', '\n'] else [c]

theorem withReturns_of_not_mem (h : '\n' ∉ cs) : withReturns cs = cs := by
  induction cs with
  | nil => rfl
  | cons c cs ih =>
      rw [List.mem_cons, not_or] at h
      rw [withReturns, List.flatMap_cons, if_neg (Ne.symm h.1), ← withReturns, ih h.2]
      rfl

/-- The other line end makes the same lines. -/
theorem split_withReturns (h : '\r' ∉ cs) : split (withReturns cs) = split cs := by
  induction cs using lineInduction with
  | last cs hcs => rw [withReturns_of_not_mem hcs]
  | line line rest hline ih =>
      rw [List.mem_append, List.mem_cons, not_or, not_or] at h
      -- The line itself ends in no carriage return, so the one that is added is the one that is dropped.
      have hreturn : '\n' ∉ line ++ ['\r'] := by simpa using hline
      have hsplit : withReturns (line ++ '\n' :: rest) = (line ++ ['\r']) ++ '\n' :: withReturns rest := by
        rw [withReturns, List.flatMap_append, ← withReturns, withReturns_of_not_mem hline, List.append_assoc]
        rfl
      rw [hsplit, split_line hreturn, split_line hline, dropReturn_return, dropReturn_reverse h.1, ih h.2.2]

/-! ## The lines of a log -/

variable {text : String}

theorem ofBytes_append_newline (x y : List UInt8) :
    ofBytes (x ++ [0x0a] ++ y) = ofBytes (x ++ [0x0a]) ++ ofBytes y := by
  unfold ofBytes
  rw [List.append_assoc, List.singleton_append, Utf8.decode_append_newline, Utf8.decode_append_newline,
    split_append_newline, List.map_append]
  rfl

theorem length_ofBytes_newline (x : List UInt8) : (ofBytes (x ++ [0x0a])).length = x.count 0x0a + 1 := by
  rw [ofBytes, List.length_map, Utf8.decode_append_newline, ← Utf8.count_newline_decode]
  exact length_split_newline _

theorem newline_not_mem_ofBytes {bytes : List UInt8} {l : String} (h : l ∈ ofBytes bytes) : '\n' ∉ l.toList := by
  obtain ⟨cs, hcs, rfl⟩ := List.mem_map.1 h
  rw [String.toList_ofList]
  exact newline_not_mem_split _ cs hcs

theorem ofBytes_toUTF8 (text : String) : ofBytes text.toUTF8.toList = ofText text := by
  rw [ofBytes, Utf8.decode_toUTF8, ofText]

theorem toList_intercalate_ofText (text : String) :
    ("\n".intercalate (ofText text)).toList = ['\n'].intercalate (split text.toList) := by
  rw [String.toList_intercalate, ofText, List.map_map]
  simp

theorem intercalate_ofText_newline (h : '\r' ∉ text.toList) :
    "\n".intercalate (ofText (text ++ "\n")) = text := by
  rw [← String.toList_inj, toList_intercalate_ofText, String.toList_append]
  exact intercalate_split_newline h

theorem intercalate_ofText (h : '\r' ∉ text.toList) (hend : ∀ front, text ≠ front ++ "\n") :
    "\n".intercalate (ofText text) = text := by
  rw [← String.toList_inj, toList_intercalate_ofText]
  refine intercalate_split h fun front heq => hend (String.ofList front) ?_
  rw [← String.toList_inj, heq, String.toList_append, String.toList_ofList]
  rfl

theorem ofText_withReturns (h : '\r' ∉ text.toList) :
    ofText (String.ofList (withReturns text.toList)) = ofText text := by
  rw [ofText, String.toList_ofList, split_withReturns h, ofText]

/-- **A log is read line by line.** Whatever its bytes, the lines up to a newline byte and the lines behind it
    are those of the two parts, each newline byte ends one line and no line holds a newline. A text without
    carriage returns is its lines, joined, but for one newline at its end, and has the same lines with a
    carriage return before each newline. -/
theorem ofBytes_by_lines :
    (∀ x y : List UInt8, ofBytes (x ++ [0x0a] ++ y) = ofBytes (x ++ [0x0a]) ++ ofBytes y)
      ∧ (∀ x : List UInt8, (ofBytes (x ++ [0x0a])).length = x.count 0x0a + 1)
      ∧ (∀ bytes : List UInt8, ∀ l ∈ ofBytes bytes, '\n' ∉ l.toList)
      ∧ ∀ text : String, '\r' ∉ text.toList →
        (∀ front, text = front ++ "\n" → "\n".intercalate (ofBytes text.toUTF8.toList) = front)
          ∧ ((∀ front, text ≠ front ++ "\n") → "\n".intercalate (ofBytes text.toUTF8.toList) = text)
          ∧ ofBytes (String.ofList (withReturns text.toList)).toUTF8.toList = ofBytes text.toUTF8.toList := by
  refine ⟨ofBytes_append_newline, length_ofBytes_newline, fun _ _ => newline_not_mem_ofBytes, ?_⟩
  intro text h
  simp only [ofBytes_toUTF8]
  refine ⟨?_, intercalate_ofText h, ofText_withReturns h⟩
  rintro front rfl
  rw [String.toList_append, List.mem_append, not_or] at h
  exact intercalate_ofText_newline h.1

theorem ofBytes_by_lines_two :
    '\r' ∉ "é\n".toList ∧ "é\n" = "é" ++ "\n"
      ∧ "\n".intercalate (ofBytes "é\n".toUTF8.toList) = "é"
      ∧ "\n".intercalate (ofBytes "é\nb".toUTF8.toList) = "é\nb" := by
  have hopen : ∀ front : String, "é\nb" ≠ front ++ "\n" := by
    intro front heq
    have hlast := congrArg (List.getLast? ∘ String.toList) heq
    simp at hlast
  exact ⟨by decide, rfl, (ofBytes_by_lines.2.2.2 "é\n" (by decide)).1 "é" rfl,
    (ofBytes_by_lines.2.2.2 "é\nb" (by decide)).2.1 hopen⟩

end BenchLog.Text.Lines
