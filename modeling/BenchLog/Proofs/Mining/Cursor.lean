import BenchLog.Mining.Cursor
import BenchLog.Proofs.Mining.Records
import BenchLog.Proofs.Mining.Searches
import BenchLog.Proofs.Mining.Syscall
import BenchLog.Proofs.Selection

/-!
# `BenchLog.Proofs.Mining.Cursor` — no position goes astray

Mining by positions comes to the same as mining the lines of a section, in every section of a log that is
shorter than the largest word: no search finds a line that is not there, no position outgrows a word, and no
list is used past its end. The one place that may be missing is the first line of a section of the syscall log,
which is read without a search.

A computation by positions is compared with one on the lines step by step. `Follows` says that it fails where
that one fails and for the same reason, that otherwise their results are related, and that no place is missing;
it is kept by sequencing. What relates a position to the lines behind it is that these lines are those of the
section from there on.

## Contents
- `findWithin_eq`, `sectionsAt?_eq`: searches and sections;
- `Counter.collectAt?_eq`, `Counter.chooseAt?_cons`, `Counter.mineAt?_eq`: the counter log;
- `Follows` with `Follows.bind`, `Follows.reach`;
- `Syscall.follows_threads`, `follows_need`, `follows_sample`, `mineAt?_eq`: the syscall log;
- `Variant.mineAt?_eq`.
-/

namespace BenchLog

open BenchLog.Record

variable {limit n i c : Nat} {p : String → Bool} {log : List String} {s : Section} {word : String}

/-! ## Positions and searches -/

theorem advance?_of_le (h : i + n ≤ limit) : advance? limit i n = some (i + n) := if_pos h

/-- A bound that does not fit into a word lies past the end of the log. -/
theorem findWithin_eq (h : log.length ≤ limit) (start last : Nat) :
    findWithin limit p log start last = findUntil p log start last := by
  have htake : log.take (min (last + 1) limit) = log.take (last + 1) := by
    -- If the bound is cut down to `limit`, both ask for more lines than there are.
    by_cases hfits : last + 1 ≤ limit
    · rw [Nat.min_eq_left hfits]
    · rw [List.take_of_length_le (by omega), List.take_of_length_le (by omega)]
  rw [findWithin, htake, findUntil]

theorem findWithin_eq_some_iff (h : log.length ≤ limit) :
    findWithin limit p log s.first s.last = some i ↔ s.First p log i := by
  rw [findWithin_eq h, findUntil_eq_some_iff]

/-! ## Sections -/

theorem locateAt?_eq (h : log.length ≤ limit) (start : Nat) :
    locateAt? limit p log start = some (locate p log start) := by
  unfold locateAt? locate
  cases hfind : find p log start with
  | none => rfl
  | some first =>
      have hfirst := (find_bounds hfind).2
      dsimp only
      rw [advance?_of_le (by omega)]
      rfl

theorem sectionsAt?_of_none {minSpan start : Nat} (h : locateAt? limit p log start = some none) :
    sectionsAt? limit p minSpan log start = some [] := by
  rw [sectionsAt?]
  split
  · next h' => cases h.symm.trans h'
  · rfl
  · next h' => cases h.symm.trans h'

theorem sectionsAt?_of_some {minSpan start : Nat} (h : locateAt? limit p log start = some (some s))
    (hfits : s.first + 1 ≤ limit) :
    sectionsAt? limit p minSpan log start
      = (sectionsAt? limit p minSpan log (max s.last (s.first + 1))).map fun rest =>
          if minSpan < s.span then s :: rest else rest := by
  rw [sectionsAt?]
  split
  · next h' => cases h.symm.trans h'
  · next h' => cases h.symm.trans h'
  · next h' =>
      obtain rfl := Option.some.inj (Option.some.inj (h.symm.trans h'))
      exact if_pos hfits

theorem sectionsAt?_eq (h : log.length ≤ limit) (minSpan start : Nat) :
    sectionsAt? limit p minSpan log start = some (sectionsFrom p minSpan log start) := by
  fun_induction sectionsFrom p minSpan log start with
  | case1 start hlocate => rw [sectionsAt?_of_none ((locateAt?_eq h start).trans (congrArg some hlocate))]
  | case2 start s hlocate hbounds rest hspan ih | case3 start s hlocate hbounds rest hspan ih =>
      have hfits : s.first + 1 ≤ limit := Nat.le_trans hbounds.2 h
      rw [sectionsAt?_of_some ((locateAt?_eq h start).trans (congrArg some hlocate)) hfits, ih,
        Option.map_some]
      simp only [hspan, if_true, if_false]
      rfl

/-! ## A section of the counter log -/

/-- The next line with a word by position, and the same line by line. -/
theorem findWithin_cases (h : log.length ≤ limit) (word : String) (s : Section) :
    (∃ i line, findWithin limit (Text.mentions word) log s.first s.last = some i ∧ log[i]? = some line
        ∧ i < log.length ∧ seek? word (s.lines log) = some (line, (⟨i + 1, s.last⟩ : Section).lines log))
      ∨ findWithin limit (Text.mentions word) log s.first s.last = none
        ∧ seek? word (s.lines log) = none := by
  cases hfind : findWithin limit (Text.mentions word) log s.first s.last with
  | none =>
      refine Or.inr ⟨rfl, seek?_of_none fun i hi => ?_⟩
      exact nomatch hfind.symm.trans ((findWithin_eq_some_iff h).2 hi)
  | some i =>
      have hfirst := (findWithin_eq_some_iff h).1 hfind
      obtain ⟨line, hline⟩ := hfirst.accepts.exists_line
      exact Or.inl ⟨i, line, rfl, hline, (findWithin_bounds hfind).2, seek?_of_first hfirst hline⟩

namespace Counter

variable {records : List CounterRecord}

/-- The samples of a section: records, or what is wrong with the line in the place of the first of them. -/
def samplesOf (records : List CounterRecord) : Option LineError → Except LineError (List CounterRecord)
  | some fault => if records.isEmpty then .error fault else .ok records
  | none => .ok records

/-- The loop with a cursor collects what the loop on the lines does, behind what it has already. The induction
is on the number of records that are still to come. -/
theorem collectAt?_eq (h : log.length ≤ limit) (n : Nat) (s : Section) (records : List CounterRecord) :
    collectAt? limit log s.last n s.first records
      = some (samplesOf (records ++ (collect n (s.lines log)).1) (collect n (s.lines log)).2) := by
  induction n generalizing s records with
  | zero => rw [collectAt?, collect, List.append_nil, samplesOf]
  | succ n ih =>
      rw [collectAt?, collect]
      obtain ⟨i, line, hfind, hline, hi, hseek⟩ | ⟨hfind, hseek⟩ := findWithin_cases h reportWord s
      · rw [hfind, hseek]
        simp only [hline, Option.bind_eq_bind, Option.bind_some]
        cases hread : CounterRecord.ofLine line with
        | error fault =>
            simp only [List.append_nil, samplesOf]
            rfl
        | ok r =>
            dsimp only
            rw [advance?_of_le (Nat.le_trans hi h), Option.bind_some, ih ⟨i + 1, s.last⟩, List.append_assoc]
            rfl
      · rw [hfind, hseek]
        dsimp only
        rw [List.append_nil, samplesOf]

theorem chooseAt?_nil : chooseAt? [] = some (.skipped .noRecords) := rfl

/-- A rank is a position in the list of rates and in that of records. -/
theorem chooseAt?_cons (first : CounterRecord) (rest : List CounterRecord) :
    chooseAt? (first :: rest) = some (choose first rest) := by
  have hkeys : ((first :: rest).map CounterRate.ofRecord).map (·.hits) = (first :: rest).map hitRate :=
    List.map_map
  unfold chooseAt? choose
  dsimp only
  rw [hkeys, Selection.byRank_map, if_neg (by simp)]
  cases Selection.byRank hitRate (first :: rest) with
  | error reason => rfl
  | ok i =>
      simp only [Except.map, List.getElem?_map, List.getElem?_eq_getElem i.isLt, Option.map_some]
      rfl

theorem mineAt?_eq (h : log.length ≤ limit) (s : Section) : mineAt? limit log s = some (mine log s) := by
  rw [mineAt?, collectAt?_eq h, mine, List.nil_append, Option.bind_eq_bind, Option.bind_some]
  generalize collect Selection.sampleCount (s.lines log) = collected
  obtain ⟨_ | ⟨first, rest⟩, _ | fault⟩ := collected
  · exact chooseAt?_nil
  · rfl
  · exact chooseAt?_cons first rest
  · exact chooseAt?_cons first rest

/-- A section past the end of the log has no records. -/
example : mineAt? 9 ["insmod", "", "", ""] ⟨7, 2⟩ = some (.skipped .noRecords) := by decide

end Counter

/-! ## Computations by position and on lines -/

/-- A computation by positions follows one on lines: no place is missing, it fails where the other one fails
and for the same reason, and where neither fails their results are related. -/
inductive Follows {α β : Type} (R : α → β → Prop) : Checked α → Except SkipReason β → Prop
  | pure {a : α} {b : β} (h : R a b) : Follows R (pure a) (.ok b)
  | throw (reason : SkipReason) : Follows R (throw reason) (.error reason)

namespace Follows

variable {α β γ δ : Type} {R : α → β → Prop} {S : γ → δ → Prop}

theorem bind {x : Checked α} {y : Except SkipReason β} {f : α → Checked γ} {g : β → Except SkipReason δ}
    (h : Follows R x y) (hnext : ∀ a b, R a b → Follows S (f a) (g b)) : Follows S (x >>= f) (y >>= g) := by
  cases h with
  | pure h => exact hnext _ _ h
  | throw reason => exact .throw reason

/-- A place that is there may be looked at. -/
theorem reach {place : Option α} {a : α} {f : α → Checked γ} {y : Except SkipReason δ}
    (h : place = some a) (hnext : Follows S (f a) y) : Follows S (BenchLog.reach place >>= f) y := by
  rw [h]
  exact hnext

/-- What uses no position follows itself. -/
theorem refl (y : Except SkipReason α) : Follows Eq (liftM y : Checked α) y := by
  cases y with
  | ok a => exact .pure rfl
  | error reason => exact .throw reason

theorem run_eq {x : Checked α} {y : Except SkipReason α} (h : Follows Eq x y) : x.run = some y := by
  cases h with
  | pure h => exact congrArg (fun a => some (Except.ok a)) h
  | throw reason => rfl

end Follows

/-! ## A section of the syscall log -/

namespace Syscall

/-- Where the measured call is mentioned next tells whether the echoed lines are here. -/
theorem echoAt_first_iff (h : s.First (Text.mentions syscallWord) log i) :
    EchoAt log s s.first ↔ s.first + 2 ≤ i := by
  constructor
  · intro hecho
    have hfirst : i ≠ s.first := fun heq => hecho.quiet (heq ▸ h.accepts)
    have hsecond : i ≠ s.first + 1 := fun heq => hecho.quiet_succ (heq ▸ h.accepts)
    have := h.covers.1
    omega
  · intro hle
    exact ⟨Nat.le_refl _, h.least _ (Nat.le_refl _) (by omega), h.least _ (by omega) (by omega),
      i, ⟨hle, h.covers.2⟩, h.accepts⟩

/-- The search with a cursor stops at the lines that the search on lines finds. -/
theorem echoAt?_cases (h : log.length < limit) (last cursor : Nat) :
    (∃ c first second, echoAt? limit log last cursor = pure c ∧ log[c]? = some first
        ∧ log[c + 1]? = some second
        ∧ threadLines? ((⟨cursor, last⟩ : Section).lines log)
          = some (first, second, (⟨c + 2, last⟩ : Section).lines log))
      ∨ echoAt? limit log last cursor = throw (.missingLine syscallWord)
        ∧ threadLines? ((⟨cursor, last⟩ : Section).lines log) = none := by
  have hlength : log.length ≤ limit := Nat.le_of_lt h
  -- The cases are the turns of the search: no mention is left, one is far enough, one is too near, and the
  -- cursor has come too close to the largest word, which it cannot in a log that is shorter.
  fun_induction echoAt? limit log last cursor with
  | case1 cursor hfind =>
      have hquiet : ¬((⟨cursor, last⟩ : Section).lines log).any (Text.mentions syscallWord) = true := by
        rw [findWithin_eq hlength] at hfind
        rw [Section.any_lines]
        rintro ⟨i, hcovers, hline⟩
        exact findUntil_eq_none_iff (s := ⟨cursor, last⟩) |>.1 hfind i hcovers hline
      exact Or.inr ⟨rfl, threadLines?_of_quiet hquiet⟩
  | case2 cursor i hfind hbounds hfits hle =>
      have hfirst := (findWithin_eq_some_iff (s := ⟨cursor, last⟩) hlength).1 hfind
      have hecho := (echoAt_first_iff hfirst).2 hle
      obtain ⟨first, second, hline, hline'⟩ := hecho.exists_lines
      exact Or.inl ⟨cursor, first, second, rfl, hline, hline', threadLines?_lines_here hecho hline hline'⟩
  | case3 cursor i hfind hbounds hfits hlt ih =>
      have hfirst := (findWithin_eq_some_iff (s := ⟨cursor, last⟩) hlength).1 hfind
      rw [threadLines?_lines_succ fun hecho => hlt ((echoAt_first_iff hfirst).1 hecho)]
      exact ih
  | case4 cursor i hfind hbounds hfits => omega

/-- What the thread count is read from, and how far the cursor has come. -/
theorem follows_threads (h : log.length < limit) (s : Section) :
    Follows (fun a b => a.2 = b.1 ∧ (⟨a.1 + 2, s.last⟩ : Section).lines log = b.2 ∧ a.1 + 2 ≤ limit)
      (threadsAt? limit log s) (threadStage (s.lines log)) := by
  unfold threadsAt? threadStage
  obtain ⟨c, first, second, hecho, hfirst, hsecond, hlines⟩ | ⟨hecho, hlines⟩ :=
    echoAt?_cases h s.last s.first
  · have hc : c + 1 < log.length := (List.getElem?_eq_some_iff.1 hsecond).1
    rw [hecho, hlines, pure_bind]
    refine .reach hfirst (.reach (advance?_of_le (by omega)) (.reach hsecond ?_))
    dsimp only
    split
    · exact .throw _
    · refine .bind (.refl _) ?_
      rintro threads _ rfl
      exact .pure ⟨rfl, rfl, by omega⟩
  · rw [hecho, hlines]
    exact .throw _

theorem follows_need (h : log.length < limit) (hstart : c + n ≤ limit) (word : String) (last : Nat) :
    Follows (fun i b => log[i]? = some b.1 ∧ (⟨i + 1, last⟩ : Section).lines log = b.2 ∧ i + 1 ≤ limit)
      (needAt? limit word log last c n) (need word ((⟨c + n, last⟩ : Section).lines log)) := by
  unfold needAt? need
  refine .reach (advance?_of_le hstart) ?_
  obtain ⟨i, line, hfind, hline, hi, hseek⟩ | ⟨hfind, hseek⟩ :=
    findWithin_cases (Nat.le_of_lt h) word ⟨c + n, last⟩
  · rw [hfind, hseek]
    exact .pure ⟨hline, rfl, by omega⟩
  · rw [hfind, hseek]
    exact .throw _

theorem getElem?_rates (rates : Triple Float) (i : Fin 3) :
    [rates.first, rates.second, rates.third][i.val]? = some (rates.get i) := by
  match i with
  | 0 | 1 | 2 => rfl

theorem follows_sample (h : log.length < limit) {tag : String} (htag : log[s.first]? = some tag)
    (set : String) : Follows Eq (sampleAt? limit set log s) (sample set tag (s.lines log)) := by
  rw [sample_eq_stages]
  unfold sampleAt?
  -- With the stages taken apart both computations are sequences of the same steps.
  simp only [lineStage, valueStage, bind_assoc, pure_bind]
  refine .reach htag (.bind (.refl _) ?_)
  rintro instances _ rfl
  refine .bind (follows_threads h s) ?_
  rintro ⟨c, threads⟩ ⟨_, _⟩ ⟨rfl, rfl, hc⟩
  refine .bind (follows_need h hc _ _) ?_
  rintro i ⟨line1, _⟩ ⟨hline1, rfl, hi⟩
  refine .bind (follows_need h hi _ _) ?_
  rintro j ⟨line2, _⟩ ⟨hline2, rfl, hj⟩
  refine .bind (follows_need h hj _ _) ?_
  rintro k ⟨line3, _⟩ ⟨hline3, rfl, hk⟩
  refine .bind (follows_need h hk _ _) ?_
  rintro m ⟨missedLine, _⟩ ⟨hmissed, rfl, _⟩
  refine .reach hline1 (.bind (.refl _) ?_)
  rintro first _ rfl
  refine .reach hline2 (.bind (.refl _) ?_)
  rintro second _ rfl
  refine .reach hline3 (.bind (.refl _) ?_)
  rintro third _ rfl
  refine .reach hmissed (.bind (.refl _) ?_)
  rintro missed _ rfl
  refine .bind (.refl _) ?_
  rintro rates _ rfl
  refine .bind (.refl _) ?_
  rintro chosen _ rfl
  exact .reach (getElem?_rates rates chosen) (.pure rfl)

theorem mineAt?_eq (h : log.length < limit) (set : String) (s : Section) :
    mineAt? limit set log s = mine? set log s := by
  unfold mineAt? mine?
  cases htag : log[s.first]? with
  | none =>
      -- The tag is read first, so nothing comes before the place that is missing.
      unfold sampleAt?
      rw [htag]
      rfl
  | some tag =>
      rw [(follows_sample h htag set).run_eq]
      rfl

end Syscall

/-- **Mining by positions is mining**, and no place is missing but for the first line of a section of the
    syscall log. -/
theorem Variant.mineAt?_eq (h : log.length < limit) (v : Variant) (set : String) (s : Section) :
    v.mineAt? limit set log s = v.mine? set log s := by
  cases v with
  | counter => exact Counter.mineAt?_eq (Nat.le_of_lt h) s
  | syscall => exact Syscall.mineAt?_eq h set s

end BenchLog
