import BenchLog.Section

/-!
# `BenchLog.Proofs.Section.Openings` — the sections of a log, all at once

`sectionsFrom` walks through a log with a cursor that jumps to the end of the section it has just found,
or one line past its opening. Here the same sections are read off the list of all openings: every opening
is paired with the next one, the last with the last line of the log, and the pairs that are too short are
left out.

## Contents
- `openings`, the positions of all lines that open a section, and `openings_append`;
- `bounds`, the pairs, with their laws under append and shift;
- `find_eq_head?`, a search as a look at the next opening;
- `sections_eq_filter`, the walk with the cursor visits exactly the pairs; `length_sections_le`.
-/

namespace BenchLog

/-! ## Openings -/

/-- The positions of the lines that open a section, in order. -/
def openings (p : String → Bool) (log : List String) : List Nat :=
  (List.range log.length).filter fun i => log[i]?.any p

theorem mem_openings {p : String → Bool} {log : List String} {i : Nat} :
    i ∈ openings p log ↔ ∃ line, log[i]? = some line ∧ p line = true := by
  simp only [openings, List.mem_filter, List.mem_range, Option.any_eq_true]
  constructor
  · rintro ⟨_, line, hline⟩
    exact ⟨line, hline⟩
  · rintro ⟨line, hline, hp⟩
    exact ⟨(List.getElem?_eq_some_iff.1 hline).1, line, hline, hp⟩

theorem lt_length_of_mem_openings {p : String → Bool} {log : List String} {i : Nat}
    (h : i ∈ openings p log) : i < log.length := by
  obtain ⟨line, hline, _⟩ := mem_openings.1 h
  exact (List.getElem?_eq_some_iff.1 hline).1

theorem openings_pairwise (p : String → Bool) (log : List String) :
    (openings p log).Pairwise (· < ·) :=
  List.pairwise_lt_range.filter _

theorem openings_append (p : String → Bool) (log more : List String) :
    openings p (log ++ more)
      = openings p log ++ (openings p more).map (log.length + ·) := by
  unfold openings
  rw [List.length_append, List.range_add, List.filter_append, List.filter_map]
  congr 1
  · refine List.filter_congr fun i hi => ?_
    rw [List.getElem?_append_left (List.mem_range.1 hi)]
  · refine congrArg _ (List.filter_congr fun i _ => ?_)
    simp only [Function.comp_apply]
    rw [List.getElem?_append_right (Nat.le_add_right _ _), Nat.add_sub_cancel_left]

/-! ## Searching for the next opening -/

theorem find_eq_some_iff {p : String → Bool} {log : List String} {start i : Nat} :
    find p log start = some i
      ↔ i ∈ openings p log ∧ start ≤ i ∧ ∀ j ∈ openings p log, start ≤ j → i ≤ j := by
  unfold find
  simp only [Option.map_eq_some_iff, List.findIdx?_eq_some_iff_getElem, List.getElem_drop,
    List.length_drop]
  constructor
  · rintro ⟨k, ⟨hk, hp, hleast⟩, rfl⟩
    refine ⟨mem_openings.2 ⟨log[start + k], ?_, hp⟩, by omega, ?_⟩
    · rw [Nat.add_comm, List.getElem?_eq_getElem]
    · intro j hj hstart
      obtain ⟨line, hline, hpline⟩ := mem_openings.1 hj
      obtain ⟨hlt, rfl⟩ := List.getElem?_eq_some_iff.1 hline
      refine Nat.le_of_not_lt fun hji => hleast (j - start) (by omega) ?_
      simpa only [Nat.add_sub_cancel' hstart] using hpline
  · rintro ⟨hi, hstart, hleast⟩
    obtain ⟨line, hline, hpline⟩ := mem_openings.1 hi
    obtain ⟨hlt, rfl⟩ := List.getElem?_eq_some_iff.1 hline
    refine ⟨i - start, ⟨by omega, ?_, ?_⟩, by omega⟩
    · simpa only [Nat.add_sub_cancel' hstart] using hpline
    · intro j hj hp
      have hopen : start + j ∈ openings p log :=
        mem_openings.2 ⟨_, List.getElem?_eq_getElem (by omega), hp⟩
      have := hleast (start + j) hopen (Nat.le_add_right _ _)
      omega

theorem find_eq_none_iff {p : String → Bool} {log : List String} {start : Nat} :
    find p log start = none ↔ ∀ i ∈ openings p log, i < start := by
  unfold find
  rw [Option.map_eq_none_iff, List.findIdx?_eq_none_iff]
  constructor
  · intro h i hi
    obtain ⟨line, hline, hp⟩ := mem_openings.1 hi
    refine Nat.lt_of_not_le fun hstart => ?_
    have hmem : line ∈ log.drop start := by
      refine List.mem_of_getElem? (i := i - start) ?_
      rw [List.getElem?_drop, Nat.add_sub_cancel' hstart, hline]
    rw [h line hmem] at hp
    exact Bool.noConfusion hp
  · intro h line hmem
    obtain ⟨k, hk⟩ := List.mem_iff_getElem?.1 hmem
    rw [List.getElem?_drop] at hk
    cases hp : p line with
    | false => rfl
    | true => exact absurd (h _ (mem_openings.2 ⟨line, hk, hp⟩)) (by omega)

/-- The openings from a position on. -/
def openingsFrom (p : String → Bool) (log : List String) (start : Nat) : List Nat :=
  (openings p log).filter (start ≤ ·)

theorem mem_openingsFrom {p : String → Bool} {log : List String} {start i : Nat} :
    i ∈ openingsFrom p log start ↔ i ∈ openings p log ∧ start ≤ i := by
  simp only [openingsFrom, List.mem_filter, decide_eq_true_eq]

theorem openingsFrom_pairwise (p : String → Bool) (log : List String) (start : Nat) :
    (openingsFrom p log start).Pairwise (· < ·) :=
  (openings_pairwise p log).filter _

/-- A search finds the next opening. -/
theorem find_eq_head? (p : String → Bool) (log : List String) (start : Nat) :
    find p log start = (openingsFrom p log start).head? := by
  cases h : openingsFrom p log start with
  | nil =>
      refine find_eq_none_iff.2 fun i hi => Nat.lt_of_not_le fun hstart => ?_
      have hmem := mem_openingsFrom.2 ⟨hi, hstart⟩
      rw [h] at hmem
      exact List.not_mem_nil hmem
  | cons d ds =>
      have hd : d ∈ openingsFrom p log start := h ▸ List.mem_cons_self
      obtain ⟨hopen, hstart⟩ := mem_openingsFrom.1 hd
      refine find_eq_some_iff.2 ⟨hopen, hstart, fun j hj hj' => ?_⟩
      have hmem := mem_openingsFrom.2 ⟨hj, hj'⟩
      have hsorted := openingsFrom_pairwise p log start
      rw [h] at hmem hsorted
      rcases List.mem_cons.1 hmem with rfl | htail
      · exact Nat.le_refl _
      · exact Nat.le_of_lt (List.rel_of_pairwise_cons hsorted htail)

/-- Moving the cursor past the next opening, and not past the one after it, leaves the other openings. -/
theorem openingsFrom_of_cons {p : String → Bool} {log : List String} {start cursor d : Nat}
    {ds : List Nat} (h : openingsFrom p log start = d :: ds) (hd : d < cursor)
    (hds : ∀ e ∈ ds, cursor ≤ e) : openingsFrom p log cursor = ds := by
  have hstart : start ≤ d := (mem_openingsFrom.1 (h ▸ List.mem_cons_self)).2
  have hrefine : openingsFrom p log cursor = (openingsFrom p log start).filter (cursor ≤ ·) := by
    unfold openingsFrom
    rw [List.filter_filter]
    refine List.filter_congr fun i _ => ?_
    by_cases hi : cursor ≤ i
    · simp [hi, show start ≤ i by omega]
    · simp [hi]
  rw [hrefine, h, List.filter_cons_of_neg (by simpa using hd)]
  exact List.filter_eq_self.2 fun e he => by simpa using hds e he

/-! ## Pairing openings -/

/-- Every opening with the one after it, the last one with `final`. -/
def bounds (final : Nat) (ds : List Nat) : List Section :=
  List.zipWith Section.mk ds (ds.tail ++ [final])

theorem bounds_cons (final d : Nat) (ds : List Nat) :
    bounds final (d :: ds) = ⟨d, ds.head?.getD final⟩ :: bounds final ds := by
  cases ds <;> rfl

theorem length_bounds (final : Nat) (ds : List Nat) : (bounds final ds).length = ds.length := by
  induction ds with
  | nil => rfl
  | cons d ds ih => rw [bounds_cons, List.length_cons, List.length_cons, ih]

/-- The sections before an opening end without regard to what comes after it. -/
theorem bounds_append (final e : Nat) (ds es : List Nat) :
    bounds final (ds ++ e :: es) = bounds e ds ++ bounds final (e :: es) := by
  induction ds with
  | nil => rfl
  | cons d ds ih =>
      have hhead : (ds ++ e :: es).head?.getD final = ds.head?.getD e := by cases ds <;> rfl
      rw [List.cons_append, bounds_cons, bounds_cons, List.cons_append, ih, hhead]

theorem first_mem_of_mem_bounds {final : Nat} {ds : List Nat} {s : Section}
    (h : s ∈ bounds final ds) : s.first ∈ ds := by
  induction ds with
  | nil => cases h
  | cons d ds ih =>
      rw [bounds_cons] at h
      rcases List.mem_cons.1 h with rfl | htail
      · exact List.mem_cons_self
      · exact List.mem_cons_of_mem _ (ih htail)

theorem last_of_mem_bounds {final : Nat} {ds : List Nat} {s : Section}
    (h : s ∈ bounds final ds) : s.last ∈ ds ∨ s.last = final := by
  induction ds with
  | nil => cases h
  | cons d ds ih =>
      rw [bounds_cons] at h
      rcases List.mem_cons.1 h with rfl | htail
      · cases ds with
        | nil => exact Or.inr rfl
        | cons e es => exact Or.inl (by simp)
      · exact (ih htail).imp_left (List.mem_cons_of_mem _)

/-- A section ends at the first opening behind its own, if there is one. -/
theorem last_le_of_mem_bounds {final : Nat} {ds : List Nat} (hsorted : ds.Pairwise (· < ·))
    {s : Section} (h : s ∈ bounds final ds) {e : Nat} (he : e ∈ ds) (hlt : s.first < e) :
    s.last ≤ e := by
  induction ds with
  | nil => cases h
  | cons d ds ih =>
      obtain ⟨hd, htail⟩ := List.pairwise_cons.1 hsorted
      rw [bounds_cons] at h
      rcases List.mem_cons.1 h with rfl | hs
      · rcases List.mem_cons.1 he with rfl | he
        · exact absurd hlt (Nat.lt_irrefl _)
        · cases ds with
          | nil => cases he
          | cons e' es =>
              rcases List.mem_cons.1 he with rfl | he
              · exact Nat.le_refl _
              · exact Nat.le_of_lt ((List.pairwise_cons.1 htail).1 e he)
      · have hfirst := hd _ (first_mem_of_mem_bounds hs)
        rcases List.mem_cons.1 he with rfl | he
        · exact absurd hlt (by omega)
        · exact ih htail hs he

/-- Of two sections the earlier one has ended when the later one opens. -/
theorem bounds_pairwise {final : Nat} {ds : List Nat} (hsorted : ds.Pairwise (· < ·)) :
    (bounds final ds).Pairwise fun s t => s.first < t.first ∧ s.last ≤ t.first := by
  induction ds with
  | nil => exact List.Pairwise.nil
  | cons d ds ih =>
      obtain ⟨hd, htail⟩ := List.pairwise_cons.1 hsorted
      rw [bounds_cons]
      refine List.pairwise_cons.2 ⟨fun t ht => ?_, ih htail⟩
      have hmem := first_mem_of_mem_bounds ht
      have hhead : (⟨d, ds.head?.getD final⟩ : Section) ∈ bounds final (d :: ds) := by
        rw [bounds_cons]; exact List.mem_cons_self
      exact ⟨hd _ hmem,
        last_le_of_mem_bounds hsorted hhead (List.mem_cons_of_mem _ hmem) (hd _ hmem)⟩

/-- The same positions in a log with `n` more lines in front. -/
def Section.shift (n : Nat) (s : Section) : Section := ⟨n + s.first, n + s.last⟩

theorem Section.span_shift (n : Nat) (s : Section) : (s.shift n).span = s.span := by
  simp only [Section.span, Section.shift]
  omega

theorem bounds_map_add (n final : Nat) (ds : List Nat) :
    bounds (n + final) (ds.map (n + ·)) = (bounds final ds).map (Section.shift n) := by
  induction ds with
  | nil => rfl
  | cons d ds ih =>
      have hhead : (ds.map (n + ·)).head?.getD (n + final) = n + ds.head?.getD final := by
        cases ds <;> rfl
      rw [List.map_cons, bounds_cons, bounds_cons, List.map_cons, ih, hhead]
      rfl

/-! ## The walk of the cursor -/

/-- **The walk finds what the pairing finds.** From any position on, the sections are the pairs of the
    openings from there on that are long enough. The induction is on those openings: the cursor always
    lands behind the first of them and on or before the second. -/
theorem sectionsFrom_eq_filter (p : String → Bool) (minSpan : Nat) (log : List String)
    (start : Nat) :
    sectionsFrom p minSpan log start
      = (bounds (log.length - 1) (openingsFrom p log start)).filter (minSpan < ·.span) := by
  generalize hds : openingsFrom p log start = ds
  induction ds generalizing start with
  | nil =>
      have hfind : find p log start = none := by rw [find_eq_head?, hds]; rfl
      have hlocate : locate p log start = none := by rw [locate, hfind]; rfl
      rw [sectionsFrom]
      split
      · rfl
      · next s hs => rw [hlocate] at hs; cases hs
  | cons d ds ih =>
      have hfind : find p log start = some d := by rw [find_eq_head?, hds]; rfl
      have hsorted : (d :: ds).Pairwise (· < ·) := hds ▸ openingsFrom_pairwise p log start
      have hlater : ∀ e ∈ ds, d < e := fun e he => List.rel_of_pairwise_cons hsorted he
      have hnext : openingsFrom p log (d + 1) = ds :=
        openingsFrom_of_cons hds (Nat.lt_succ_self d) hlater
      have hlocate : locate p log start = some ⟨d, ds.head?.getD (log.length - 1)⟩ := by
        rw [locate, hfind, Option.map_some, find_eq_head?, hnext]
      -- The cursor jumps to the end of the section, or one line on if the section ends where it opens.
      have hcursor : openingsFrom p log (max (ds.head?.getD (log.length - 1)) (d + 1)) = ds := by
        refine openingsFrom_of_cons hds (by omega) fun e he => ?_
        cases ds with
        | nil => exact absurd he List.not_mem_nil
        | cons e' es =>
            have hfirst : e' ≤ e := by
              rcases List.mem_cons.1 he with rfl | htail
              · exact Nat.le_refl _
              · exact Nat.le_of_lt (List.rel_of_pairwise_cons hsorted.tail htail)
            have := hlater e he
            simp only [List.head?_cons, Option.getD_some]
            omega
      rw [sectionsFrom]
      split
      · next hs => rw [hlocate] at hs; cases hs
      · next s hs =>
          rw [hlocate] at hs
          obtain rfl := Option.some.inj hs
          rw [bounds_cons, ih _ hcursor, List.filter_cons]
          simp only [decide_eq_true_eq]

/-- The sections of a log are the pairs of its openings that are long enough. -/
theorem sections_eq_filter (p : String → Bool) (minSpan : Nat) (log : List String) :
    sections p minSpan log
      = (bounds (log.length - 1) (openings p log)).filter (minSpan < ·.span) := by
  have hall : openingsFrom p log 0 = openings p log :=
    List.filter_eq_self.2 fun i _ => by simp
  rw [sections, sectionsFrom_eq_filter, hall]

/-- A log has no more sections than lines. -/
theorem length_sections_le (p : String → Bool) (minSpan : Nat) (log : List String) :
    (sections p minSpan log).length ≤ log.length := by
  rw [sections_eq_filter]
  calc ((bounds (log.length - 1) (openings p log)).filter _).length
      ≤ (bounds (log.length - 1) (openings p log)).length := List.length_filter_le _ _
    _ = (openings p log).length := length_bounds _ _
    _ ≤ (List.range log.length).length := List.length_filter_le _ _
    _ = log.length := List.length_range

/-- A section of a log opens on a line of it and ends on a later one. -/
theorem bounds_of_mem_sections {p : String → Bool} {minSpan : Nat} {log : List String}
    {s : Section} (h : s ∈ sections p minSpan log) :
    s ∈ bounds (log.length - 1) (openings p log) ∧ s.first < s.last ∧ s.last < log.length := by
  rw [sections_eq_filter, List.mem_filter, decide_eq_true_eq] at h
  obtain ⟨hmem, hspan⟩ := h
  have hfirst := lt_length_of_mem_openings (first_mem_of_mem_bounds hmem)
  refine ⟨hmem, ?_, ?_⟩
  · rw [Section.span] at hspan
    omega
  · rcases last_of_mem_bounds hmem with hlast | hlast
    · exact lt_length_of_mem_openings hlast
    · omega

/-! ## The sections of a log -/

/-- Whether a line is one of a section's: its bounds count. -/
def Section.Covers (s : Section) (i : Nat) : Prop := s.first ≤ i ∧ i ≤ s.last

/-- **The locator finds exactly the delimited sections.** The sections of a log are the openings, each
    paired with the next one or with the last line, whose span exceeds the least one. They come in
    order, each opens on an opening line and ends on a later line, no line between the two opens a
    section, and a line that two of them share is the end of the one and the opening of the other. -/
theorem sections_are_delimited (p : String → Bool) (minSpan : Nat) (log : List String) :
    sections p minSpan log
        = (bounds (log.length - 1) (openings p log)).filter (minSpan < ·.span)
      ∧ (∀ i, i ∈ openings p log ↔ ∃ line, log[i]? = some line ∧ p line = true)
      ∧ (openings p log).Pairwise (· < ·)
      ∧ (∀ s ∈ sections p minSpan log,
          s.first < s.last ∧ s.last < log.length
            ∧ (∃ line, log[s.first]? = some line ∧ p line = true)
            ∧ ∀ i line, s.first < i → i < s.last → log[i]? = some line → p line = false)
      ∧ (sections p minSpan log).Pairwise fun s t =>
          s.first < t.first ∧ ∀ i, s.Covers i → t.Covers i → i = s.last ∧ i = t.first := by
  have hsorted := openings_pairwise p log
  refine ⟨sections_eq_filter p minSpan log, fun _ => mem_openings, hsorted, ?_, ?_⟩
  · intro s hs
    obtain ⟨hmem, hlt, hend⟩ := bounds_of_mem_sections hs
    refine ⟨hlt, hend, mem_openings.1 (first_mem_of_mem_bounds hmem), ?_⟩
    intro i line hfirst hlast hline
    cases hp : p line with
    | false => rfl
    | true =>
        have := last_le_of_mem_bounds hsorted hmem (mem_openings.2 ⟨line, hline, hp⟩) hfirst
        omega
  · rw [sections_eq_filter]
    refine ((bounds_pairwise hsorted).filter _).imp ?_
    rintro s t ⟨hfirst, hlast⟩
    refine ⟨hfirst, ?_⟩
    rintro i ⟨_, his⟩ ⟨hit, _⟩
    omega

end BenchLog
