import BenchLog.Text.Piece

/-!
# `BenchLog.Proofs.Text.Piece` — what the readers of a log line take

Every reader of a piece succeeds on exactly the texts that go on with such a piece, and leaves the rest. For
a single character or a word that is all there is to say. A run of blanks or digits is taken whole, so the
rest must not go on with the run: `Ends` says that.

The last section is about the place where a reader is tried. It is tried at every place of a line and the
last place wins, so a text is read at a place as soon as no later one can be read.

## Contents
- `forall_isBlank`, `isDecimal_of_isBlank`, `foldCase_of_isBlank`, about blanks;
- `Ends`, a text that does not go on with a run;
- `dropChar?_eq_some`, `dropBlank?_eq_some`, `dropWord?_eq_some`, `takeDigits?_eq_some`: one piece each;
- `onOneLine_iff`: what may trail;
- `trimStart_append`, `dropBlanks?_append`, `dropBlanks?_eq_some`: runs of blanks;
- `Trimmed`, `Trimmed.trim_eq`, `trim_append`: texts with blanks around them;
- `dropChar?_suffix`, `dropBlank?_suffix`, `takeDigits?_suffix`: what is left is the end of the text;
- `exists_of_lastMatch?`, `lastMatch?_append`: the place.
-/

namespace BenchLog.Text

variable {p : Char → Bool} {c : Char} {cs rest word run digits : List Char}

/-! ## Blanks -/

/-- The code points of the blanks. -/
def blankCodes : List Nat :=
  [0x09, 0x0a, 0x0b, 0x0c, 0x0d, 0x20, 0x85, 0xa0, 0x1680, 0x2000, 0x2001, 0x2002, 0x2003, 0x2004, 0x2005,
   0x2006, 0x2007, 0x2008, 0x2009, 0x200a, 0x2028, 0x2029, 0x202f, 0x205f, 0x3000]

/-- What holds of the blanks one by one holds of every blank. -/
theorem forall_isBlank {P : Char → Prop} (h : ∀ n ∈ blankCodes, P (Char.ofNat n))
    (hc : isBlank c = true) : P c := by
  have hmem : c.toNat ∈ blankCodes := by
    simp only [isBlank, Bool.or_eq_true, Bool.and_eq_true, decide_eq_true_eq, beq_iff_eq] at hc
    simp only [blankCodes, List.mem_cons, List.not_mem_nil, or_false]
    omega
  have hP := h c.toNat hmem
  rwa [Char.ofNat_toNat] at hP

theorem isDecimal_of_isBlank (h : isBlank c = true) : isDecimal c = false :=
  forall_isBlank (P := fun c => isDecimal c = false) (by decide) h

theorem isBlank_of_isDecimal (h : isDecimal c = true) : isBlank c = false := by
  cases hblank : isBlank c with
  | false => rfl
  | true =>
      rw [isDecimal_of_isBlank hblank] at h
      exact absurd h Bool.false_ne_true

/-- Blanks have no letter case. -/
theorem foldCase_of_isBlank (h : isBlank c = true) : foldCase c = c :=
  forall_isBlank (P := fun c => foldCase c = c) (by decide) h

/-! ## Single characters and words -/

theorem dropChar?_eq_some : dropChar? c cs = some rest ↔ cs = c :: rest := by
  cases cs with
  | nil => simp [dropChar?]
  | cons d cs =>
      rw [dropChar?]
      by_cases h : d = c <;> simp [h]

theorem dropBlank?_eq_some :
    dropBlank? cs = some rest ↔ ∃ blank, isBlank blank = true ∧ cs = blank :: rest := by
  cases cs with
  | nil => simp [dropBlank?]
  | cons d cs =>
      rw [dropBlank?]
      constructor
      · intro h
        split at h
        · next hd => exact ⟨d, hd, congrArg (d :: ·) (Option.some.inj h)⟩
        · exact nomatch h
      · rintro ⟨blank, hblank, heq⟩
        obtain ⟨rfl, rfl⟩ := List.cons.inj heq
        rw [if_pos hblank]

/-- A word is dropped in whatever letter case it is spelled. -/
theorem dropWord?_eq_some :
    dropWord? word cs = some rest ↔ ∃ spelling, spelling.map foldCase = word ∧ cs = spelling ++ rest := by
  induction word generalizing cs with
  | nil =>
      simp only [dropWord?, Option.some.injEq, List.map_eq_nil_iff, exists_eq_left, List.nil_append]
  | cons w word ih =>
      cases cs with
      | nil =>
          simp only [dropWord?, reduceCtorEq, false_iff]
          rintro ⟨spelling, hfold, heq⟩
          obtain ⟨rfl, -⟩ := List.append_eq_nil_iff.1 heq.symm
          exact nomatch hfold
      | cons d cs =>
          unfold dropWord?
          constructor
          · intro h
            split at h
            · next hd =>
                obtain ⟨spelling, hfold, rfl⟩ := ih.1 h
                exact ⟨d :: spelling, by rw [List.map_cons, hd, hfold], rfl⟩
            · exact nomatch h
          · rintro ⟨spelling, hfold, heq⟩
            cases spelling with
            | nil => exact nomatch hfold
            | cons e spelling =>
                obtain ⟨rfl, rfl⟩ := List.cons.inj heq
                obtain ⟨hd, hrest⟩ := List.cons.inj hfold
                rw [if_pos hd]
                exact ih.2 ⟨spelling, hrest, rfl⟩

theorem forall_bne_iff : (∀ d ∈ cs, (d != c) = true) ↔ c ∉ cs := by
  simp only [bne_iff_ne]
  exact ⟨fun h hmem => h c hmem rfl, fun h d hd heq => h (heq ▸ hd)⟩

theorem onOneLine_iff : onOneLine cs = true ↔ '\n' ∉ cs := by
  rw [onOneLine, List.all_eq_true, forall_bne_iff]

/-! ## Runs -/

/-- A text that does not begin with a character of a run. -/
def Ends (p : Char → Bool) (cs : List Char) : Prop := ∀ c ∈ cs.head?, p c = false

theorem ends_cons (h : p c = false) : Ends p (c :: cs) := by
  intro d hd
  obtain rfl : c = d := by simpa using hd
  exact h

theorem takeWhile_append_of_ends (hrun : ∀ c ∈ run, p c = true) (hrest : Ends p rest) :
    (run ++ rest).takeWhile p = run := by
  rw [List.takeWhile_append_of_pos hrun]
  cases rest with
  | nil => exact List.append_nil run
  | cons d rest =>
      have hd : p d = false := hrest d rfl
      rw [List.takeWhile_cons_of_neg (by simp [hd]), List.append_nil]

theorem dropWhile_append_of_ends (hrun : ∀ c ∈ run, p c = true) (hrest : Ends p rest) :
    (run ++ rest).dropWhile p = rest := by
  rw [List.dropWhile_append_of_pos hrun]
  cases rest with
  | nil => rfl
  | cons d rest =>
      have hd : p d = false := hrest d rfl
      rw [List.dropWhile_cons_of_neg (by simp [hd])]

theorem ends_dropWhile (p : Char → Bool) (cs : List Char) : Ends p (cs.dropWhile p) := by
  intro d hd
  induction cs with
  | nil => exact nomatch hd
  | cons c cs ih =>
      rw [List.dropWhile_cons] at hd
      split at hd
      · exact ih hd
      · next hc =>
          obtain rfl : c = d := by simpa using hd
          simpa using hc

/-- Digits are taken as far as they go. -/
theorem takeDigits?_eq_some :
    takeDigits? cs = some (digits, rest)
      ↔ digits ≠ [] ∧ (∀ d ∈ digits, isDecimal d = true) ∧ Ends isDecimal rest ∧ cs = digits ++ rest := by
  unfold takeDigits?
  constructor
  · intro h
    split at h
    · exact nomatch h
    · next hne =>
        obtain ⟨rfl, rfl⟩ := Prod.mk.inj (Option.some.inj h)
        refine ⟨hne, fun d hd => ?_, ends_dropWhile isDecimal cs, List.takeWhile_append_dropWhile.symm⟩
        exact List.all_eq_true.1 List.all_takeWhile d hd
  · rintro ⟨hne, hall, hends, rfl⟩
    rw [takeWhile_append_of_ends hall hends, dropWhile_append_of_ends hall hends]
    cases digits with
    | nil => exact absurd rfl hne
    | cons d digits => rfl

theorem trimStart_append (hrun : ∀ c ∈ run, isBlank c = true) (hrest : Ends isBlank rest) :
    trimStart (run ++ rest) = rest :=
  dropWhile_append_of_ends hrun hrest

/-- Only blanks are trimmed away to nothing. -/
theorem isBlank_of_trimStart_eq_nil (h : trimStart cs = []) : ∀ c ∈ cs, isBlank c = true := by
  have hall : cs.takeWhile isBlank = cs := by
    have hparts : cs.takeWhile isBlank ++ trimStart cs = cs := List.takeWhile_append_dropWhile
    rwa [h, List.append_nil] at hparts
  intro c hc
  rw [← hall] at hc
  exact List.all_eq_true.1 List.all_takeWhile c hc

theorem trimStart_of_ends (h : Ends isBlank cs) : trimStart cs = cs :=
  trimStart_append (List.forall_mem_nil _) h

theorem trimEnd_append (hrun : ∀ c ∈ run, isBlank c = true) (h : Ends isBlank cs.reverse) :
    trimEnd (cs ++ run) = cs := by
  have hback : ∀ c ∈ run.reverse, isBlank c = true := fun c hc => hrun c (List.mem_reverse.1 hc)
  rw [trimEnd, List.reverse_append, dropWhile_append_of_ends hback h, List.reverse_reverse]

/-- A text that is not blank at either end. -/
def Trimmed (cs : List Char) : Prop := Ends isBlank cs ∧ Ends isBlank cs.reverse

theorem Trimmed.trim_eq (h : Trimmed cs) : trim cs = cs := by
  have hend := trimEnd_append (List.forall_mem_nil _) h.2
  rw [List.append_nil] at hend
  rw [trim, trimStart_of_ends h.1, hend]

theorem trim_append {before after : List Char} (hbefore : ∀ c ∈ before, isBlank c = true)
    (hafter : ∀ c ∈ after, isBlank c = true) (hne : cs ≠ []) (h : Trimmed cs) :
    trim (before ++ (cs ++ after)) = cs := by
  have hends : Ends isBlank (cs ++ after) := by
    cases cs with
    | nil => exact absurd rfl hne
    | cons c cs => exact ends_cons (h.1 c rfl)
  rw [trim, trimStart_append hbefore hends, trimEnd_append hafter h.2]

/-- A run of blanks is dropped together with the blanks that follow it. -/
theorem dropBlanks?_append (hne : run ≠ []) (hrun : ∀ c ∈ run, isBlank c = true) (rest : List Char) :
    dropBlanks? (run ++ rest) = some (trimStart rest) := by
  cases run with
  | nil => exact absurd rfl hne
  | cons blank run =>
      obtain ⟨hblank, hblanks⟩ := List.forall_mem_cons.1 hrun
      have hdrop : dropBlank? (blank :: run ++ rest) = some (run ++ rest) :=
        dropBlank?_eq_some.2 ⟨blank, hblank, rfl⟩
      rw [dropBlanks?, hdrop, Option.map_some, trimStart, List.dropWhile_append_of_pos hblanks]
      rfl

/-- Blanks are dropped as far as they go. -/
theorem dropBlanks?_eq_some :
    dropBlanks? cs = some rest
      ↔ ∃ run, run ≠ [] ∧ (∀ c ∈ run, isBlank c = true) ∧ Ends isBlank rest ∧ cs = run ++ rest := by
  constructor
  · intro h
    obtain ⟨later, hdrop, rfl⟩ := Option.map_eq_some_iff.1 h
    obtain ⟨blank, hblank, rfl⟩ := dropBlank?_eq_some.1 hdrop
    refine ⟨blank :: later.takeWhile isBlank, List.cons_ne_nil _ _, ?_, ends_dropWhile isBlank later, ?_⟩
    · exact List.forall_mem_cons.2 ⟨hblank, List.all_eq_true.1 List.all_takeWhile⟩
    · rw [List.cons_append, trimStart, List.takeWhile_append_dropWhile]
  · rintro ⟨run, hne, hrun, hends, rfl⟩
    rw [dropBlanks?_append hne hrun, trimStart_of_ends hends]

/-! ## What is left -/

theorem dropChar?_suffix (h : dropChar? c cs = some rest) : rest <:+ cs := by
  obtain rfl := dropChar?_eq_some.1 h
  exact List.suffix_cons c rest

theorem dropBlank?_suffix (h : dropBlank? cs = some rest) : rest <:+ cs := by
  obtain ⟨blank, _, rfl⟩ := dropBlank?_eq_some.1 h
  exact List.suffix_cons blank rest

theorem takeDigits?_suffix (h : takeDigits? cs = some (digits, rest)) : rest <:+ cs := by
  obtain ⟨_, _, _, rfl⟩ := takeDigits?_eq_some.1 h
  exact List.suffix_append digits rest

theorem trimStart_suffix (cs : List Char) : trimStart cs <:+ cs := List.dropWhile_suffix isBlank

/-! ## The place where a reader is tried -/

section LastMatch

variable {α : Type} {reader : List Char → Option α} {a : α}

/-- What is read is read at some place of the text. -/
theorem exists_of_lastMatch? (h : lastMatch? reader cs = some a) :
    ∃ place, place <:+ cs ∧ reader place = some a := by
  induction cs with
  | nil => exact ⟨[], List.suffix_refl [], h⟩
  | cons c cs ih =>
      unfold lastMatch? at h
      split at h
      · exact ⟨c :: cs, List.suffix_refl _, h⟩
      · cases hlater : lastMatch? reader cs with
        | none =>
            rw [hlater] at h
            exact ⟨c :: cs, List.suffix_refl _, h⟩
        | some b =>
            rw [hlater] at h
            obtain ⟨place, hplace, hread⟩ := ih (hlater.trans h)
            exact ⟨place, hplace.trans (List.suffix_cons c cs), hread⟩

theorem lastMatch?_eq_none (h : ∀ place, place <:+ cs → reader place = none) :
    lastMatch? reader cs = none := by
  induction cs with
  | nil => exact h [] (List.suffix_refl [])
  | cons c cs ih =>
      have hhere : reader (c :: cs) = none := h (c :: cs) (List.suffix_refl _)
      have hlater : lastMatch? reader cs = none :=
        ih fun place hplace => h place (hplace.trans (List.suffix_cons c cs))
      unfold lastMatch?
      rw [hlater, hhere]
      split <;> rfl

/-- A text is read at a place of its first line if it cannot be read at any later place, whatever it
    begins with. -/
theorem lastMatch?_append {before : List Char} (hbefore : '\n' ∉ before) (hc : c ≠ '\n')
    (hhere : reader (c :: rest) = some a) (hlater : ∀ place, place <:+ rest → reader place = none) :
    lastMatch? reader (before ++ c :: rest) = some a := by
  have hplace : lastMatch? reader (c :: rest) = some a := by
    rw [lastMatch?, if_neg hc, lastMatch?_eq_none hlater]
    exact hhere
  induction before with
  | nil => exact hplace
  | cons b before ih =>
      rw [List.mem_cons, not_or] at hbefore
      rw [List.cons_append, lastMatch?, if_neg (Ne.symm hbefore.1), ih hbefore.2]
      rfl

end LastMatch

end BenchLog.Text
