import BenchLog.Config.Override
import BenchLog.Proofs.Config.Word
import Mathlib.Data.List.TakeWhile

/-!
# `BenchLog.Proofs.Config.Override` — what a variable of the environment stands for

`Form` is the grammar of a variable without its lists, tables and escapes, one constructor for each form. A
form is read as it says, and a text that follows none stands for itself as it is. Two kinds of text are left
over. One that opens with a bracket is read as a list or a table or stands for itself, so it is never read as
another text. One that opens with a double quote and holds a backslash is not told here, but a text without a
backslash always has a value.

## Contents
- `Unmarked`, `Bare`, `Quoted`, and `Form` made of them;
- `ValueSpec` and `value_spec`, what reading a value gives for each way to open;
- `string_append`, `string_cases`, quoted strings without escapes;
- `Opening`, how a text can open; `Flat`, the texts that the forms are about;
- `ofVariable_of_form` and `ofVariable_of_no_form`, what these stand for;
- `Bracketed` and `ofVariable_of_bracketed`, lists and tables;
- `Leaves`, one step lemma for each part of the grammar, and `grammar_leaves`;
- `exists_ofVariable_of_not_mem`, texts without escapes;
- `Plain` and `ofVariable_of_plain`, texts that stand for themselves.
-/

namespace BenchLog.Config.Override

open BenchLog.Text

/-! ## The forms -/

/-- The two truth values. -/
def truths : List (List Char) := [['t', 'r', 'u', 'e'], ['f', 'a', 'l', 's', 'e']]

/-- Opens like none of the forms that are told by their first characters. -/
structure Unmarked (cs : List Char) : Prop where
  noQuote : ∀ c ∈ cs.head?, c ≠ '\x22' ∧ c ≠ '\x27'
  noBracket : ∀ c ∈ cs.head?, c ≠ '[' ∧ c ≠ '\x7b'
  noTruth : ∀ word ∈ truths, ¬ word <+: cs

/-- A bare word: unmarked and without anything that ends one. -/
structure Bare (cs : List Char) : Prop extends Unmarked cs where
  noSeparator : ∀ c ∈ cs, isSeparator c = false

/-- What may stand between two double quotes if there is no escape. -/
def Quoted (cs : List Char) : Prop :=
  ∀ c ∈ cs, Toml.isPlain c = true ∧ c ≠ '\x22' ∧ c ≠ '\x5c'

/-- Only what separates the parts of the grammar. -/
def Spaces (cs : List Char) : Prop := ∀ c ∈ cs, isSpace c = true

/-- The forms that a text can have from its first character that is no space, and what each stands for. -/
inductive Form : List Char → Value → Prop
  | truth {word after : List Char} (hword : word ∈ truths) (hafter : Spaces after) :
      Form (word ++ after) .scalar
  | quoted {inner after : List Char} (hinner : Quoted inner) (hafter : Spaces after) :
      Form ('\x22' :: (inner ++ '\x22' :: after)) (.text (String.ofList inner))
  | character {c : Char} {after : List Char} (hafter : Spaces after) :
      Form ('\x27' :: c :: '\x27' :: after) (.text c.toString)
  | number {cs : List Char} (hbare : Bare cs) (hnumber : Numeral (trim cs)) : Form cs .scalar
  | word {cs : List Char} (hbare : Bare cs) (hnumber : ¬ Numeral (trim cs)) :
      Form cs (.text (String.ofList (trim cs)))

variable {c : Char} {cs rest word inner after : List Char} {fuel : Nat} {content : String} {x : Value}

theorem unmarked_cons (hquote : c ≠ '\x22' ∧ c ≠ '\x27') (hbracket : c ≠ '[' ∧ c ≠ '\x7b')
    (htruth : ∀ word ∈ truths, ¬ word <+: c :: cs) : Unmarked (c :: cs) := by
  refine ⟨?_, ?_, htruth⟩
  · rintro d ⟨⟩
    exact hquote
  · rintro d ⟨⟩
    exact hbracket

/-! ## Reading a value -/

theorem skip_eq_nil_iff : skip cs = [] ↔ Spaces cs := List.dropWhile_eq_nil_iff

theorem skip_suffix (cs : List Char) : skip cs <:+ cs := List.dropWhile_suffix isSpace

theorem not_mem_of_suffix (h : c ∉ cs) (hsuffix : rest <:+ cs) : c ∉ rest :=
  fun hmem => h (hsuffix.subset hmem)

theorem isSpace_of_isSeparator (h : isSeparator c = true) : isSpace c = false := by
  simp only [isSeparator, Bool.or_eq_true, beq_iff_eq] at h
  rcases h with (((rfl | rfl) | rfl) | rfl) | rfl
  all_goals decide

/-- What reading a value gives, for each way in which the text can open. -/
structure ValueSpec (fuel : Nat) (cs : List Char) (result : Except Fault (Value × List Char)) : Prop where
  truth {word after : List Char} (hword : word ∈ truths) (h : skip cs = word ++ after) :
    result = .ok (.scalar, skip after)
  quote {rest : List Char} (h : skip cs = '\x22' :: rest) :
    result = (string rest).map fun p => (.text p.1, skip p.2)
  character {c : Char} {after : List Char} (h : skip cs = '\x27' :: c :: '\x27' :: after) :
    result = .ok (.text c.toString, skip after)
  /-- An apostrophe opens nothing but a single character. -/
  apostrophe {rest : List Char} (h : skip cs = '\x27' :: rest)
      (hopen : ∀ c after, rest ≠ c :: '\x27' :: after) :
    result = .error .mismatch
  list {rest : List Char} (h : skip cs = '[' :: rest) :
    result = (items fuel rest).map fun p => (.list false p.1, skip p.2)
  table {rest : List Char} (h : skip cs = '\x7b' :: rest) :
    result = (members fuel rest).map fun p => (.table .closed p.1, skip p.2)
  unmarked (hmark : Unmarked (skip cs)) :
    result = .ok (bare ((skip cs).takeWhile (!isSeparator ·)), skip ((skip cs).dropWhile (!isSeparator ·)))

/-- A part of the grammar that makes up the whole of a value. -/
theorem map_bind_skip {α : Type} (part : Except Fault (α × List Char)) (f : α → Value) :
    ((part.map fun p => (f p.1, p.2)) >>= fun p => pure (p.1, skip p.2))
      = part.map fun p => (f p.1, skip p.2) := by
  cases part <;> rfl

theorem value_spec (fuel : Nat) (cs : List Char) : ValueSpec fuel cs (value (fuel + 1) cs) := by
  rw [value]
  refine ⟨fun hword h => ?_, fun h => ?_, fun h => ?_, fun h hopen => ?_, fun h => ?_, fun h => ?_,
    fun hmark => ?_⟩
  · simp only [truths, List.mem_cons, List.not_mem_nil, or_false] at hword
    rcases hword with rfl | rfl
    · rw [h]
      rfl
    · rw [h]
      rfl
  · rw [h]
    exact map_bind_skip (string _) .text
  · rw [h]
    rfl
  · rw [h]
    split
    · next heq => exact nomatch heq
    · next heq => exact nomatch heq
    · next heq => exact nomatch heq
    · next heq => exact nomatch heq
    · next heq => exact nomatch heq
    · next heq => exact absurd (List.cons.inj heq).2 (hopen _ _)
    · rfl
    · next hnot => exact absurd rfl (hnot _)
  · rw [h]
    exact map_bind_skip (items fuel _) (.list false)
  · rw [h]
    exact map_bind_skip (members fuel _) (.table .closed)
  · -- All but the last case open in a way that an unmarked text does not.
    generalize skip cs = body at hmark
    split
    · exact absurd (List.prefix_append ['t', 'r', 'u', 'e'] _) (hmark.noTruth _ (by simp [truths]))
    · exact absurd (List.prefix_append ['f', 'a', 'l', 's', 'e'] _) (hmark.noTruth _ (by simp [truths]))
    · exact absurd rfl (hmark.noBracket _ rfl).2
    · exact absurd rfl (hmark.noBracket _ rfl).1
    · exact absurd rfl (hmark.noQuote _ rfl).1
    · exact absurd rfl (hmark.noQuote _ rfl).2
    · exact absurd rfl (hmark.noQuote _ rfl).2
    · rfl

/-! ## Strings without escapes -/

theorem untilQuote?_cons (hquote : c ≠ '\x22') (hescape : c ≠ '\x5c') (cs : List Char) :
    untilQuote? (c :: cs) = (untilQuote? cs).map fun p => (c :: p.1, p.2) := by
  rw [untilQuote?]
  · exact hquote
  · exact fun _ _ heq _ => hescape heq

theorem untilQuote?_append (hinner : Quoted inner) (rest : List Char) :
    untilQuote? (inner ++ '\x22' :: rest) = some (inner, rest) := by
  induction inner with
  | nil => rw [List.nil_append, untilQuote?]
  | cons c inner ih =>
      obtain ⟨⟨-, hquote, hescape⟩, hlater⟩ := List.forall_mem_cons.1 hinner
      rw [List.cons_append, untilQuote?_cons hquote hescape, ih hlater, Option.map_some]

/-- A text without a backslash is cut at its first double quote. -/
theorem eq_append_of_untilQuote? (h : '\x5c' ∉ cs) (hcut : untilQuote? cs = some (inner, rest)) :
    '\x22' ∉ inner ∧ cs = inner ++ '\x22' :: rest := by
  induction cs generalizing inner with
  | nil => exact nomatch hcut
  | cons c cs ih =>
      rw [List.mem_cons, not_or] at h
      by_cases hquote : c = '\x22'
      · subst hquote
        rw [untilQuote?] at hcut
        obtain ⟨rfl, rfl⟩ := Prod.mk.inj (Option.some.inj hcut)
        exact ⟨List.not_mem_nil, rfl⟩
      · rw [untilQuote?_cons hquote (Ne.symm h.1), Option.map_eq_some_iff] at hcut
        obtain ⟨⟨later, rest⟩, hlater, heq⟩ := hcut
        obtain ⟨rfl, rfl⟩ := Prod.mk.inj heq
        obtain ⟨hnot, rfl⟩ := ih h.2 hlater
        refine ⟨?_, rfl⟩
        rw [List.mem_cons, not_or]
        exact ⟨Ne.symm hquote, hnot⟩

/-- Without a backslash an inner text stands for itself, provided that it holds no controls. -/
theorem unescape_of_not_mem (h : '\x5c' ∉ cs) (hfuel : cs.length < fuel) :
    unescape inner fuel none cs = if cs.all Toml.isPlain then .ok inner else .error .mismatch := by
  induction fuel generalizing cs with
  | zero => exact absurd hfuel (Nat.not_lt_zero _)
  | succ fuel ih =>
      cases cs with
      | nil => rfl
      | cons c cs =>
          rw [List.mem_cons, not_or] at h
          have hlater : cs.length < fuel := Nat.lt_of_succ_lt_succ hfuel
          rw [unescape, Option.map_none, ih h.2 hlater, List.all_cons]
          · cases hplain : Toml.isPlain c with
            | true => rfl
            | false => rfl
          · exact fun heq => h.1 heq.symm

theorem string_of_cut (h : '\x5c' ∉ inner) (hcut : untilQuote? cs = some (inner, rest)) :
    string cs
      = if inner.all Toml.isPlain then .ok (String.ofList inner, rest) else .error .mismatch := by
  rw [string, hcut]
  simp only [unescape_of_not_mem h (Nat.lt_succ_self _)]
  split
  · rfl
  · rfl

/-- A quoted text is read up to the quote that closes it, whatever follows. -/
theorem string_append (hinner : Quoted inner) (rest : List Char) :
    string (inner ++ '\x22' :: rest) = .ok (String.ofList inner, rest) := by
  have hescape : '\x5c' ∉ inner := fun hmem => (hinner _ hmem).2.2 rfl
  have hplain : inner.all Toml.isPlain = true := List.all_eq_true.2 fun c hc => (hinner c hc).1
  rw [string_of_cut hescape (untilQuote?_append hinner rest), if_pos hplain]

/-- A text without a backslash goes on with a quoted text and its closing quote, or it does not follow the
    grammar. -/
theorem string_cases (h : '\x5c' ∉ cs) :
    string cs = .error .mismatch ∨ ∃ inner rest, Quoted inner ∧ cs = inner ++ '\x22' :: rest := by
  cases hcut : untilQuote? cs with
  | none =>
      left
      rw [string, hcut]
  | some cut =>
      obtain ⟨inner, rest⟩ := cut
      obtain ⟨hquote, rfl⟩ := eq_append_of_untilQuote? h hcut
      have hescape : '\x5c' ∉ inner := fun hmem => h (List.mem_append_left _ hmem)
      cases hplain : inner.all Toml.isPlain with
      | false =>
          left
          rw [string_of_cut hescape hcut, hplain]
          rfl
      | true =>
          refine Or.inr ⟨inner, rest, fun c hc => ⟨List.all_eq_true.1 hplain c hc, ?_, ?_⟩, rfl⟩
          · rintro rfl
            exact hquote hc
          · rintro rfl
            exact hescape hc

/-! ## Forms and texts without one -/

/-- The ways in which a text can open. -/
inductive Opening : List Char → Prop
  | truth {word after : List Char} (hword : word ∈ truths) : Opening (word ++ after)
  | quote (rest : List Char) : Opening ('\x22' :: rest)
  | apostrophe (rest : List Char) : Opening ('\x27' :: rest)
  | list (rest : List Char) : Opening ('[' :: rest)
  | table (rest : List Char) : Opening ('\x7b' :: rest)
  | unmarked {cs : List Char} (hmark : Unmarked cs) : Opening cs

theorem opening (cs : List Char) : Opening cs := by
  by_cases htruth : ∃ word ∈ truths, word <+: cs
  · obtain ⟨word, hword, after, rfl⟩ := htruth
    exact .truth hword
  · have hno : ∀ word ∈ truths, ¬ word <+: cs := fun word hword h => htruth ⟨word, hword, h⟩
    cases cs with
    | nil => exact .unmarked ⟨fun _ h => (nomatch h), fun _ h => (nomatch h), hno⟩
    | cons c rest =>
        by_cases hquote : c = '\x22'
        · exact hquote ▸ .quote rest
        by_cases happostrophe : c = '\x27'
        · exact happostrophe ▸ .apostrophe rest
        by_cases hlist : c = '['
        · exact hlist ▸ .list rest
        by_cases htable : c = '\x7b'
        · exact htable ▸ .table rest
        exact .unmarked (unmarked_cons ⟨hquote, happostrophe⟩ ⟨hlist, htable⟩ hno)

/-- A text that the forms are about: it opens with no bracket, and with a double quote only if it holds no
    escape. -/
structure Flat (cs : List Char) : Prop where
  noBracket : ∀ c ∈ (skip cs).head?, c ≠ '[' ∧ c ≠ '\x7b'
  noEscape : (skip cs).head? = some '\x22' → '\x5c' ∉ cs

theorem Unmarked.flat (hmark : Unmarked (skip cs)) : Flat cs :=
  ⟨hmark.noBracket, fun hquote => absurd rfl (hmark.noQuote _ hquote).1⟩

theorem value_of_bare (hbare : Bare (skip cs)) : value (fuel + 1) cs = .ok (bare (skip cs), []) := by
  have hpass : ∀ c ∈ skip cs, (!isSeparator c) = true := by
    intro c hc
    rw [hbare.noSeparator c hc]
    rfl
  rw [(value_spec fuel cs).unmarked hbare.toUnmarked, List.takeWhile_eq_self_iff.2 hpass,
    List.dropWhile_eq_nil_iff.2 hpass]
  rfl

/-- Spaces are no separators, so what follows a bare word is never just spaces. -/
theorem Unmarked.bare (hmark : Unmarked cs) (h : skip (cs.dropWhile (!isSeparator ·)) = []) : Bare cs := by
  cases hrest : cs.dropWhile (!isSeparator ·) with
  | nil =>
      refine ⟨hmark, fun c hc => ?_⟩
      simpa using List.dropWhile_eq_nil_iff.1 hrest c hc
  | cons d rest =>
      have hseparator : isSeparator d = true := by
        have hd := ends_dropWhile (!isSeparator ·) cs d (by rw [hrest]; rfl)
        simpa using hd
      rw [hrest] at h
      have hspace : isSpace d = true := skip_eq_nil_iff.1 h d List.mem_cons_self
      exact absurd hspace (by rw [isSpace_of_isSeparator hseparator]; decide)

/-- Where the grammar is read to the end of a text, this gives its value. Elsewhere the text stands for
    itself. -/
theorem ofVariable_of_ok (h : value (2 * content.toList.length + 2) content.toList = .ok (x, rest)) :
    ofVariable content = some (if rest = [] then x else .text content) := by
  rw [ofVariable, h]
  cases rest with
  | nil => rfl
  | cons c rest => rfl

theorem ofVariable_of_mismatch
    (h : value (2 * content.toList.length + 2) content.toList = .error .mismatch) :
    ofVariable content = some (.text content) := by
  rw [ofVariable, h]

/-- A form is read as it says. -/
theorem ofVariable_of_form (h : Form (skip content.toList) x) : ofVariable content = some x := by
  generalize hbody : skip content.toList = body at h
  cases h with
  | truth hword hafter =>
      rw [ofVariable_of_ok ((value_spec _ _).truth hword hbody), if_pos (skip_eq_nil_iff.2 hafter)]
  | quoted hinner hafter =>
      have hvalue := (value_spec (2 * content.toList.length + 1) content.toList).quote hbody
      rw [string_append hinner] at hvalue
      rw [ofVariable_of_ok hvalue, if_pos (skip_eq_nil_iff.2 hafter)]
  | character hafter =>
      rw [ofVariable_of_ok ((value_spec _ _).character hbody), if_pos (skip_eq_nil_iff.2 hafter)]
  | number hbare hnumber =>
      subst hbody
      rw [ofVariable_of_ok (value_of_bare hbare), if_pos rfl, bare_of_numeral hnumber]
  | word hbare hnumber =>
      subst hbody
      rw [ofVariable_of_ok (value_of_bare hbare), if_pos rfl, bare_of_not_numeral hnumber]

/-- A text that follows no form stands for itself as it is. -/
theorem ofVariable_of_no_form (hflat : Flat content.toList)
    (hnone : ∀ x, ¬ Form (skip content.toList) x) : ofVariable content = some (.text content) := by
  -- Where a form is read, something has to follow it.
  have hfollowed : ∀ {x rest}, value (2 * content.toList.length + 2) content.toList = .ok (x, rest) →
      rest ≠ [] → ofVariable content = some (.text content) := by
    intro x rest hvalue hrest
    rw [ofVariable_of_ok hvalue, if_neg hrest]
  have hopening := opening (skip content.toList)
  generalize hbody : skip content.toList = body at hnone hopening
  cases hopening with
  | truth hword =>
      exact hfollowed ((value_spec _ _).truth hword hbody) fun hafter =>
        hnone .scalar (.truth hword (skip_eq_nil_iff.1 hafter))
  | quote rest =>
      have hescape : '\x5c' ∉ rest := by
        have hsuffix : rest <:+ content.toList :=
          (List.suffix_cons '\x22' rest).trans (hbody ▸ skip_suffix content.toList)
        exact not_mem_of_suffix (hflat.noEscape (by rw [hbody]; rfl)) hsuffix
      have hvalue := (value_spec (2 * content.toList.length + 1) content.toList).quote hbody
      rcases string_cases hescape with hread | ⟨inner, after, hinner, rfl⟩
      · rw [hread] at hvalue
        exact ofVariable_of_mismatch hvalue
      · rw [string_append hinner] at hvalue
        exact hfollowed hvalue fun hafter => hnone _ (.quoted hinner (skip_eq_nil_iff.1 hafter))
  | apostrophe rest =>
      by_cases hclosed : ∃ c after, rest = c :: '\x27' :: after
      · obtain ⟨c, after, rfl⟩ := hclosed
        exact hfollowed ((value_spec _ _).character hbody) fun hafter =>
          hnone _ (.character (skip_eq_nil_iff.1 hafter))
      · refine ofVariable_of_mismatch ((value_spec _ _).apostrophe hbody ?_)
        rintro c after rfl
        exact hclosed ⟨c, after, rfl⟩
  | list rest => exact absurd rfl (hflat.noBracket '[' (by rw [hbody]; rfl)).1
  | table rest => exact absurd rfl (hflat.noBracket '\x7b' (by rw [hbody]; rfl)).2
  | unmarked hmark =>
      subst hbody
      refine hfollowed ((value_spec _ _).unmarked hmark) fun hafter => ?_
      have hbare : Bare (skip content.toList) := hmark.bare hafter
      by_cases hnumber : Numeral (trim (skip content.toList))
      · exact hnone _ (.number hbare hnumber)
      · exact hnone _ (.word hbare hnumber)

/-- A text that opens like a bare word and goes on past its end has no form. -/
theorem Unmarked.no_form (hmark : Unmarked cs) (hseparator : ∃ c ∈ cs, isSeparator c = true) (x : Value) :
    ¬ Form cs x := by
  obtain ⟨c, hc, hseparator⟩ := hseparator
  intro h
  cases h with
  | truth hword _ => exact hmark.noTruth _ hword (List.prefix_append _ _)
  | quoted _ _ => exact absurd rfl (hmark.noQuote _ rfl).1
  | character _ => exact absurd rfl (hmark.noQuote _ rfl).2
  | number hbare _ =>
      rw [hbare.noSeparator c hc] at hseparator
      exact nomatch hseparator
  | word hbare _ =>
      rw [hbare.noSeparator c hc] at hseparator
      exact nomatch hseparator

/-! ## Lists and tables -/

/-- Opens with a bracket. -/
def Bracketed (cs : List Char) : Prop := ∃ rest, skip cs = '[' :: rest ∨ skip cs = '\x7b' :: rest

theorem exists_of_map_eq_ok {α β : Type} {part : Except Fault α} {f : α → β} {b : β}
    (h : part.map f = .ok b) : ∃ a, f a = b := by
  cases part with
  | ok a => exact ⟨a, Except.ok.inj h⟩
  | error fault => exact nomatch h

theorem value_of_bracketed (hopen : Bracketed cs) (h : value (fuel + 1) cs = .ok (x, rest)) (s : String) :
    x ≠ .text s := by
  obtain ⟨body, hbody | hbody⟩ := hopen
  · rw [(value_spec fuel cs).list hbody] at h
    obtain ⟨found, heq⟩ := exists_of_map_eq_ok h
    obtain ⟨rfl, -⟩ := Prod.mk.inj heq
    exact Value.noConfusion
  · rw [(value_spec fuel cs).table hbody] at h
    obtain ⟨found, heq⟩ := exists_of_map_eq_ok h
    obtain ⟨rfl, -⟩ := Prod.mk.inj heq
    exact Value.noConfusion

/-- A text that opens with a bracket is read as a list or a table, or stands for itself as it is. -/
theorem ofVariable_of_bracketed (hopen : Bracketed content.toList) (h : ofVariable content = some x) :
    x = .text content ∨ ∀ s, x ≠ .text s := by
  cases hread : value (2 * content.toList.length + 2) content.toList with
  | ok found =>
      obtain ⟨y, rest⟩ := found
      obtain rfl := Option.some.inj ((ofVariable_of_ok hread).symm.trans h)
      split
      · exact Or.inr (value_of_bracketed hopen hread)
      · exact Or.inl rfl
  | error fault =>
      cases fault with
      | mismatch =>
          obtain rfl := Option.some.inj ((ofVariable_of_mismatch hread).symm.trans h)
          exact Or.inl rfl
      | split =>
          rw [ofVariable, hread] at h
          exact nomatch h

/-! ## Texts without escapes -/

section Leaves

variable {α β : Type} {result : Except Fault (α × List Char)}

/-- An outcome of reading a text without escapes. What is left is the end of the text, and no count of bytes
    has ended inside a character. -/
inductive Leaves {α : Type} (cs : List Char) : Except Fault (α × List Char) → Prop
  | ok (a : α) {rest : List Char} (h : rest <:+ cs) : Leaves cs (.ok (a, rest))
  | mismatch : Leaves cs (.error .mismatch)

theorem Leaves.of_suffix (h : Leaves rest result) (hsuffix : rest <:+ cs) : Leaves cs result := by
  cases h with
  | ok a hrest => exact .ok a (hrest.trans hsuffix)
  | mismatch => exact .mismatch

theorem Leaves.bind {next : α × List Char → Except Fault (β × List Char)} (h : Leaves cs result)
    (hnext : ∀ a rest, rest <:+ cs → Leaves rest (next (a, rest))) : Leaves cs (result >>= next) := by
  cases h with
  | ok a hrest => exact (hnext a _ hrest).of_suffix hrest
  | mismatch => exact .mismatch

theorem Leaves.map {f : α × List Char → β × List Char} (h : Leaves cs result)
    (hf : ∀ a rest, (f (a, rest)).2 <:+ rest) : Leaves cs (result.map f) := by
  cases h with
  | @ok a rest hrest => exact .ok (f (a, rest)).1 ((hf a rest).trans hrest)
  | mismatch => exact .mismatch

theorem string_leaves (h : '\x5c' ∉ cs) : Leaves cs (string cs) := by
  rcases string_cases h with hread | ⟨inner, rest, hinner, rfl⟩
  · rw [hread]
    exact .mismatch
  · rw [string_append hinner]
    exact .ok _ ((List.suffix_cons '\x22' rest).trans (List.suffix_append inner _))

theorem name_leaves (h : '\x5c' ∉ cs) : Leaves cs (name cs) := by
  unfold name
  split
  · next rest =>
      have hrest : '\x5c' ∉ rest := fun hmem => h (List.mem_cons_of_mem _ hmem)
      exact (string_leaves hrest).of_suffix (List.suffix_cons _ rest)
  · split
    · exact .mismatch
    · exact .ok _ (List.dropWhile_suffix Toml.isBare)

/-- A value leaves the end of its text, if its items and members do. -/
theorem value_leaves_succ (hitems : ∀ cs, '\x5c' ∉ cs → Leaves cs (items fuel cs))
    (hmembers : ∀ cs, '\x5c' ∉ cs → Leaves cs (members fuel cs)) (h : '\x5c' ∉ cs) :
    Leaves cs (value (fuel + 1) cs) := by
  have hbodyEscape : '\x5c' ∉ skip cs := not_mem_of_suffix h (skip_suffix cs)
  refine Leaves.of_suffix ?_ (skip_suffix cs)
  have hopening := opening (skip cs)
  generalize hbody : skip cs = body at hopening hbodyEscape
  cases hopening with
  | @truth word after hword =>
      rw [(value_spec fuel cs).truth hword hbody]
      exact .ok _ ((skip_suffix after).trans (List.suffix_append word after))
  | quote rest =>
      rw [(value_spec fuel cs).quote hbody]
      have hrest := not_mem_of_suffix hbodyEscape (List.suffix_cons '\x22' rest)
      exact ((string_leaves hrest).map fun _ rest => skip_suffix rest).of_suffix (List.suffix_cons _ rest)
  | apostrophe rest =>
      by_cases hclosed : ∃ c after, rest = c :: '\x27' :: after
      · obtain ⟨c, after, rfl⟩ := hclosed
        rw [(value_spec fuel cs).character hbody]
        exact .ok _ ((skip_suffix after).trans (List.suffix_append ['\x27', c, '\x27'] after))
      · rw [(value_spec fuel cs).apostrophe hbody fun c after heq => hclosed ⟨c, after, heq⟩]
        exact .mismatch
  | list rest =>
      rw [(value_spec fuel cs).list hbody]
      have hrest := not_mem_of_suffix hbodyEscape (List.suffix_cons '[' rest)
      exact ((hitems rest hrest).map fun _ rest => skip_suffix rest).of_suffix (List.suffix_cons _ rest)
  | table rest =>
      rw [(value_spec fuel cs).table hbody]
      have hrest := not_mem_of_suffix hbodyEscape (List.suffix_cons '\x7b' rest)
      exact ((hmembers rest hrest).map fun _ rest => skip_suffix rest).of_suffix (List.suffix_cons _ rest)
  | unmarked hmark =>
      subst hbody
      rw [(value_spec fuel cs).unmarked hmark]
      exact .ok _ ((skip_suffix _).trans (List.dropWhile_suffix _))

theorem items_leaves_succ (hvalue : ∀ cs, '\x5c' ∉ cs → Leaves cs (value fuel cs))
    (hitems : ∀ cs, '\x5c' ∉ cs → Leaves cs (items fuel cs)) (h : '\x5c' ∉ cs) :
    Leaves cs (items (fuel + 1) cs) := by
  rw [items.eq_def]
  split
  · exact .mismatch
  · exact .ok [] (List.suffix_cons ']' _)
  · next heq _ =>
      obtain rfl := Nat.succ.inj heq
      refine (hvalue _ h).bind fun item rest hrest => ?_
      dsimp only
      split
      · next later =>
          have hlater : later <:+ ',' :: later := List.suffix_cons ',' later
          have hescape := not_mem_of_suffix h (hlater.trans hrest)
          exact ((hitems later hescape).map fun _ rest => List.suffix_refl rest).of_suffix hlater
      · exact .ok [item] (List.suffix_cons ']' _)
      · exact .mismatch

theorem members_leaves_succ (hvalue : ∀ cs, '\x5c' ∉ cs → Leaves cs (value fuel cs))
    (hmembers : ∀ cs, '\x5c' ∉ cs → Leaves cs (members fuel cs)) (h : '\x5c' ∉ cs) :
    Leaves cs (members (fuel + 1) cs) := by
  rw [members.eq_def]
  split
  · exact .mismatch
  · exact .ok [] (List.suffix_cons '\x7d' _)
  · next text _ _ _ heq _ =>
      obtain rfl := Nat.succ.inj heq
      have hskip := skip_suffix text
      refine Leaves.of_suffix ?_ hskip
      refine (name_leaves (not_mem_of_suffix h hskip)).bind fun name rest hrest => ?_
      dsimp only
      split
      · next afterSign hsign =>
          have hafterSign : afterSign <:+ rest :=
            (List.suffix_cons '=' afterSign).trans (hsign ▸ skip_suffix rest)
          have hescape := not_mem_of_suffix h (hafterSign.trans (hrest.trans hskip))
          refine Leaves.of_suffix ((hvalue afterSign hescape).bind fun value rest hrest => ?_) hafterSign
          dsimp only
          split
          · next later =>
              have hlater : later <:+ ',' :: later := List.suffix_cons ',' later
              have hescape := not_mem_of_suffix hescape (hlater.trans hrest)
              exact ((hmembers later hescape).map fun _ rest => List.suffix_refl rest).of_suffix hlater
          · exact .ok [(name, value)] (List.suffix_cons '\x7d' _)
          · exact .mismatch
      · exact .mismatch

/-- The whole grammar, by induction on the fuel, which every part hands on less of to the parts it is made
    of. -/
theorem grammar_leaves (fuel : Nat) :
    (∀ cs, '\x5c' ∉ cs → Leaves cs (value fuel cs)) ∧ (∀ cs, '\x5c' ∉ cs → Leaves cs (items fuel cs))
      ∧ ∀ cs, '\x5c' ∉ cs → Leaves cs (members fuel cs) := by
  induction fuel with
  | zero =>
      refine ⟨fun cs _ => ?_, fun cs _ => ?_, fun cs _ => ?_⟩
      · rw [value]
        exact .mismatch
      · rw [items]
        exact .mismatch
      · rw [members]
        exact .mismatch
  | succ fuel ih =>
      obtain ⟨hvalue, hitems, hmembers⟩ := ih
      exact ⟨fun cs => value_leaves_succ hitems hmembers, fun cs => items_leaves_succ hvalue hitems,
        fun cs => members_leaves_succ hvalue hmembers⟩

end Leaves

/-- A text without escapes always has a value. -/
theorem exists_ofVariable_of_not_mem (h : '\x5c' ∉ content.toList) : ∃ x, ofVariable content = some x := by
  have hleaves := (grammar_leaves (2 * content.toList.length + 2)).1 content.toList h
  generalize hread : value (2 * content.toList.length + 2) content.toList = result at hleaves
  cases hleaves with
  | ok x hrest => exact ⟨_, ofVariable_of_ok hread⟩
  | mismatch => exact ⟨_, ofVariable_of_mismatch hread⟩

/-! ## Texts that stand for themselves -/

/-- A word that is no number, with no blanks around it. -/
structure Plain (cs : List Char) : Prop where
  bare : Bare cs
  trimmed : Trimmed cs
  noNumeral : ¬ Numeral cs

theorem isBlank_of_isSpace (h : isSpace c = true) : isBlank c = true := by
  simp only [isSpace, Bool.or_eq_true, beq_iff_eq] at h
  rcases h with (((rfl | rfl) | rfl) | rfl) | rfl
  all_goals decide

theorem skip_of_trimmed (h : Trimmed cs) : skip cs = cs := by
  have hends : Ends isSpace cs := by
    intro c hc
    cases hspace : isSpace c with
    | false => rfl
    | true =>
        have hblank := h.1 c hc
        rw [isBlank_of_isSpace hspace] at hblank
        exact nomatch hblank
  have hnone : ∀ c ∈ ([] : List Char), isSpace c = true := List.forall_mem_nil _
  exact dropWhile_append_of_ends hnone hends

theorem ofVariable_of_plain (h : Plain content.toList) : ofVariable content = some (.text content) := by
  have hform : Form content.toList (.text (String.ofList (trim content.toList))) := by
    refine .word h.bare ?_
    rw [h.trimmed.trim_eq]
    exact h.noNumeral
  rw [h.trimmed.trim_eq, String.ofList_toList] at hform
  refine ofVariable_of_form ?_
  rw [skip_of_trimmed h.trimmed]
  exact hform

end BenchLog.Config.Override
