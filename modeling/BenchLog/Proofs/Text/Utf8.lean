import BenchLog.Text.Utf8

/-!
# `BenchLog.Proofs.Text.Utf8` — damaged bytes and the text around them

The decoder never fails, whatever the bytes. Two things can still be said of it. A newline byte continues no
character, so it always ends what is pending and stands for itself; what comes behind it is decoded as if
nothing had come before. And no other bytes make a newline: every pending character takes more than one byte,
and its value will be that of such a character. So the newlines of the text are those of the bytes
(`decode_append_newline`, `count_newline_decode`). Bytes that do write a text are decoded to that text
(`decode_toUTF8`).

What a byte at the start of a character may be is said once, in `Begins`, and everything else is read off it.

## Contents
- `read`, what bytes make of what is pending, and `decode_eq`;
- `Begins` and `begin_begins`, `advance_within`, `advance_outside`: one byte;
- `Pending.Long`, kept by `long_advance`;
- `advance_newline`, `newline_not_mem_advance`, `decode_append_newline`, `count_newline_decode`;
- `Leads`, a lead byte with the byte behind it; `read_utf8EncodeChar`, `decode_toUTF8`.
-/

namespace BenchLog.Text.Utf8

variable {b b₁ b₂ b₃ b₄ : UInt8} {p : Pending} {v : Nat}

/-! ## A run over bytes -/

/-- What is pending after some bytes, and the characters that they complete. -/
def read (pending : Option Pending) : List UInt8 → Option Pending × List Char
  | [] => (pending, [])
  | b :: bytes =>
    let next := advance pending b
    let rest := read next.1 bytes
    (rest.1, next.2 ++ rest.2)

/-- What stands for a character that was read in part. -/
def leftover : Option Pending → List Char
  | none => []
  | some _ => [replacement]

theorem read_append (pending : Option Pending) (xs ys : List UInt8) :
    read pending (xs ++ ys)
      = ((read (read pending xs).1 ys).1, (read pending xs).2 ++ (read (read pending xs).1 ys).2) := by
  induction xs generalizing pending with
  | nil => rfl
  | cons b xs ih =>
      show ((read (advance pending b).1 (xs ++ ys)).1, _ ++ (read (advance pending b).1 (xs ++ ys)).2) = _
      rw [ih, ← List.append_assoc]
      rfl

theorem foldl_push (d : Decoder) (bytes : List UInt8) :
    bytes.foldl Decoder.push d
      = ⟨(read d.pending bytes).1, (read d.pending bytes).2.reverse ++ d.reversed⟩ := by
  induction bytes generalizing d with
  | nil => rfl
  | cons b bytes ih =>
      rw [List.foldl_cons, ih]
      simp only [Decoder.push, read, List.reverse_append, List.append_assoc]

/-- A byte list is decoded to what it completes and to what stands for the rest. -/
theorem decode_eq (bytes : List UInt8) :
    decode bytes = (read none bytes).2 ++ leftover (read none bytes).1 := by
  rw [decode, foldl_push]
  unfold Decoder.finish leftover
  dsimp only
  cases (read none bytes).1 <;> simp

/-! ## One byte -/

/-- What a byte may be at the start of a character, and what comes of it. -/
inductive Begins (b : UInt8) : Option Pending × List Char → Prop
  | whole (h : b.toNat < 0x80) : Begins b (none, [Char.ofNat b.toNat])
  | lead₂ (h : 0xc2 ≤ b.toNat) (h' : b.toNat < 0xe0) :
      Begins b (some ⟨b.toNat - 0xc0, 1, 0x80, 0xbf⟩, [])
  | least₃ (h : b.toNat = 0xe0) : Begins b (some ⟨0, 2, 0xa0, 0xbf⟩, [])
  | surrogate₃ (h : b.toNat = 0xed) : Begins b (some ⟨0xd, 2, 0x80, 0x9f⟩, [])
  | lead₃ (h : 0xe0 < b.toNat) (h' : b.toNat < 0xf0) (hs : b.toNat ≠ 0xed) :
      Begins b (some ⟨b.toNat - 0xe0, 2, 0x80, 0xbf⟩, [])
  | least₄ (h : b.toNat = 0xf0) : Begins b (some ⟨0, 3, 0x90, 0xbf⟩, [])
  | lead₄ (h : 0xf0 < b.toNat) (h' : b.toNat < 0xf4) :
      Begins b (some ⟨b.toNat - 0xf0, 3, 0x80, 0xbf⟩, [])
  | greatest₄ (h : b.toNat = 0xf4) : Begins b (some ⟨4, 3, 0x80, 0x8f⟩, [])
  | neither (h : 0x80 ≤ b.toNat) (h' : b.toNat < 0xc2 ∨ 0xf4 < b.toNat) : Begins b (none, [replacement])

theorem begin_begins (b : UInt8) : Begins b (begin b) := by
  have hlt (n : UInt8) : b < n ↔ b.toNat < n.toNat := UInt8.lt_iff_toNat_lt
  have heq (n : UInt8) : b = n ↔ b.toNat = n.toNat := UInt8.toNat_inj.symm
  unfold begin
  simp only [hlt, heq, UInt8.reduceToNat]
  split
  · exact .whole ‹_›
  split
  · exact .neither (by omega) (by omega)
  split
  · exact .lead₂ (by omega) ‹_›
  split
  · exact .least₃ ‹_›
  split
  · exact .surrogate₃ ‹_›
  split
  · exact .lead₃ (by omega) ‹_› ‹_›
  split
  · exact .least₄ ‹_›
  split
  · exact .lead₄ (by omega) ‹_›
  split
  · exact .greatest₄ ‹_›
  · exact .neither (by omega) (by omega)

/-- A byte within the bounds goes on with the character. -/
theorem advance_within (hlow : p.low.toNat ≤ b.toNat) (hhigh : b.toNat ≤ p.high.toNat) :
    advance (some p) b
      = if p.missing ≤ 1 then (none, [Char.ofNat (p.value * 64 + (b.toNat - 0x80))])
        else (some ⟨p.value * 64 + (b.toNat - 0x80), p.missing - 1, 0x80, 0xbf⟩, []) := by
  rw [advance, if_pos ⟨UInt8.le_iff_toNat_le.2 hlow, UInt8.le_iff_toNat_le.2 hhigh⟩]

/-- Any other byte ends it and starts afresh. -/
theorem advance_outside (h : b.toNat < p.low.toNat ∨ p.high.toNat < b.toNat) :
    advance (some p) b = ((begin b).1, replacement :: (begin b).2) := by
  rw [advance, if_neg]
  rintro ⟨hlow, hhigh⟩
  have := UInt8.le_iff_toNat_le.1 hlow
  have := UInt8.le_iff_toNat_le.1 hhigh
  omega

/-! ## What may be pending -/

/-- A character that takes more than one byte: no ASCII byte goes on with it, and its value will be no ASCII
    one. -/
structure Pending.Long (p : Pending) : Prop where
  low_le : 0x80 ≤ p.low.toNat
  value_le : 2 ≤ p.value * 64 + (p.low.toNat - 0x80)
  last_le : p.missing ≤ 1 → 2 ≤ p.value

theorem long_begin (h : (begin b).1 = some p) : p.Long := by
  have hbegins := begin_begins b
  generalize begin b = x at h hbegins
  cases hbegins with
  | whole _ | neither _ _ => exact nomatch h
  | lead₂ hlow _ =>
      obtain rfl := Option.some.inj h
      exact ⟨Nat.le_refl 0x80, by dsimp only; omega, fun _ => by dsimp only; omega⟩
  | least₃ _ | surrogate₃ _ | least₄ _ | greatest₄ _ =>
      obtain rfl := Option.some.inj h
      exact ⟨by decide, by decide, by decide⟩
  | lead₃ hlow _ _ | lead₄ hlow _ =>
      obtain rfl := Option.some.inj h
      exact ⟨Nat.le_refl 0x80, by dsimp only; omega, fun hlast => by dsimp only at hlast; omega⟩

/-- What is pending takes more than one byte, before and after any byte. -/
theorem long_advance {pending : Option Pending} (hlong : ∀ q, pending = some q → q.Long)
    (h : (advance pending b).1 = some p) : p.Long := by
  cases pending with
  | none => exact long_begin h
  | some q =>
      obtain ⟨_, hvalue, _⟩ := hlong q rfl
      by_cases hwithin : q.low.toNat ≤ b.toNat ∧ b.toNat ≤ q.high.toNat
      · -- The value is at least the one that the least byte within the bounds would give, which is long enough.
        rw [advance_within hwithin.1 hwithin.2] at h
        split at h
        · exact nomatch h
        · obtain rfl := Option.some.inj h
          exact ⟨Nat.le_refl 0x80, by dsimp only; omega, fun _ => by dsimp only; omega⟩
      · rw [advance_outside (by omega)] at h
        exact long_begin h

theorem long_read {pending : Option Pending} (hlong : ∀ q, pending = some q → q.Long)
    (bytes : List UInt8) : ∀ q, (read pending bytes).1 = some q → q.Long := by
  induction bytes generalizing pending with
  | nil => exact hlong
  | cons b bytes ih => exact ih fun q hq => long_advance hlong hq

/-! ## Newlines -/

theorem ofNat_ne_newline {n : Nat} (h : n ≠ 0x0a) : Char.ofNat n ≠ '\n' := by
  intro heq
  unfold Char.ofNat at heq
  by_cases hvalid : n.isValidChar
  · rw [dif_pos hvalid] at heq
    exact h (congrArg Char.toNat heq)
  · rw [dif_neg hvalid] at heq
    exact absurd heq (by decide)

/-- A newline byte ends what is pending and stands for itself. -/
theorem advance_newline {pending : Option Pending} (hlong : ∀ q, pending = some q → q.Long) :
    advance pending 0x0a = (none, leftover pending ++ ['\n']) := by
  cases pending with
  | none => rfl
  | some q =>
      have hlow : (0x0a : UInt8).toNat < q.low.toNat := Nat.lt_of_lt_of_le (by decide) (hlong q rfl).low_le
      rw [advance_outside (Or.inl hlow)]
      rfl

theorem newline_not_mem_begin (hb : b ≠ 0x0a) : '\n' ∉ (begin b).2 := by
  have hbegins := begin_begins b
  generalize begin b = x at hbegins
  cases hbegins with
  | whole _ =>
      have hne : b.toNat ≠ 0x0a := fun h => hb (UInt8.toNat_inj.1 h)
      rw [List.mem_singleton]
      exact Ne.symm (ofNat_ne_newline hne)
  | neither _ _ => decide
  | _ => exact List.not_mem_nil

/-- No other byte makes a newline. -/
theorem newline_not_mem_advance {pending : Option Pending} (hlong : ∀ q, pending = some q → q.Long)
    (hb : b ≠ 0x0a) : '\n' ∉ (advance pending b).2 := by
  cases pending with
  | none => exact newline_not_mem_begin hb
  | some q =>
      by_cases hwithin : q.low.toNat ≤ b.toNat ∧ b.toNat ≤ q.high.toNat
      · rw [advance_within hwithin.1 hwithin.2]
        split
        · next hlast =>
            have := (hlong q rfl).last_le hlast
            rw [List.mem_singleton]
            exact Ne.symm (ofNat_ne_newline (by omega))
        · exact List.not_mem_nil
      · rw [advance_outside (by omega), List.mem_cons, not_or]
        exact ⟨by decide, newline_not_mem_begin hb⟩

theorem newline_not_mem_leftover : ∀ pending : Option Pending, '\n' ∉ leftover pending
  | none => List.not_mem_nil
  | some _ => by rw [leftover]; decide

/-- Nothing is pending at the start. -/
theorem long_none : ∀ q : Pending, none = some q → q.Long := fun _ h => by cases h

/-- **A newline byte cuts the text in two**: what is before it and what is behind it are decoded each on its
    own. -/
theorem decode_append_newline (x y : List UInt8) :
    decode (x ++ 0x0a :: y) = decode x ++ '\n' :: decode y := by
  have hcut : read (read none x).1 (0x0a :: y)
      = ((read none y).1, leftover (read none x).1 ++ ['\n'] ++ (read none y).2) := by
    rw [read, advance_newline (long_read long_none x)]
  rw [decode_eq, decode_eq, decode_eq, read_append, hcut]
  simp only [List.append_assoc, List.cons_append, List.nil_append]

/-- A newline also cuts off a character that is not complete. -/
example : decode [0xe2, 0x82, 0x0a] = [replacement, '\n'] := by decide

theorem count_newline_read {pending : Option Pending} (hlong : ∀ q, pending = some q → q.Long)
    (bytes : List UInt8) : (read pending bytes).2.count '\n' = bytes.count 0x0a := by
  induction bytes generalizing pending with
  | nil => rfl
  | cons b bytes ih =>
      have hrest : (read (advance pending b).1 bytes).2.count '\n' = bytes.count 0x0a :=
        ih fun q hq => long_advance hlong hq
      rw [read, List.count_append, hrest, List.count_cons, Nat.add_comm]
      congr 1
      by_cases hb : b = 0x0a
      · rw [hb, advance_newline hlong, List.count_append,
          List.count_eq_zero.2 (newline_not_mem_leftover pending)]
        rfl
      · rw [List.count_eq_zero.2 (newline_not_mem_advance hlong hb), if_neg (by simpa using hb)]

/-- The newlines of the text are those of the bytes. -/
theorem count_newline_decode (bytes : List UInt8) : (decode bytes).count '\n' = bytes.count 0x0a := by
  rw [decode_eq, List.count_append, List.count_eq_zero.2 (newline_not_mem_leftover _),
    count_newline_read long_none, Nat.add_zero]

/-! ## Bytes that write a text -/

/-- A byte of a character with `missing + 1` more behind it. -/
theorem read_more {missing : Nat} (hlow : 0x80 ≤ b.toNat) (hhigh : b.toNat ≤ 0xbf) (bytes : List UInt8) :
    read (some ⟨v, missing + 2, 0x80, 0xbf⟩) (b :: bytes)
      = read (some ⟨v * 64 + (b.toNat - 0x80), missing + 1, 0x80, 0xbf⟩) bytes := by
  rw [read, advance_within (p := ⟨v, missing + 2, 0x80, 0xbf⟩) hlow hhigh,
    if_neg (Nat.not_le_of_lt (Nat.le_add_left 2 missing))]
  rfl

/-- The last byte of a character. -/
theorem read_last (hlow : 0x80 ≤ b.toNat) (hhigh : b.toNat ≤ 0xbf) :
    read (some ⟨v, 1, 0x80, 0xbf⟩) [b] = (none, [Char.ofNat (v * 64 + (b.toNat - 0x80))]) := by
  rw [read, advance_within (p := ⟨v, 1, 0x80, 0xbf⟩) hlow hhigh, if_pos (Nat.le_refl 1)]
  rfl

/-- `b` leads a character of `missing` more bytes with the leading bits `v`, and `b₂` may be the next byte. -/
def Leads (b b₂ : UInt8) (v missing : Nat) : Prop :=
  ∃ p, begin b = (some p, []) ∧ p.value = v ∧ p.missing = missing
    ∧ p.low.toNat ≤ b₂.toNat ∧ b₂.toNat ≤ p.high.toNat

theorem begin_whole (h : b.toNat < 0x80) : begin b = (none, [Char.ofNat b.toNat]) := by
  rw [begin, if_pos (UInt8.lt_iff_toNat_lt.2 h)]

theorem leads_two (h : 0xc2 ≤ b.toNat) (h' : b.toNat < 0xe0) (hlow : 0x80 ≤ b₂.toNat)
    (hhigh : b₂.toNat ≤ 0xbf) : Leads b b₂ (b.toNat - 0xc0) 1 := by
  have hbegins := begin_begins b
  unfold Leads
  generalize begin b = x at hbegins
  cases hbegins with
  | lead₂ _ _ => exact ⟨_, rfl, rfl, rfl, hlow, hhigh⟩
  | _ => omega

theorem leads_three (h : 0xe0 ≤ b.toNat) (h' : b.toNat < 0xf0) (hlow : 0x80 ≤ b₂.toNat)
    (hhigh : b₂.toNat ≤ 0xbf) (hleast : b.toNat = 0xe0 → 0xa0 ≤ b₂.toNat)
    (hsurrogate : b.toNat = 0xed → b₂.toNat ≤ 0x9f) : Leads b b₂ (b.toNat - 0xe0) 2 := by
  have hbegins := begin_begins b
  unfold Leads
  generalize begin b = x at hbegins
  cases hbegins with
  | least₃ heq => exact ⟨_, rfl, by rw [heq], rfl, hleast heq, hhigh⟩
  | surrogate₃ heq => exact ⟨_, rfl, by rw [heq], rfl, hlow, hsurrogate heq⟩
  | lead₃ _ _ _ => exact ⟨_, rfl, rfl, rfl, hlow, hhigh⟩
  | _ => omega

theorem leads_four (h : 0xf0 ≤ b.toNat) (h' : b.toNat ≤ 0xf4) (hlow : 0x80 ≤ b₂.toNat)
    (hhigh : b₂.toNat ≤ 0xbf) (hleast : b.toNat = 0xf0 → 0x90 ≤ b₂.toNat)
    (hgreatest : b.toNat = 0xf4 → b₂.toNat ≤ 0x8f) : Leads b b₂ (b.toNat - 0xf0) 3 := by
  have hbegins := begin_begins b
  unfold Leads
  generalize begin b = x at hbegins
  cases hbegins with
  | least₄ heq => exact ⟨_, rfl, by rw [heq], rfl, hleast heq, hhigh⟩
  | lead₄ _ _ => exact ⟨_, rfl, rfl, rfl, hlow, hhigh⟩
  | greatest₄ heq => exact ⟨_, rfl, by rw [heq], rfl, hlow, hgreatest heq⟩
  | _ => omega

theorem read_leads {missing : Nat} (h : Leads b b₂ v (missing + 2)) (bytes : List UInt8) :
    read none (b :: b₂ :: bytes)
      = read (some ⟨v * 64 + (b₂.toNat - 0x80), missing + 1, 0x80, 0xbf⟩) bytes := by
  obtain ⟨p, hbegin, rfl, hmissing, hlow, hhigh⟩ := h
  rw [read, advance, hbegin, read, advance_within hlow hhigh, hmissing,
    if_neg (Nat.not_le_of_lt (Nat.le_add_left 2 missing))]
  rfl

theorem read_leads_last (h : Leads b b₂ v 1) :
    read none [b, b₂] = (none, [Char.ofNat (v * 64 + (b₂.toNat - 0x80))]) := by
  obtain ⟨p, hbegin, rfl, hmissing, hlow, hhigh⟩ := h
  rw [read, advance, hbegin, read, advance_within hlow hhigh, if_pos (Nat.le_of_eq hmissing)]
  rfl

/-- The bytes of a character are read as that character. -/
theorem read_utf8EncodeChar (c : Char) : read none (String.utf8EncodeChar c) = (none, [c]) := by
  have hvalid : c.toNat < 0xd800 ∨ 0xdfff < c.toNat ∧ c.toNat < 0x110000 := c.valid
  -- every byte is a small number plus the bits of its kind
  have hbyte (n : Nat) (h : n < 256) : (UInt8.ofNat n).toNat = n := UInt8.toNat_ofNat_of_lt h
  have hchar (n : Nat) (h : n = c.toNat) : Char.ofNat n = c := h ▸ c.ofNat_toNat
  unfold String.utf8EncodeChar
  rw [Char.toNat_val]
  generalize c.toNat = v at hvalid hchar
  -- That the second byte is within its bounds follows from `hvalid` and from how many bytes are needed.
  dsimp only
  split
  · have h₁ := hbyte v (by omega)
    rw [read, advance, begin_whole (by omega)]
    exact congrArg (fun c => (none, [c])) (hchar _ h₁)
  split
  · have h₁ := hbyte (v / 64 % 32 + 192) (by omega)
    have h₂ := hbyte (v % 64 + 128) (by omega)
    rw [read_leads_last (leads_two (by omega) (by omega) (by omega) (by omega)), hchar _ (by omega)]
  split
  · have h₁ := hbyte (v / 4096 % 16 + 224) (by omega)
    have h₂ := hbyte (v / 64 % 64 + 128) (by omega)
    have h₃ := hbyte (v % 64 + 128) (by omega)
    rw [read_leads (leads_three (by omega) (by omega) (by omega) (by omega) (by omega) (by omega)),
      read_last (by omega) (by omega), hchar _ (by omega)]
  · have h₁ := hbyte (v / 262144 % 8 + 240) (by omega)
    have h₂ := hbyte (v / 4096 % 64 + 128) (by omega)
    have h₃ := hbyte (v / 64 % 64 + 128) (by omega)
    have h₄ := hbyte (v % 64 + 128) (by omega)
    rw [read_leads (leads_four (by omega) (by omega) (by omega) (by omega) (by omega) (by omega)),
      read_more (by omega) (by omega), read_last (by omega) (by omega), hchar _ (by omega)]

theorem read_flatMap_utf8EncodeChar (cs : List Char) :
    read none (cs.flatMap String.utf8EncodeChar) = (none, cs) := by
  induction cs with
  | nil => rfl
  | cons c cs ih => rw [List.flatMap_cons, read_append, read_utf8EncodeChar, ih]; rfl

/-! ## The bytes of a string -/

theorem toList_loop_eq (bytes : ByteArray) (i : Nat) (r : List UInt8) :
    ByteArray.toList.loop bytes i r = r.reverse ++ bytes.data.toList.drop i := by
  fun_induction ByteArray.toList.loop bytes i r with
  | case1 i r hlt ih =>
      have hget : bytes.get! i = bytes.data.toList.get ⟨i, hlt⟩ := getElem!_pos bytes.data i hlt
      rw [ih, List.reverse_cons, hget, List.append_assoc, List.singleton_append, List.get_eq_getElem,
        List.getElem_cons_drop]
  | case2 i r hge => rw [List.drop_eq_nil_of_le (Nat.le_of_not_lt hge), List.append_nil]

theorem toList_eq (bytes : ByteArray) : bytes.toList = bytes.data.toList := toList_loop_eq bytes 0 []

theorem toList_toUTF8 (s : String) : s.toUTF8.toList = s.toList.flatMap String.utf8EncodeChar := by
  rw [toList_eq, String.toUTF8_eq_toByteArray, ← String.utf8Encode_toList, List.utf8Encode,
    List.toList_data_toByteArray]

/-- **The bytes of a string are decoded to that string.** -/
theorem decode_toUTF8 (s : String) : decode s.toUTF8.toList = s.toList := by
  rw [decode_eq, toList_toUTF8, read_flatMap_utf8EncodeChar]
  exact List.append_nil _

end BenchLog.Text.Utf8
