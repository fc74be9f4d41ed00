/-!
# `BenchLog.Text.Utf8` — text from bytes that may be damaged

UTF-8 decoding that never fails. A character is a lead byte and the continuation bytes it asks for; the
first continuation byte has a range of its own after some leads, which rules out overlong forms,
surrogates and numbers past the last code point. Where the next byte does not continue the character,
what was read of it becomes one replacement character and that byte starts afresh.

## Contents
- `Pending`, a character read in part; `begin`, `advance`, one byte in either situation;
- `Decoder` and `Decoder.push`, the state of a run; `decode`, a whole byte list.
-/

namespace BenchLog.Text.Utf8

/-- Stands for bytes that are no character. -/
def replacement : Char := '\ufffd'

/-- A character of which the last `missing` bytes are still to come, the next one from `low` to `high`. -/
structure Pending where
  value : Nat
  missing : Nat
  low : UInt8
  high : UInt8
deriving DecidableEq, Repr

/-- A byte at the start of a character: a whole character, the lead of a longer one, or neither. -/
def begin (b : UInt8) : Option Pending × List Char :=
  if b < 0x80 then (none, [Char.ofNat b.toNat])
  else if b < 0xc2 then (none, [replacement])
  else if b < 0xe0 then (some ⟨b.toNat - 0xc0, 1, 0x80, 0xbf⟩, [])
  else if b = 0xe0 then (some ⟨0, 2, 0xa0, 0xbf⟩, [])
  else if b = 0xed then (some ⟨0xd, 2, 0x80, 0x9f⟩, [])
  else if b < 0xf0 then (some ⟨b.toNat - 0xe0, 2, 0x80, 0xbf⟩, [])
  else if b = 0xf0 then (some ⟨0, 3, 0x90, 0xbf⟩, [])
  else if b < 0xf4 then (some ⟨b.toNat - 0xf0, 3, 0x80, 0xbf⟩, [])
  else if b = 0xf4 then (some ⟨4, 3, 0x80, 0x8f⟩, [])
  else (none, [replacement])

/-- One byte: what is pending after it and the characters it completes. -/
def advance : Option Pending → UInt8 → Option Pending × List Char
  | none, b => begin b
  | some p, b =>
    if p.low ≤ b ∧ b ≤ p.high then
      let value := p.value * 64 + (b.toNat - 0x80)
      if p.missing ≤ 1 then (none, [Char.ofNat value])
      else (some ⟨value, p.missing - 1, 0x80, 0xbf⟩, [])
    else
      let (pending, out) := begin b
      (pending, replacement :: out)

/-- The state of a run: what is pending, and the characters so far, last first. -/
structure Decoder where
  pending : Option Pending := none
  reversed : List Char := []

/-- Reads one byte. -/
def Decoder.push (d : Decoder) (b : UInt8) : Decoder :=
  let (pending, out) := advance d.pending b
  { pending, reversed := out.reverse ++ d.reversed }

/-- Ends the text: a character read in part is damaged too. -/
def Decoder.finish (d : Decoder) : List Char :=
  match d.pending with
  | none => d.reversed.reverse
  | some _ => (replacement :: d.reversed).reverse

/-- The text of a byte list. -/
def decode (bytes : List UInt8) : List Char :=
  (bytes.foldl Decoder.push {}).finish

end BenchLog.Text.Utf8
