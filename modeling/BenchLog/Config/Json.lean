import BenchLog.Config.Number
import BenchLog.Config.Value
import BenchLog.Decimal.Real

/-!
# `BenchLog.Config.Json` — settings in JSON

Reads one JSON text and nothing after it. Lists and objects nest at most 127 deep; of members with one
name the last counts.

## Contents
- `string?`, `number?`, the leaves;
- `value?`, `items?`, `members?`, the values;
- `Json.read?`, a whole text.
-/

namespace BenchLog.Config.Json

/-- Without the spaces at the front. -/
def skip (cs : List Char) : List Char :=
  cs.dropWhile fun c => c == ' ' || c == '\n' || c == '\t' || c == '\r'

/-- What follows the characters of `word`. -/
def literal? (word : List Char) (cs : List Char) : Option (List Char) := word.isPrefixOf? cs

/-! ## Strings -/

/-- The character that a short escape stands for. -/
def shortEscape? (c : Char) : Option Char :=
  if c = '\x22' ∨ c = '\x5c' ∨ c = '/' then some c
  else if c = 'b' then some '\x08'
  else if c = 'f' then some '\x0c'
  else if c = 'n' then some '\n'
  else if c = 'r' then some '\r'
  else if c = 't' then some '\t'
  else none

/-- The character of a pair of surrogates. -/
def ofPair? (high low : Nat) : Option Char :=
  if 0xdc00 ≤ low ∧ low < 0xe000 then charOf? (0x10000 + (high - 0xd800) * 0x400 + (low - 0xdc00))
  else none

/-- A string after its opening quote, with what follows its closing one; `reversed` is the string so far,
last character first. -/
def string? (reversed : List Char) : List Char → Option (String × List Char)
  | [] => none
  | '\x22' :: cs => some (String.ofList reversed.reverse, cs)
  | '\x5c' :: 'u' :: a :: b :: c :: d :: cs =>
    match hexNumber? [a, b, c, d] with
    | none => none
    | some n =>
      if 0xd800 ≤ n ∧ n < 0xdc00 then
        match cs with
        | '\x5c' :: 'u' :: a :: b :: c :: d :: cs =>
          match (hexNumber? [a, b, c, d]).bind (ofPair? n) with
          | none => none
          | some c => string? (c :: reversed) cs
        | _ => none
      else
        match charOf? n with
        | none => none
        | some c => string? (c :: reversed) cs
  | '\x5c' :: c :: cs =>
    match shortEscape? c with
    | none => none
    | some c => string? (c :: reversed) cs
  | c :: cs => if c.toNat < 0x20 then none else string? (c :: reversed) cs

/-! ## Numbers -/

/-- A run of digits, of which there is at least one. -/
def digits? (cs : List Char) : Option (List Char × List Char) :=
  match cs.takeWhile Char.isDigit with
  | [] => none
  | digits => some (digits, cs.dropWhile Char.isDigit)

/-- The exponent of a number, zero where none is written. -/
def exponent? (cs : List Char) : Option (Int × List Char) :=
  match cs with
  | c :: rest =>
    if c = 'e' ∨ c = 'E' then
      match rest with
      | '-' :: rest => (digits? rest).map fun (digits, rest) => (-(Decimal.valueOf digits : Int), rest)
      | '+' :: rest => (digits? rest).map fun (digits, rest) => ((Decimal.valueOf digits : Int), rest)
      | rest => (digits? rest).map fun (digits, rest) => ((Decimal.valueOf digits : Int), rest)
    else some (0, cs)
  | [] => some (0, [])

/-- What follows a number that is in range. -/
def number? (cs : List Char) : Option (List Char) := do
  let cs := match cs with
    | '-' :: rest => rest
    | _ => cs
  let (whole, cs) ← match cs with
    | '0' :: rest => some (['0'], rest)
    | _ => digits? cs
  let (places, cs) ← match cs with
    | '.' :: rest => digits? rest
    | _ => some ([], cs)
  let (exponent, cs) ← exponent? cs
  if exceedsRange (Decimal.valueOf (whole ++ places)) (exponent - places.length) then none
  else some cs

/-! ## Values -/

mutual

/-- A value, with what follows it. -/
def value? : Nat → Nat → List Char → Option (Value × List Char)
  | 0, _, _ => none
  | fuel + 1, depth, cs =>
    match cs with
    | '\x22' :: cs => (string? [] cs).map fun (s, cs) => (.text s, cs)
    | '[' :: cs =>
      if depth = 0 then none
      else
        match skip cs with
        | ']' :: cs => some (.list false [], cs)
        | cs => (items? fuel (depth - 1) cs).map fun (items, cs) => (.list false items, cs)
    | '\x7b' :: cs =>
      if depth = 0 then none
      else
        match skip cs with
        | '\x7d' :: cs => some (.table .closed [], cs)
        | cs => (members? fuel (depth - 1) cs).map fun (entries, cs) => (.table .closed entries, cs)
    | 'n' :: cs => (literal? ['u', 'l', 'l'] cs).map fun cs => (.null, cs)
    | 't' :: cs => (literal? ['r', 'u', 'e'] cs).map fun cs => (.scalar, cs)
    | 'f' :: cs => (literal? ['a', 'l', 's', 'e'] cs).map fun cs => (.scalar, cs)
    | cs => (number? cs).map fun cs => (.scalar, cs)

/-- The items of a list up to its closing bracket. -/
def items? : Nat → Nat → List Char → Option (List Value × List Char)
  | 0, _, _ => none
  | fuel + 1, depth, cs =>
    match value? fuel depth (skip cs) with
    | none => none
    | some (item, cs) =>
      match skip cs with
      | ',' :: cs => (items? fuel depth cs).map fun (items, cs) => (item :: items, cs)
      | ']' :: cs => some ([item], cs)
      | _ => none

/-- The members of an object up to its closing brace. -/
def members? : Nat → Nat → List Char → Option (List (String × Value) × List Char)
  | 0, _, _ => none
  | fuel + 1, depth, cs =>
    match skip cs with
    | '\x22' :: cs =>
      match string? [] cs with
      | none => none
      | some (name, cs) =>
        match skip cs with
        | ':' :: cs =>
          match value? fuel depth (skip cs) with
          | none => none
          | some (value, cs) =>
            match skip cs with
            | ',' :: cs =>
              (members? fuel depth cs).map fun (entries, cs) => ((name, value) :: entries, cs)
            | '\x7d' :: cs => some ([(name, value)], cs)
            | _ => none
        | _ => none
    | _ => none

end

/-- How deep lists and objects may nest. -/
def maxDepth : Nat := 127

/-- Reads a JSON text. No step leaves the text as it is more than once in a row, so twice its length is
fuel enough. -/
def read? (cs : List Char) : Option Value :=
  match value? (2 * cs.length + 2) maxDepth (skip cs) with
  | some (value, rest) => if (skip rest).isEmpty then some value else none
  | none => none

end BenchLog.Config.Json
