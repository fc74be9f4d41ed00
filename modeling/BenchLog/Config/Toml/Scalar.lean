import BenchLog.Config.Number
import BenchLog.Decimal.Real

/-!
# `BenchLog.Config.Toml.Scalar` — numbers, dates and times in TOML

No setting takes one of these, so they are recognised and passed over: each reader gives what follows.

## Contents
- `number?`, integers in four bases and floating-point numbers;
- `moment?`, dates and times;
- `scalar?`, any of them.
-/

namespace BenchLog.Config.Toml

/-! ## Numbers -/

/-- Digits that continue a number. An underscore may stand between two of them. -/
def moreDigits (isDigit : Char → Bool) : List Char → List Char × List Char
  | [] => ([], [])
  | '_' :: c :: cs =>
    if isDigit c then
      let (digits, rest) := moreDigits isDigit cs
      (c :: digits, rest)
    else ([], '_' :: c :: cs)
  | c :: cs =>
    if isDigit c then
      let (digits, rest) := moreDigits isDigit cs
      (c :: digits, rest)
    else ([], c :: cs)

/-- Digits, of which there is at least one. -/
def digits? (isDigit : Char → Bool) : List Char → Option (List Char × List Char)
  | [] => none
  | c :: cs =>
    if isDigit c then
      let (digits, rest) := moreDigits isDigit cs
      some (c :: digits, rest)
    else none

/-- Whether a number is written with a minus sign, and what follows its sign. -/
def dropSign (cs : List Char) : Bool × List Char :=
  match cs with
  | '-' :: rest => (true, rest)
  | '+' :: rest => (false, rest)
  | _ => (false, cs)

/-- The digits of a whole number in base ten, which start with no idle zero. -/
def wholeDigits? : List Char → Option (List Char × List Char)
  | '0' :: cs => some (['0'], cs)
  | cs => digits? Char.isDigit cs

/-- The exponent of a floating-point number. -/
def exponent? : List Char → Option (Int × List Char)
  | c :: cs =>
    if c = 'e' ∨ c = 'E' then
      let (negative, cs) := dropSign cs
      (digits? Char.isDigit cs).map fun (digits, cs) =>
        (if negative then -(Decimal.valueOf digits : Int) else Decimal.valueOf digits, cs)
    else none
  | [] => none

/-- What follows a floating-point number: one with places, an exponent, or both. -/
def float? (cs : List Char) : Option (List Char) := do
  let (negative, cs) := dropSign cs
  let (whole, cs) ← wholeDigits? cs
  let (places, exponent, cs) ← match cs with
    | '.' :: cs => do
      let (places, cs) ← digits? Char.isDigit cs
      let (exponent, cs) := (exponent? cs).getD (0, cs)
      pure (places, exponent, cs)
    | cs => do
      let (exponent, cs) ← exponent? cs
      pure ([], exponent, cs)
  if !negative && exceedsRange (Decimal.valueOf (whole ++ places)) (exponent - places.length) then none
  else some cs

/-- The largest whole number. -/
def largestWhole : Nat := 0x7fffffffffffffff

/-- The number of a digit string in a base. -/
def inBase (base : Nat) (digits : List Char) : Nat :=
  digits.foldl (fun n c => n * base + (hexValue? c).getD 0) 0

/-- What follows a whole number in a base that is written without a sign. -/
def based? (base : Nat) (cs : List Char) : Option (List Char) := do
  let (digits, cs) ← digits? (fun c => ((hexValue? c).getD base) < base) cs
  if inBase base digits ≤ largestWhole then some cs else none

/-- What follows a whole number. -/
def whole? (cs : List Char) : Option (List Char) :=
  match cs with
  | '0' :: 'x' :: cs => based? 16 cs
  | '0' :: 'o' :: cs => based? 8 cs
  | '0' :: 'b' :: cs => based? 2 cs
  | _ => do
    let (negative, cs) := dropSign cs
    let (digits, cs) ← wholeDigits? cs
    if Decimal.valueOf digits ≤ largestWhole + negative.toNat then some cs else none

/-- What follows an infinity or a value that is no number. -/
def special? (cs : List Char) : Option (List Char) :=
  match (dropSign cs).2 with
  | 'i' :: 'n' :: 'f' :: cs => some cs
  | 'n' :: 'a' :: 'n' :: cs => some cs
  | _ => none

/-- What follows a number. -/
def number? (cs : List Char) : Option (List Char) :=
  (float? cs).orElse fun _ => (special? cs).orElse fun _ => whole? cs

/-! ## Dates and times -/

/-- The number of exactly `n` digits. -/
def fixed? (n : Nat) (cs : List Char) : Option (Nat × List Char) :=
  let digits := cs.take n
  if digits.length = n ∧ digits.all Char.isDigit then some (Decimal.valueOf digits, cs.drop n) else none

/-- What follows a character. -/
def char? (c : Char) : List Char → Option (List Char)
  | [] => none
  | d :: cs => if d = c then some cs else none

/-- How many days a month has. -/
def daysIn (year month : Nat) : Nat :=
  if month = 2 then
    if year % 4 = 0 ∧ (year % 100 ≠ 0 ∨ year % 400 = 0) then 29 else 28
  else if month = 4 ∨ month = 6 ∨ month = 9 ∨ month = 11 then 30
  else 31

/-- What follows a date. -/
def date? (cs : List Char) : Option (List Char) := do
  let (year, cs) ← fixed? 4 cs
  let (month, cs) ← fixed? 2 (← char? '-' cs)
  let (day, cs) ← fixed? 2 (← char? '-' cs)
  if 1 ≤ month ∧ month ≤ 12 ∧ 1 ≤ day ∧ day ≤ daysIn year month then some cs else none

/-- What follows a time of day, which may end in a fraction of a second. -/
def time? (cs : List Char) : Option (List Char) := do
  let (hour, cs) ← fixed? 2 cs
  let (minute, cs) ← fixed? 2 (← char? ':' cs)
  let (second, cs) ← fixed? 2 (← char? ':' cs)
  if hour ≤ 23 ∧ minute ≤ 59 ∧ second ≤ 60 then
    match cs with
    | '.' :: c :: rest => if c.isDigit then some (rest.dropWhile Char.isDigit) else none
    | _ => some cs
  else none

/-- What follows the distance from universal time, where one is written. -/
def zone (cs : List Char) : List Char :=
  match cs with
  | 'Z' :: rest => rest
  | 'z' :: rest => rest
  | c :: rest =>
    if c = '+' ∨ c = '-' then
      match fixed? 2 rest with
      | some (hour, ':' :: rest) =>
        match fixed? 2 rest with
        | some (minute, rest) => if hour ≤ 23 ∧ minute ≤ 59 then rest else cs
        | none => cs
      | _ => cs
    else cs
  | [] => []

/-- What follows a date, a time of day, or both together. -/
def moment? (cs : List Char) : Option (List Char) :=
  match date? cs with
  | none => time? cs
  | some rest =>
    match rest with
    | c :: after =>
      if c = 'T' ∨ c = 't' ∨ c = ' ' then
        match time? after with
        | some after => some (zone after)
        | none => some rest
      else some rest
    | [] => some rest

/-- What follows a number, a date or a time. -/
def scalar? (cs : List Char) : Option (List Char) := (moment? cs).orElse fun _ => number? cs

end BenchLog.Config.Toml
