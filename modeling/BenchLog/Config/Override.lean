import BenchLog.Config.Toml.Quote
import BenchLog.Config.Value
import BenchLog.Decimal.Numeral
import BenchLog.Text.Blank

/-!
# `BenchLog.Config.Override` — settings from the environment

An environment variable holds a text, and the text has a small grammar: truth values, numbers, lists,
tables and quoted strings are recognised, and a bare word stands for itself without the blanks around it.
A text that does not follow the grammar to its end stands for itself as it is.

## Contents
- `isReal`, numbers with a point; `bare`, what a bare word stands for;
- `Fault`, `unescape`, `string`, quoted strings and their escapes;
- `value`, `items`, `members`, the grammar;
- `ofVariable`, the value of a variable.
-/

namespace BenchLog.Config.Override

open BenchLog.Text

/-- Separates the parts of the grammar. -/
def isSpace (c : Char) : Bool := c == ' ' || c == '\t' || c == '\n' || c == '\x0c' || c == '\r'

/-- Without the spaces at the front. -/
def skip (cs : List Char) : List Char := cs.dropWhile isSpace

/-- Ends a bare word. -/
def isSeparator (c : Char) : Bool :=
  c == ',' || c == '\x7b' || c == '\x7d' || c == '[' || c == ']'

/-! ## Bare words -/

/-- Without a sign at the front. -/
def dropSign : List Char → List Char
  | '-' :: cs => cs
  | '+' :: cs => cs
  | cs => cs

/-- Whether a text is nothing or the exponent of a number. -/
def isExponent : List Char → Bool
  | [] => true
  | c :: cs =>
    let digits := dropSign cs
    (c == 'e' || c == 'E') && !digits.isEmpty && digits.all Char.isDigit

/-- Whether a text is a decimal number with a point, before or after which digits may be missing. -/
def isReal (cs : List Char) : Bool :=
  let cs := dropSign cs
  let whole := cs.takeWhile Char.isDigit
  match cs.dropWhile Char.isDigit with
  | '.' :: rest =>
    let places := rest.takeWhile Char.isDigit
    (!whole.isEmpty || !places.isEmpty) && isExponent (rest.dropWhile Char.isDigit)
  | _ => false

/-- Whether a text is a whole number of 64 bits, with or without a sign. -/
def isWhole (cs : List Char) : Bool :=
  match Decimal.read cs with
  | .ok _ => true
  | .error _ =>
    match cs with
    | '-' :: c :: rest =>
      match Decimal.readDigits 0 (c :: rest) with
      | .ok n => n.toNat ≤ 0x8000000000000000
      | .error _ => false
    | _ => false

/-- What a bare word stands for. -/
def bare (cs : List Char) : Value :=
  let word := trim cs
  if isReal word || isWhole word then .scalar else .text (String.ofList word)

/-! ## Quoted strings -/

/-- Why the grammar gives no value. -/
inductive Fault where
  /-- The text does not follow the grammar. -/
  | mismatch
  /-- A count of bytes ends inside a character. -/
  | split
deriving DecidableEq, Repr

/-- The characters that make up the first `n` bytes of a text, if the last of them is whole. -/
def firstBytes? : Nat → List Char → Option (List Char)
  | 0, _ => some []
  | _ + 1, [] => none
  | n + 1, c :: cs =>
    if c.utf8Size ≤ n + 1 then (firstBytes? (n + 1 - c.utf8Size) cs).map (c :: ·) else none

/-- What an inner text stands for, given what remains of it; `kept` is what is kept so far, last character
first, once there has been an escape. At every escape the characters before it are counted, and as many
bytes are cut off the front of the text. The first escape keeps this front and drops whatever else stands
before it; later ones only need the cut to fall between two characters. -/
def unescape (inner : List Char) : Nat → Option (List Char) → List Char → Except Fault (List Char)
  | 0, _, _ => .error .mismatch
  | _ + 1, kept, [] => .ok ((kept.map List.reverse).getD inner)
  | fuel + 1, kept, '\x5c' :: cs =>
    match firstBytes? (inner.length - (cs.length + 1)) inner with
    | none => .error .split
    | some front =>
      match Toml.escape? cs with
      | none => .error .mismatch
      | some (c, cs) => unescape inner fuel (some (c :: kept.getD front.reverse)) cs
  | fuel + 1, kept, c :: cs =>
    if Toml.isPlain c then unescape inner fuel (kept.map (c :: ·)) cs else .error .mismatch

/-- The text up to the quote that closes it, and what follows. A backslash takes the next character with
it. -/
def untilQuote? : List Char → Option (List Char × List Char)
  | [] => none
  | '\x22' :: cs => some ([], cs)
  | '\x5c' :: c :: cs => (untilQuote? cs).map fun (inner, rest) => ('\x5c' :: c :: inner, rest)
  | c :: cs => (untilQuote? cs).map fun (inner, rest) => (c :: inner, rest)

/-- A string after its opening quote, with what follows its closing one. -/
def string (cs : List Char) : Except Fault (String × List Char) :=
  match untilQuote? cs with
  | none => .error .mismatch
  | some (inner, rest) =>
    (unescape inner (inner.length + 1) none inner).map fun text => (String.ofList text, rest)

/-! ## The grammar -/

/-- The name of a member, quoted or a word. -/
def name : List Char → Except Fault (String × List Char)
  | '\x22' :: cs => string cs
  | cs =>
    match cs.takeWhile Toml.isBare with
    | [] => .error .mismatch
    | word => .ok (String.ofList word, cs.dropWhile Toml.isBare)

mutual

/-- A value with the spaces around it, and what follows. -/
def value : Nat → List Char → Except Fault (Value × List Char)
  | 0, _ => .error .mismatch
  | fuel + 1, cs => do
    let (found, rest) ←
      match skip cs with
      | 't' :: 'r' :: 'u' :: 'e' :: cs => .ok (.scalar, cs)
      | 'f' :: 'a' :: 'l' :: 's' :: 'e' :: cs => .ok (.scalar, cs)
      | '\x7b' :: cs => (members fuel cs).map fun (entries, cs) => (.table .closed entries, cs)
      | '[' :: cs => (items fuel cs).map fun (items, cs) => (.list false items, cs)
      | '\x22' :: cs => (string cs).map fun (s, cs) => (.text s, cs)
      | '\x27' :: c :: '\x27' :: cs => .ok (.text c.toString, cs)
      | '\x27' :: _ => .error .mismatch
      | cs => .ok (bare (cs.takeWhile (!isSeparator ·)), cs.dropWhile (!isSeparator ·))
    return (found, skip rest)

/-- The items of a list up to its closing bracket. -/
def items : Nat → List Char → Except Fault (List Value × List Char)
  | 0, _ => .error .mismatch
  | _ + 1, ']' :: cs => .ok ([], cs)
  | fuel + 1, cs => do
    let (item, rest) ← value fuel cs
    match rest with
    | ',' :: cs => (items fuel cs).map fun (items, cs) => (item :: items, cs)
    | ']' :: cs => return ([item], cs)
    | _ => throw .mismatch

/-- The members of a table up to its closing brace. -/
def members : Nat → List Char → Except Fault (List (String × Value) × List Char)
  | 0, _ => .error .mismatch
  | _ + 1, '\x7d' :: cs => .ok ([], cs)
  | fuel + 1, cs => do
    let (name, rest) ← name (skip cs)
    match skip rest with
    | '=' :: cs =>
      let (value, rest) ← value fuel cs
      match rest with
      | ',' :: cs => (members fuel cs).map fun (entries, cs) => ((name, value) :: entries, cs)
      | '\x7d' :: cs => return ([(name, value)], cs)
      | _ => throw .mismatch
    | _ => throw .mismatch

end

/-- The value of a variable that holds `content`, except where a count of bytes ends inside one of its
characters. A text that the grammar does not read to its end stands for itself, blanks included. -/
def ofVariable (content : String) : Option Value :=
  let cs := content.toList
  match value (2 * cs.length + 2) cs with
  | .ok (found, []) => some found
  | .error .split => none
  | _ => some (.text content)

end BenchLog.Config.Override
