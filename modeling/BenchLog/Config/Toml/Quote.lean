import BenchLog.Config.Number

/-!
# `BenchLog.Config.Toml.Quote` — strings and keys in TOML

A string stands between double quotes, where a backslash starts an escape, or between single quotes,
where every character stands for itself. Three quotes open a string of several lines; a newline right
after them does not count, and up to two more quotes may stand before the three that close it. A key is
one of the two short forms, or a bare word.

## Contents
- `escape?`, an escape after its backslash;
- `basic?`, `raw?`, `longBasic?`, `longRaw?`, the four forms after their opening quotes;
- `string?`, any of them; `key?`, a key of one or more parts.
-/

namespace BenchLog.Config.Toml

/-- May stand in a comment: anything but controls other than the tab. -/
def isPlain (c : Char) : Bool := (0x20 ≤ c.toNat && c.toNat != 0x7f) || c == '\t'

/-- A space or a tab. -/
def isGap (c : Char) : Bool := c == ' ' || c == '\t'

/-- Without the spaces and tabs at the front. -/
def skipGap (cs : List Char) : List Char := cs.dropWhile isGap

/-- What follows a line end. -/
def newline? : List Char → Option (List Char)
  | '\n' :: cs => some cs
  | '\r' :: '\n' :: cs => some cs
  | _ => none

/-- The character of an escape after its backslash, with what follows it. -/
def escape? : List Char → Option (Char × List Char)
  | 'b' :: cs => some ('\x08', cs)
  | 't' :: cs => some ('\t', cs)
  | 'n' :: cs => some ('\n', cs)
  | 'f' :: cs => some ('\x0c', cs)
  | 'r' :: cs => some ('\r', cs)
  | '\x22' :: cs => some ('\x22', cs)
  | '\x5c' :: cs => some ('\x5c', cs)
  | 'u' :: cs => numbered 4 cs
  | 'U' :: cs => numbered 8 cs
  | _ => none
where
  /-- The character with the number that the next `n` digits write in base sixteen. -/
  numbered (n : Nat) (cs : List Char) : Option (Char × List Char) :=
    if (cs.take n).length = n then
      ((hexNumber? (cs.take n)).bind charOf?).map fun c => (c, cs.drop n)
    else none

/-- A string after its opening double quote. -/
def basic? (reversed : List Char) : Nat → List Char → Option (String × List Char)
  | 0, _ => none
  | fuel + 1, cs =>
    match cs with
    | [] => none
    | '\x22' :: cs => some (String.ofList reversed.reverse, cs)
    | '\x5c' :: cs =>
      match escape? cs with
      | some (c, cs) => basic? (c :: reversed) fuel cs
      | none => none
    | c :: cs => if isPlain c then basic? (c :: reversed) fuel cs else none

/-- A string after its opening single quote. -/
def raw? (reversed : List Char) : List Char → Option (String × List Char)
  | [] => none
  | '\x27' :: cs => some (String.ofList reversed.reverse, cs)
  | c :: cs => if isPlain c then raw? (c :: reversed) cs else none

/-- What follows a backslash at the end of a line: the blanks up to the next character of the string. -/
def joinLines? (cs : List Char) : Option (List Char) :=
  match newline? (skipGap cs) with
  | none => none
  | some cs => some (blanks cs)
where
  /-- Without the spaces, tabs and line ends at the front. -/
  blanks : List Char → List Char
    | '\r' :: '\n' :: cs => blanks cs
    | c :: cs => if isGap c || c == '\n' then blanks cs else c :: cs
    | [] => []

/-- The quotes at the front of a text that can close a string of several lines: at least three of them,
of which those past the third belong to the string. Gives how many belong to it and what follows. -/
def closing? (quote : Char) (cs : List Char) : Option (Nat × List Char) :=
  let count := min 5 (cs.takeWhile (· == quote)).length
  if 3 ≤ count then some (count - 3, cs.drop count) else none

/-- A string of several lines after its opening double quotes. -/
def longBasic? (reversed : List Char) : Nat → List Char → Option (String × List Char)
  | 0, _ => none
  | fuel + 1, cs =>
    match closing? '\x22' cs with
    | some (extra, cs) =>
      some (String.ofList (List.replicate extra '\x22' ++ reversed).reverse, cs)
    | none =>
      match cs with
      | [] => none
      | '\x5c' :: cs =>
        match joinLines? cs with
        | some cs => longBasic? reversed fuel cs
        | none =>
          match escape? cs with
          | some (c, cs) => longBasic? (c :: reversed) fuel cs
          | none => none
      | c :: rest =>
        match newline? cs with
        | some cs => longBasic? ('\n' :: reversed) fuel cs
        | none => if isPlain c then longBasic? (c :: reversed) fuel rest else none

/-- A string of several lines after its opening single quotes. -/
def longRaw? (reversed : List Char) : Nat → List Char → Option (String × List Char)
  | 0, _ => none
  | fuel + 1, cs =>
    match closing? '\x27' cs with
    | some (extra, cs) =>
      some (String.ofList (List.replicate extra '\x27' ++ reversed).reverse, cs)
    | none =>
      match cs with
      | [] => none
      | c :: rest =>
        match newline? cs with
        | some cs => longRaw? ('\n' :: reversed) fuel cs
        | none => if isPlain c then longRaw? (c :: reversed) fuel rest else none

/-- A string, with what follows it. -/
def string? : List Char → Option (String × List Char)
  | '\x22' :: '\x22' :: '\x22' :: cs => longBasic? [] (cs.length + 1) ((newline? cs).getD cs)
  | '\x27' :: '\x27' :: '\x27' :: cs => longRaw? [] (cs.length + 1) ((newline? cs).getD cs)
  | '\x22' :: cs => basic? [] (cs.length + 1) cs
  | '\x27' :: cs => raw? [] cs
  | _ => none

/-! ## Keys -/

/-- May stand in a bare word. -/
def isBare (c : Char) : Bool := c.isAlphanum || c == '_' || c == '-'

/-- One part of a key. -/
def keyPart? : List Char → Option (String × List Char)
  | '\x22' :: cs => basic? [] (cs.length + 1) cs
  | '\x27' :: cs => raw? [] cs
  | cs =>
    match cs.takeWhile isBare with
    | [] => none
    | word => some (String.ofList word, cs.dropWhile isBare)

/-- The parts of a key, with points and gaps between them, and what follows the last gap. -/
def keyParts? : Nat → List Char → Option (List String × List Char)
  | 0, _ => none
  | fuel + 1, cs =>
    match keyPart? (skipGap cs) with
    | none => none
    | some (part, cs) =>
      match skipGap cs with
      | '.' :: cs => (keyParts? fuel cs).map fun (parts, cs) => (part :: parts, cs)
      | cs => some ([part], cs)

/-- A value may nest, and a key may be divided, less deep than this. -/
def depthLimit : Nat := 80

/-- A key, with what follows it. -/
def key? (cs : List Char) : Option (List String × List Char) :=
  match keyParts? (cs.length + 1) cs with
  | some (parts, cs) => if parts.length < depthLimit then some (parts, cs) else none
  | none => none

end BenchLog.Config.Toml
