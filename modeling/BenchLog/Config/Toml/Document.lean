import BenchLog.Config.Toml.Quote
import BenchLog.Config.Toml.Scalar
import BenchLog.Config.Toml.Tree

/-!
# `BenchLog.Config.Toml.Document` — settings in TOML

Reads a TOML document line by line: headers, keys with their values, comments and empty lines. A list may
spread over lines, a table between braces may not.

## Contents
- `lineEnd?`, `skipTrivia?`, comments and line ends;
- `value?`, `items?`, `members?`, the values;
- `Line`, `line?`, one line; `document?`, all lines; `Toml.read?`, a whole text.
-/

namespace BenchLog.Config.Toml

/-! ## Between values -/

/-- What follows the end of a line, before which a comment may stand. The end of the text is one. -/
def lineEnd? (cs : List Char) : Option (List Char) :=
  let rest := match skipGap cs with
    | '#' :: cs => cs.dropWhile isPlain
    | cs => cs
  if rest.isEmpty then some [] else newline? rest

/-- What follows any gaps, line ends and comments; `comment` says whether a comment is being read. -/
def skipTrivia? : Bool → List Char → Option (List Char)
  | _, [] => some []
  | _, '\r' :: '\n' :: cs => skipTrivia? false cs
  | comment, c :: cs =>
    if c = '\n' then skipTrivia? false cs
    else if comment then if isPlain c then skipTrivia? true cs else none
    else if isGap c then skipTrivia? false cs
    else if c = '#' then skipTrivia? true cs
    else some (c :: cs)

/-! ## Values -/

mutual

/-- A value, with what follows it. -/
def value? : Nat → Nat → List Char → Option (Value × List Char)
  | 0, _, _ => none
  | fuel + 1, depth, cs =>
    match cs with
    | '[' :: cs =>
      if depth ≤ 1 then none
      else (items? fuel (depth - 1) cs).map fun (items, cs) => (.list false items, cs)
    | '\x7b' :: cs =>
      if depth ≤ 1 then none
      else
        match skipGap cs with
        | '\x7d' :: cs => some (.table .closed [], cs)
        | cs =>
          (members? fuel (depth - 1) [] cs).map fun (entries, cs) => (.table .closed entries, cs)
    | 't' :: 'r' :: 'u' :: 'e' :: cs => some (.scalar, cs)
    | 'f' :: 'a' :: 'l' :: 's' :: 'e' :: cs => some (.scalar, cs)
    | '\x22' :: _ => (string? cs).map fun (s, cs) => (.text s, cs)
    | '\x27' :: _ => (string? cs).map fun (s, cs) => (.text s, cs)
    | _ => (scalar? cs).map fun cs => (.scalar, cs)

/-- The items of a list up to its closing bracket. -/
def items? : Nat → Nat → List Char → Option (List Value × List Char)
  | 0, _, _ => none
  | fuel + 1, depth, cs =>
    match skipTrivia? false cs with
    | none => none
    | some (']' :: cs) => some ([], cs)
    | some cs =>
      match value? fuel depth cs with
      | none => none
      | some (item, cs) =>
        match skipTrivia? false cs with
        | some (',' :: cs) => (items? fuel depth cs).map fun (items, cs) => (item :: items, cs)
        | some (']' :: cs) => some ([item], cs)
        | _ => none

/-- The members of a table up to its closing brace, added to those before them. -/
def members? : Nat → Nat → Entries → List Char → Option (Entries × List Char)
  | 0, _, _, _ => none
  | fuel + 1, depth, entries, cs =>
    match key? cs with
    | some (path, '=' :: cs) =>
      match value? fuel depth (skipGap cs) with
      | none => none
      | some (value, cs) =>
        match addKey? value path entries with
        | none => none
        | some entries =>
          match skipGap cs with
          | ',' :: cs => members? fuel depth entries cs
          | '\x7d' :: cs => some (entries, cs)
          | _ => none
    | _ => none

end

/-! ## Lines -/

/-- What a line says. -/
inductive Line where
  | blank
  | header (path : List String)
  | item (path : List String)
  | key (path : List String) (value : Value)

/-- A line without its end, with what follows. -/
def line? (cs : List Char) : Option (Line × List Char) :=
  match skipGap cs with
  | '[' :: '[' :: cs =>
    match key? cs with
    | some (path, ']' :: ']' :: cs) => some (.item path, cs)
    | _ => none
  | '[' :: cs =>
    match key? cs with
    | some (path, ']' :: cs) => some (.header path, cs)
    | _ => none
  | cs =>
    match cs.head? with
    | none => some (.blank, cs)
    | some '#' => some (.blank, cs)
    | some '\n' => some (.blank, cs)
    | some '\r' => some (.blank, cs)
    | some _ =>
      match key? cs with
      | some (path, '=' :: cs) =>
        (value? (2 * cs.length + 2) depthLimit (skipGap cs)).map fun (value, cs) =>
          (.key path value, cs)
      | _ => none

/-- A file as far as it has been read: its tables and the path of the one that keys are added to. -/
structure Draft where
  entries : Entries := []
  current : List String := []

/-- Adds a line. -/
def Draft.add? (d : Draft) : Line → Option Draft
  | .blank => some d
  | .header path => (openTable? path d.entries).map fun entries => ⟨entries, path⟩
  | .item path => (openItem? path d.entries).map fun entries => ⟨entries, path⟩
  | .key path value =>
    (within? (addKey? value path) d.current d.entries).map fun entries => { d with entries }

/-- Adds all lines of a text. -/
def document? (d : Draft) : Nat → List Char → Option Draft
  | 0, _ => none
  | fuel + 1, cs =>
    if cs.isEmpty then some d
    else
      match line? cs with
      | none => none
      | some (line, cs) =>
        match d.add? line, lineEnd? cs with
        | some d, some cs => document? d fuel cs
        | _, _ => none

/-- Reads a TOML text. A mark of the byte order may stand in front. -/
def read? (cs : List Char) : Option Value :=
  let cs := match cs with
    | '\ufeff' :: rest => rest
    | _ => cs
  (document? {} (cs.length + 1) cs).map fun d => .table .named d.entries

end BenchLog.Config.Toml
