import BenchLog.Config.Value

/-!
# `BenchLog.Config.Toml.Tree` — tables that grow line by line

The lines of a TOML file add to a tree of tables. A header opens a table, once, or adds one to a list of
tables; a key with points adds to the table that its first parts lead to, which must have been made by
such keys. Whatever is written in one piece is closed to both.

## Contents
- `within?`, a change to the table at the end of a header's path;
- `openTable?`, `openItem?`, what headers do;
- `addKey?`, what a key with its value does.
-/

namespace BenchLog.Config.Toml

/-- The members of a table. -/
abbrev Entries := List (String × Value)

/-- Puts a member in the place of the one with its name. -/
def replace (entries : Entries) (name : String) (value : Value) : Entries :=
  entries.map fun e => if e.1 = name then (name, value) else e

/-- Changes the table that a path leads to. Tables on the way that are not there are made; the way
through a list of tables leads through its last one. -/
def within? (change : Entries → Option Entries) : List String → Entries → Option Entries
  | [], entries => change entries
  | name :: path, entries =>
    match Value.member? entries name with
    | none => (within? change path []).map fun inner => entries ++ [(name, .table .implied inner)]
    | some (.table .closed _) => none
    | some (.table origin inner) =>
      (within? change path inner).map fun inner => replace entries name (.table origin inner)
    | some (.list true items) =>
      match items.getLast? with
      | some (.table origin inner) =>
        (within? change path inner).map fun inner =>
          replace entries name (.list true (items.dropLast ++ [.table origin inner]))
      | _ => none
    | some _ => none

/-- Opens the table of a name. A table that was only passed through may still be opened. -/
def openHere? (name : String) (entries : Entries) : Option Entries :=
  match Value.member? entries name with
  | none => some (entries ++ [(name, .table .named [])])
  | some (.table .implied inner) => some (replace entries name (.table .named inner))
  | some _ => none

/-- Adds a table to the list of a name. -/
def itemHere? (name : String) (entries : Entries) : Option Entries :=
  match Value.member? entries name with
  | none => some (entries ++ [(name, .list true [.table .named []])])
  | some (.list true items) => some (replace entries name (.list true (items ++ [.table .named []])))
  | some _ => none

/-- Opens the table of a path. -/
def openTable? (path : List String) (entries : Entries) : Option Entries :=
  match path.getLast? with
  | none => none
  | some name => within? (openHere? name) path.dropLast entries

/-- Adds a table to the list of a path. -/
def openItem? (path : List String) (entries : Entries) : Option Entries :=
  match path.getLast? with
  | none => none
  | some name => within? (itemHere? name) path.dropLast entries

/-- Adds a value under a key of one or more parts. A key may lead through a table that was only passed
through, and through the last table of a list, but not end in one. -/
def addKey? (value : Value) : List String → Entries → Option Entries
  | [], _ => none
  | [name], entries =>
    match Value.member? entries name with
    | none => some (entries ++ [(name, value)])
    | some _ => none
  | name :: path, entries =>
    match Value.member? entries name with
    | none => (addKey? value path []).map fun inner => entries ++ [(name, .table .dotted inner)]
    | some (.table .dotted inner) =>
      (addKey? value path inner).map fun inner => replace entries name (.table .dotted inner)
    | some (.table .implied inner) =>
      if path.length = 1 then none
      else (addKey? value path inner).map fun inner => replace entries name (.table .implied inner)
    | some (.list true items) =>
      match items.getLast? with
      | some (.table origin inner) =>
        if path.length = 1 then none
        else
          (addKey? value path inner).map fun inner =>
            replace entries name (.list true (items.dropLast ++ [.table origin inner]))
      | _ => none
    | some _ => none

end BenchLog.Config.Toml
