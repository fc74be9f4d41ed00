/-!
# `BenchLog.Text.CaseFold` — words in any letter case

The words that mark the fields of a log line may be spelled in any letter case. Letters are compared by
simple case folding, under which two characters outside ASCII fold to an ASCII letter: the long `ſ` to
`s` and the Kelvin sign to `k`.

## Contents
- `foldCase`, folding to a lower-case ASCII letter;
- `dropWord?`, what follows a word at the front of a text;
- `occursIn`, an exact search for a word, with `occursIn_iff`.
-/

namespace BenchLog.Text

/-- The lower-case ASCII letter that `c` folds to, or `c` itself when there is none. -/
def foldCase (c : Char) : Char :=
  if c = 'ſ' then 's' else if c = '\u212a' then 'k' else c.toLower

/-- What follows `word` at the front of a text, whatever the letter case; `word` is in lower case. -/
def dropWord? : List Char → List Char → Option (List Char)
  | [], cs => some cs
  | _ :: _, [] => none
  | w :: word, c :: cs => if foldCase c = w then dropWord? word cs else none

/-- Whether `word` stands somewhere in a text, letter for letter. -/
def occursIn (word : List Char) : List Char → Bool
  | [] => word.isEmpty
  | c :: cs => word.isPrefixOf (c :: cs) || occursIn word cs

/-- `occursIn` on strings. -/
def mentions (word line : String) : Bool := occursIn word.toList line.toList

/-! ## What a search finds -/

theorem occursIn_iff {word cs : List Char} : occursIn word cs = true ↔ word <:+: cs := by
  induction cs with
  | nil => simp [occursIn]
  | cons c cs ih =>
    simp only [occursIn, Bool.or_eq_true, List.isPrefixOf_iff_prefix, ih, List.infix_cons_iff]

theorem mentions_iff {word line : String} :
    mentions word line = true ↔ word.toList <:+: line.toList := occursIn_iff

end BenchLog.Text
