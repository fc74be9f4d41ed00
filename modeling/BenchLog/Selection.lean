/-!
# `BenchLog.Selection` — choosing one sample of a section

A section measures the same thing several times and one of its samples stands for it. Of five, the one
with exactly three strictly smaller samples is taken: the highest is dropped as an outlier. Of three, the
one strictly between the others. Both rules only compare, so they serve counts and floating-point numbers
alike, and both give up where ties, or numbers that do not compare, leave no such sample.

## Contents
- `SelectionError` and its wording;
- `byRank`, one of five, by a key of the sample;
- `Triple` and `middle`, one of three.
-/

namespace BenchLog

/-- Why no sample was chosen. -/
inductive SelectionError where
  | ambiguous (samples : Nat)
  | insufficient (expected found : Nat)
deriving DecidableEq, Repr

/-- The wording of a `SelectionError`. -/
def SelectionError.message : SelectionError → String
  | .ambiguous samples =>
    "No sample satisfies the selection rule among " ++ Nat.repr samples ++ " samples"
  | .insufficient expected found =>
    "Expected " ++ Nat.repr expected ++ " samples, found " ++ Nat.repr found

namespace Selection

/-- How many samples `byRank` chooses from. -/
def sampleCount : Nat := 5

/-- How many samples are strictly smaller than the one that `byRank` chooses. -/
def smallerCount : Nat := 3

variable {α β : Type} [LT α] [DecidableLT α]

/-- How many of the samples have a key strictly smaller than `x`. -/
def below (key : β → α) (samples : List β) (x : α) : Nat := samples.countP fun s => key s < x

/-- The first of five samples whose key has exactly three strictly smaller ones. -/
def byRank (key : β → α) (samples : List β) : Except SelectionError (Fin samples.length) :=
  if samples.length = sampleCount then
    match samples.findFinIdx? fun s => below key samples (key s) == smallerCount with
    | some i => .ok i
    | none => .error (.ambiguous samples.length)
  else .error (.insufficient sampleCount samples.length)

end Selection

/-! ## One of three -/

/-- Three values in order. -/
structure Triple (α : Type) where
  first : α
  second : α
  third : α
deriving DecidableEq, Repr

/-- The value at a place. -/
def Triple.get {α : Type} (t : Triple α) : Fin 3 → α
  | 0 => t.first
  | 1 => t.second
  | 2 => t.third

/-- The values that a function gives for the places. -/
def Triple.ofFn {α : Type} (f : Fin 3 → α) : Triple α := ⟨f 0, f 1, f 2⟩

theorem Triple.get_ofFn {α : Type} (f : Fin 3 → α) (i : Fin 3) : (ofFn f).get i = f i := by
  match i with
  | 0 => rfl
  | 1 => rfl
  | 2 => rfl

namespace Selection

variable {α : Type} [LT α] [DecidableLT α]

/-- Whether `x` lies strictly between `y` and `z`, in either order of the two. -/
def between (x y z : α) : Bool := (y < x && x < z) || (z < x && x < y)

/-- The one of three samples that lies strictly between the other two. -/
def middle (t : Triple α) : Except SelectionError (Fin 3) :=
  if between t.first t.second t.third then .ok 0
  else if between t.second t.first t.third then .ok 1
  else if between t.third t.first t.second then .ok 2
  else .error (.ambiguous 3)

end Selection

end BenchLog
