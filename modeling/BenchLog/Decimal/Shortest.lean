/-!
# `BenchLog.Decimal.Shortest` — the text of a floating-point number

A finite double is one of the reals `m * 2 ^ q`, and all reals of an interval around it round to it. Its
text is the decimal number of that interval with the fewest digits, and of those the nearest one, or the
one further from zero where two are as near. It is found on grids of powers of ten, from coarse to fine:
the first grid with a point in the interval has one next to the number itself. The text is positional,
whatever the size, and a whole number has no point.

## Contents
- `Interval`, a double with the reals that round to it, over a common denominator;
- `Interval.onGrid?`, `Interval.shortest?`, the search;
- `positional`, digits with their point; `floatText`, the text of any double.
-/

namespace BenchLog.Decimal

/-- How many values the fraction field of a double has. -/
def fractionCount : Nat := 0x10000000000000

/-- What the sign of a double counts in its bits. -/
def signWeight : Nat := 0x8000000000000000

/-- A positive double `value / unit` and the ends `low / unit`, `high / unit` of the reals that round to
it; `closed` when the ends themselves do. -/
structure Interval where
  low : Nat
  value : Nat
  high : Nat
  unit : Nat
  closed : Bool

/-- The interval of the positive double with these exponent and fraction fields. The gap below a power of
two is half the gap above it. -/
def Interval.ofFields (exponent fraction : Nat) : Interval :=
  let m := if exponent = 0 then fraction else fraction + fractionCount
  let q : Int := (if exponent = 0 then 1 else exponent) - 1075 - 2
  let scale := Nat.pow 2 q.toNat
  let below := if fraction = 0 ∧ 1 < exponent then 1 else 2
  { low := (4 * m - below) * scale
    value := 4 * m * scale
    high := (4 * m + 2) * scale
    unit := Nat.pow 2 (-q).toNat
    closed := m % 2 = 0 }

/-- Whether the real `n / d` lies in the interval. -/
def Interval.holds (i : Interval) (n d : Nat) : Bool :=
  if i.closed then i.low * d ≤ n * i.unit && n * i.unit ≤ i.high * d
  else i.low * d < n * i.unit && n * i.unit < i.high * d

/-- The multiple of `10 ^ k` in the interval that is nearest to its value, as a factor of `10 ^ k`. Of two
that are as near, it is the larger. -/
def Interval.onGrid? (i : Interval) (k : Int) : Option Nat :=
  let up := Nat.pow 10 k.toNat
  let down := Nat.pow 10 (-k).toNat
  let floor := i.value * down / (i.unit * up)
  let below := 0 < floor && i.holds (floor * up) down
  let above := i.holds ((floor + 1) * up) down
  if below && above then
    if 2 * i.value * down < (2 * floor + 1) * up * i.unit then some floor else some (floor + 1)
  else if below then some floor
  else if above then some (floor + 1)
  else none

/-- The exponent of the coarsest grid that is tried; no double reaches it. -/
def coarsest : Int := 309

/-- The shortest decimal number in the interval: a factor and the exponent of its power of ten. -/
def Interval.shortest? (i : Interval) : Option (Nat × Int) :=
  (List.range 660).findSome? fun step =>
    let k := coarsest - Int.ofNat step
    (i.onGrid? k).map fun factor => (factor, k)

/-- The text of `factor * 10 ^ k`, in full and without a point where none is needed. -/
def positional (factor : Nat) (k : Int) : List Char :=
  let digits := Nat.toDigits 10 factor
  if 0 ≤ k then digits ++ List.replicate k.toNat '0'
  else
    let places := (-k).toNat
    if places < digits.length then
      digits.take (digits.length - places) ++ '.' :: digits.drop (digits.length - places)
    else '0' :: '.' :: (List.replicate (places - digits.length) '0' ++ digits)

/-- The text of a double. -/
def floatText (x : Float) : String :=
  let bits := x.toBits.toNat
  let exponent := bits / fractionCount % 2048
  let fraction := bits % fractionCount
  let sign := if bits < signWeight then [] else ['-']
  if exponent = 0 ∧ fraction = 0 then String.ofList (sign ++ ['0'])
  else if exponent = 2047 then
    if fraction = 0 then String.ofList (sign ++ ['i', 'n', 'f']) else "NaN"
  else
    match (Interval.ofFields exponent fraction).shortest? with
    | some (factor, k) => String.ofList (sign ++ positional factor k)
    | none => String.ofList (sign ++ ['0'])

end BenchLog.Decimal
