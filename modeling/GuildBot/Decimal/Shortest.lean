import GuildBot.Decimal.Binary
/-!
# Shortest decimal text

The text of a binary fraction with the fewest digits that still read back as that fraction. It is
written out in full, without an exponent, and without a point when the number is whole.
-/

namespace GuildBot.Decimal.Binary

/-- The interval of numbers that round to `m * 2 ^ e`, as multiples of `2 ^ (e - 2)`. Below a
power of two the neighbour is only half as far. -/
def interval (m : Nat) (e : Int) : Nat × Nat :=
  (if m = leastMantissa ∧ -1074 < e then 4 * m - 1 else 4 * m - 2, 4 * m + 2)

/-- Whether `n * 10 ^ x` rounds to `m * 2 ^ e`; the ends of the interval count for an even `m`. -/
def readsBack (m : Nat) (e : Int) (n : Nat) (x : Int) : Bool :=
  let (low, high) := interval m e
  let point := scale 10 n 1 x
  let unit := scale 2 1 1 (e - 2)
  let here := point.1 * unit.2
  let low := low * unit.1 * point.2
  let high := high * unit.1 * point.2
  if m % 2 = 0 then low ≤ here && here ≤ high else low < here && here < high

/-- The digits of `m * 2 ^ e` in units of `10 ^ x`, if one of the two neighbours there reads
back; of two that do, the nearer, and the upper one at the same distance. -/
def onGrid? (m : Nat) (e x : Int) : Option Nat :=
  let v := scale 2 m 1 e
  let q := scale 10 v.1 v.2 (-x)
  let below := q.1 / q.2
  let rest := q.1 % q.2
  match readsBack m e below x, readsBack m e (below + 1) x with
  | true, true => some (if 2 * rest < q.2 then below else below + 1)
  | true, false => some below
  | false, true => some (below + 1)
  | false, false => none

/-- Tries ever finer grids, from `10 ^ x` down. -/
def shortestFrom (m : Nat) (e : Int) : Nat → Int → Nat × Int
  | 0, x => (0, x)
  | fuel + 1, x =>
    match onGrid? m e x with
    | some n => (n, x)
    | none => shortestFrom m e fuel (x - 1)

/-- Digits `n` and place `x` of the shortest decimal `n * 10 ^ x` of a positive fraction. The
coarsest grid tried is one place above the leading digit; a binary fraction is exact at `10 ^ e`
or coarser, which bounds the search. -/
def shortest (m : Nat) (e : Int) : Nat × Int :=
  let v := scale 2 m 1 e
  let top : Int := Int.ofNat (Nat.toDigits 10 (v.1 / v.2)).length
  shortestFrom m e (top - min e 0 + 1).toNat top

/-- Writes `n * 10 ^ x` in full. -/
def layOut (n : Nat) (x : Int) : String :=
  let digits := Nat.toDigits 10 n
  if 0 ≤ x then String.ofList (digits ++ List.replicate x.toNat '0')
  else
    let places := (-x).toNat
    let padded := List.replicate (places + 1 - digits.length) '0' ++ digits
    let whole := padded.take (padded.length - places)
    let fraction := padded.drop (padded.length - places)
    String.ofList (whole ++ '.' :: fraction)

def text : Binary → String
  | .finite neg m e =>
    let body := if m = 0 then "0" else
      let (n, x) := shortest m e
      layOut n x
    if neg then "-" ++ body else body
  | .infinite neg => if neg then "-inf" else "inf"
  | .nan => "NaN"

example : text (ofDecimal false 15 (-1)) = "1.5" := by decide +kernel
example : text (ofDecimal false 1 (-1)) = "0.1" := by decide +kernel
example : text (ofDecimal true 1000 0) = "-1000" := by decide +kernel
example : text (ofDecimal false 298023223876953125 (-25)) = "0.000000029802322387695313" := by
  decide +kernel

end GuildBot.Decimal.Binary
