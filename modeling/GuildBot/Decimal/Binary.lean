/-!
# Binary fractions of 64 bits

A number of the kind a settings file may hold: a whole multiple of a power of two with 53 bits,
an infinity, or no number. A decimal is read as the nearest of them, a tie going to the even one.
-/

namespace GuildBot.Decimal

/-- A binary fraction; `finite neg m e` is `m * 2 ^ e`, negated when `neg` holds. -/
inductive Binary where
  | finite (neg : Bool) (m : Nat) (e : Int)
  | infinite (neg : Bool)
  | nan
  deriving DecidableEq, Repr, Inhabited

namespace Binary

/-- The quotient rounded to the nearest whole number, a half going to the even neighbour. -/
def roundToEven (num den : Nat) : Nat :=
  let q := num / den
  let r := num % den
  if 2 * r < den then q
  else if den < 2 * r then q + 1
  else if q % 2 = 0 then q else q + 1

/-- The least number of 53 bits, `2 ^ 52`. -/
def leastMantissa : Nat := 4503599627370496

/-- `num * b ^ x` over `den`, as a quotient of whole numbers. -/
def scale (b num den : Nat) (x : Int) : Nat × Nat :=
  if 0 ≤ x then (num * Nat.pow b x.toNat, den) else (num, den * Nat.pow b (-x).toNat)

/-- The exponent of the last place of the nearest fraction to `num / den`: 53 bits, or as many as
remain above `2 ^ -1074`. -/
def lastPlace (num den : Nat) : Int :=
  let guess : Int := Int.ofNat num.log2 - Int.ofNat den.log2 - 53
  let wide := scale 2 num den (-guess)
  max (-1074) (if 2 * leastMantissa ≤ wide.1 / wide.2 then guess + 1 else guess)

/-- The fraction nearest to `num / den`, for a positive quotient. -/
def ofQuotient (neg : Bool) (num den : Nat) : Binary :=
  let e := lastPlace num den
  let q := scale 2 num den (-e)
  let m := roundToEven q.1 q.2
  let (m, e) := if m = 2 * leastMantissa then (leastMantissa, e + 1) else (m, e)
  if e > 971 then .infinite neg else .finite neg m e

/-- The fraction nearest to `n * 10 ^ x`. A number past every fraction is infinite, one below
half the least is zero; both are told by the place of the leading digit. -/
def ofDecimal (neg : Bool) (n : Nat) (x : Int) : Binary :=
  let lead : Int := Int.ofNat (Nat.toDigits 10 n).length + x
  if n = 0 ∨ lead < -330 then .finite neg 0 0
  else if 330 < lead then .infinite neg
  else
    let q := scale 10 n 1 x
    ofQuotient neg q.1 q.2

/-- The nearest whole number within `0` and `limit`, a half going up. What is negative or no
number counts as zero. -/
def toBoundedNat (limit : Nat) : Binary → Nat
  | .finite true _ _ => 0
  | .finite false m e =>
    let q := scale 2 m 1 e
    min limit ((2 * q.1 + q.2) / (2 * q.2))
  | .infinite true => 0
  | .infinite false => limit
  | .nan => 0

example : ofDecimal false 15 (-1) = .finite false 6755399441055744 (-52) := by decide +kernel
example : toBoundedNat 100 (ofDecimal false 25 (-1)) = 3 := by decide +kernel
example : ofDecimal false 1 309 = .infinite false := by decide +kernel

end Binary

end GuildBot.Decimal
