/-!
# Durations and instants

Both are whole nanoseconds. A duration is written with the largest unit that it reaches. Clocks
have a last instant, and a span added to an instant may not pass it.
-/

namespace GuildBot

structure Duration where
  nanoseconds : Nat
  deriving DecidableEq, Repr, Inhabited, Ord

/-- A point in time, counted from the Unix epoch. -/
structure Instant where
  nanoseconds : Int
  deriving DecidableEq, Repr, Inhabited

def secondLength : Nat := 1000000000

namespace Duration

def ofSeconds (n : Nat) : Duration := ⟨n * secondLength⟩

def ofMilliseconds (n : Nat) : Duration := ⟨n * 1000000⟩

def seconds (d : Duration) : Nat := d.nanoseconds / secondLength

def subsecond (d : Duration) : Nat := d.nanoseconds % secondLength

/-- The decimal digits of `n` in `places` places, without the zeros at the end. -/
def fractionDigits (places n : Nat) : List Char :=
  let digits := Nat.toDigits 10 n
  let padded := List.replicate (places - digits.length) '0' ++ digits
  (padded.reverse.dropWhile (· == '0')).reverse

/-- A number of nanoseconds in a unit of `10 ^ places` of them, with the fraction it needs. -/
def inUnit (places : Nat) (unit : String) (n : Nat) : String :=
  let fraction := fractionDigits places (n % Nat.pow 10 places)
  let point := if fraction.isEmpty then [] else '.' :: fraction
  toString (n / Nat.pow 10 places) ++ String.ofList point ++ unit

/-- The text of a duration in the largest of `s`, `ms`, `µs`, `ns` that it reaches. -/
def text (d : Duration) : String :=
  let n := d.nanoseconds
  if secondLength ≤ n then inUnit 9 "s" n
  else if 1000000 ≤ n then inUnit 6 "ms" n
  else if 1000 ≤ n then inUnit 3 "µs" n
  else inUnit 0 "ns" n

example : text ⟨10010000000⟩ = "10.01s" := by decide +kernel
example : text ⟨1500⟩ = "1.5µs" ∧ text ⟨0⟩ = "0ns" := by decide +kernel

/-- The longest span a clock can be moved by, the greatest signed 64-bit number of
milliseconds. -/
def longestSpan : Duration := ofMilliseconds 9223372036854775807

/-- The lifetime that stands in for one that is too long for a clock: a year. -/
def year : Duration := ofSeconds (365 * 24 * 60 * 60)

/-- The span by which entries outlive their storing: `d` itself where a clock can express it,
else a year. -/
def asLifetime (d : Duration) : Duration :=
  if d.nanoseconds ≤ longestSpan.nanoseconds then d else year

/-- The span by which a clock moves when told to advance by `d`: none at all where it cannot
express `d`. -/
def asAdvance (d : Duration) : Duration :=
  if d.nanoseconds ≤ longestSpan.nanoseconds then d else ⟨0⟩

end Duration

namespace Instant

def ofSeconds (n : Int) : Instant := ⟨n * secondLength⟩

def seconds (t : Instant) : Int := t.nanoseconds.fdiv secondLength

def subsecond (t : Instant) : Int := t.nanoseconds.fmod secondLength

/-- The last instant of a clock, at the end of the year 262142. -/
def latest : Instant := ⟨8210266876799999999999⟩

/-- The instant after a span, unless the clock has ended by then. -/
def add? (t : Instant) (d : Duration) : Option Instant :=
  let n := t.nanoseconds + d.nanoseconds
  if n ≤ latest.nanoseconds then some ⟨n⟩ else none

def before (t u : Instant) : Bool := t.nanoseconds < u.nanoseconds

theorem add?_eq_some_iff {t u : Instant} {d : Duration} :
    t.add? d = some u ↔
      u.nanoseconds = t.nanoseconds + d.nanoseconds ∧ u.nanoseconds ≤ latest.nanoseconds := by
  obtain ⟨n⟩ := t
  obtain ⟨m⟩ := u
  simp only [add?]
  split <;> simp <;> omega

theorem before_iff {t u : Instant} : t.before u = true ↔ t.nanoseconds < u.nanoseconds := by
  simp [before]

end Instant

end GuildBot
