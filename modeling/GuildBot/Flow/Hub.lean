import GuildBot.Flow
/-!
# The hub of a machine

What the programs that run side by side have in common: the state, the time, the locks, the
timers, and the order in which programs are waiting for their turn. Locks go to those who asked
for them in the order in which they asked.
-/

namespace GuildBot

structure Strand where
  task : Nat
  branch : Option Nat
  deriving DecidableEq, Repr, Inhabited

/-- What the strands of a machine share. -/
structure Hub (σ ℓ : Type) where
  state : σ
  /-- Milliseconds since the machine was started. -/
  now : Nat := 0
  /-- Who asked for which lock, in that order. The first of a lock holds it. -/
  claims : List (ℓ × Strand) := []
  /-- When whom to wake, in the order in which it was asked for. -/
  timers : List (Nat × Strand) := []
  /-- Who is to have a turn next, in that order. -/
  woken : List Strand := []

namespace Hub

variable {σ ℓ : Type} [DecidableEq ℓ]

/-- Who holds a lock by a list of claims. -/
def holderIn (claims : List (ℓ × Strand)) (l : ℓ) : Option Strand :=
  (claims.find? fun claim => claim.1 = l).map Prod.snd

def holder? (h : Hub σ ℓ) (l : ℓ) : Option Strand := holderIn h.claims l

/-- Whether a strand has got the lock that it asked for: nobody asked for the lock before, not even
the strand itself, which would wait for itself for ever. -/
def grants (h : Hub σ ℓ) (l : ℓ) (s : Strand) : Bool :=
  h.holder? l = some s && h.claims.count (l, s) = 1

def wake (h : Hub σ ℓ) (s : Strand) : Hub σ ℓ :=
  if s ∈ h.woken then h else { h with woken := h.woken ++ [s] }

def claim (h : Hub σ ℓ) (l : ℓ) (s : Strand) : Hub σ ℓ := { h with claims := h.claims ++ [(l, s)] }

/-- Those who hold a lock by the new claims and did not by the old ones. -/
def heirs (old new : List (ℓ × Strand)) : List Strand :=
  (new.filter fun claim => holderIn new claim.1 = some claim.2 ∧ holderIn old claim.1 ≠ some claim.2).map
    Prod.snd

/-- Withdraws claims, and wakes those who thereby come to hold a lock. -/
def withdraw (h : Hub σ ℓ) (claims : List (ℓ × Strand)) : Hub σ ℓ :=
  (heirs h.claims claims).foldl wake { h with claims }

def release (h : Hub σ ℓ) (l : ℓ) (s : Strand) : Hub σ ℓ := h.withdraw (h.claims.erase (l, s))

def setTimer (h : Hub σ ℓ) (time : Nat) (s : Strand) : Hub σ ℓ :=
  { h with timers := h.timers ++ [(time, s)] }

/-- Forgets a task that is over: it claims nothing any more and nothing wakes it. -/
def forget (h : Hub σ ℓ) (task : Nat) : Hub σ ℓ :=
  let h := h.withdraw (h.claims.filter fun claim => claim.2.task ≠ task)
  { h with
    timers := h.timers.filter fun timer => timer.2.task ≠ task
    woken := h.woken.filter fun s => s.task ≠ task }

/-- Moves to a time and wakes those whose timers have run out by then. -/
def arrive (h : Hub σ ℓ) (time : Nat) : Hub σ ℓ :=
  let due := h.timers.filter fun timer => timer.1 ≤ time
  (due.map Prod.snd).foldl wake
    { h with now := time, timers := h.timers.filter fun timer => time < timer.1 }

def nextTime? (h : Hub σ ℓ) : Option Nat := (h.timers.map Prod.fst).min?

end Hub

end GuildBot
