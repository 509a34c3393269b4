import GuildBot.Flow.Machine

/-!
# The turns of a task

A task has one turn after another, each in the hub that it then finds, until it has ended. Its time
begins with the first of them.
-/

namespace GuildBot

variable {σ ℓ γ : Type} {answer : γ → Type} {δ β : Type}

/-- A turn of a task: the branches that were woken, and the hub that the task finds. -/
structure Turn (σ ℓ : Type) where
  woken : List Nat
  hub : Hub σ ℓ

def Turn.time (turn : Turn σ ℓ) : Nat := turn.hub.now

def Machine.turnFor (m : Machine σ ℓ answer δ β) (number : Nat) : Turn σ ℓ where
  woken := (m.hub.woken.filter fun s => s.task = number).filterMap (·.branch)
  hub := { m.hub with woken := m.hub.woken.filter fun s => s.task ≠ number }

/-- Tasks that have ended have no turns. -/
def Machine.turnOf? (m : Machine σ ℓ answer δ β) (number : Nat) : Option (Turn σ ℓ) :=
  if m.tasks[number]?.any (·.ending.isNone) then some (m.turnFor number) else none

def Task.next [DecidableEq ℓ] (respond : Respond σ answer) (number : Nat) (turn : Turn σ ℓ)
    (t : Task σ ℓ answer δ β) : Task σ ℓ answer δ β :=
  (t.poll respond number turn.woken turn.hub).1

/-- Whether a task becomes another by those turns, of which none comes after its end. -/
inductive Task.Becomes [DecidableEq ℓ] (respond : Respond σ answer) (number : Nat)
    (t : Task σ ℓ answer δ β) : List (Turn σ ℓ) → Task σ ℓ answer δ β → Prop where
  | start : Becomes respond number t [] t
  | turn {turns : List (Turn σ ℓ)} {t' : Task σ ℓ answer δ β}
    (before : Becomes respond number t turns t') (going : t'.ending = none) (turn : Turn σ ℓ) :
      Becomes respond number t (turns ++ [turn]) (t'.next respond number turn)

/-- How a task has ended whose work stands so, and whose time is up or not. -/
def Work.endingAt (work : Work σ ℓ answer δ β) (isLate : Bool) : Option (Ending β) :=
  match work.ending? with
  | some result => some (result.elim .panicked .value)
  | none => if isLate then some .timedOut else none

/-- Whether a task's time was up at the last of its turns. -/
def Task.isLate (t : Task σ ℓ answer δ β) (turns : List (Turn σ ℓ)) : Bool :=
  t.deadline.any fun deadline => turns.getLast?.any (deadline ≤ ·.time)

/-- Whether a task that had those turns kept to a time limit. -/
structure Task.KeepsTo (limit : Nat) (turns : List (Turn σ ℓ)) (t : Task σ ℓ answer δ β) : Prop where
  deadline : t.deadline = turns.head?.map (·.time + limit)
  /-- The first turn at which its time is up is the last. -/
  before : ∀ deadline ∈ t.deadline, ∀ turn ∈ turns.dropLast, turn.time < deadline
  /-- It has ended if its work has, or if its time is up. -/
  ending : t.ending = t.work.endingAt (t.isLate turns)

/-- Whether a task that is not over cannot be forgotten. If it is to begin, it was woken; if it has begun,
there is a timer for the end of its time, until it is woken at that. -/
def Hub.Watches (h : Hub σ ℓ) (number : Nat) (t : Task σ ℓ answer δ β) : Prop :=
  match t.deadline with
  | none => ∃ s ∈ h.woken, s.task = number
  | some deadline => (deadline, ⟨number, none⟩) ∈ h.timers ∨
    deadline ≤ h.now ∧ ∃ s ∈ h.woken, s.task = number

end GuildBot
