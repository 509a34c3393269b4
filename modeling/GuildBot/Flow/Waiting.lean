import GuildBot.Flow.Machine
/-!
# Who waits for whom

What the strands of a machine wait for at a time, and which locks they hold. Who has asked for a lock
waits until it comes to them; who has been handed it holds it, also before their next turn.
-/

namespace GuildBot

variable {σ ℓ γ : Type} {answer : γ → Type} {α δ β : Type}

/-- What a program waits for that has not ended. -/
def Progress.obstacle? : Progress σ ℓ answer α → Option (Obstacle ℓ)
  | .waiting obstacle _ => some obstacle
  | .ended _ => none

/-- What the program of a number waits for. A leading or a closing program has number zero. -/
def Work.obstacle? (n : Nat) : Work σ ℓ answer δ β → Option (Obstacle ℓ)
  | .lead p => if n = 0 then p.obstacle? else none
  | .fan ps _ => ps[n]?.bind (·.obstacle?)
  | .closing p => if n = 0 then p.obstacle? else none

namespace Machine

variable [DecidableEq ℓ] (m : Machine σ ℓ answer δ β)

/-- Abandons a task that has not ended, as if its time were up. -/
def abandon (number : Nat) : Machine σ ℓ answer δ β :=
  match m.tasks[number]? with
  | none => m
  | some t =>
    if t.ending.isSome then m
    else
      { hub := { m.hub.forget number with state := t.onTimeout m.hub.state }
        tasks := m.tasks.set number { t with ending := some .timedOut } }

def going? (number : Nat) : Option (Task σ ℓ answer δ β) :=
  m.tasks[number]?.filter (·.ending.isNone)

def obstacle? (s : Strand) : Option (Obstacle ℓ) :=
  (m.going? s.task).bind fun t => s.branch.bind fun n => t.work.obstacle? n

/-- Whether a strand waits for a lock that it has asked for and not got. -/
def WaitsFor (s : Strand) (l : ℓ) : Prop :=
  m.obstacle? s = some (.lock l) ∧ m.hub.grants l s = false

/-- Whether a strand has a lock, or has just been handed it. -/
def Holds (s : Strand) (l : ℓ) : Prop := m.hub.holder? l = some s

/-- Whether a task waits for a lock that another holds, or the task itself. -/
def BlockedBy (task other : Nat) : Prop :=
  ∃ s s' l, s.task = task ∧ s'.task = other ∧ m.WaitsFor s l ∧ m.Holds s' l

def IsCalling (s : Strand) : Prop := ∃ t, m.obstacle? s = some (.time t) ∧ (t, s) ∈ m.hub.timers

def IsReady (s : Strand) : Prop :=
  (∃ o, m.obstacle? s = some o ∧ Progress.isClear m.hub s o = true) ∧ s ∈ m.hub.woken

end Machine

end GuildBot
