import GuildBot.Flow.Work
/-!
# Machines

A machine runs tasks side by side. Tasks have their turns in the order in which they are woken.
Only when nobody is to have a turn does time pass, and then it jumps to the next timer. A task
may have a time limit: when it has to wait again and its time is up, it is abandoned.
-/

namespace GuildBot

variable {σ ℓ γ : Type} {answer : γ → Type} {δ β : Type}

inductive Ending (β : Type) where
  | value (b : β)
  | panicked
  | timedOut
  deriving DecidableEq, Repr, Inhabited

structure Task (σ ℓ : Type) {γ : Type} (answer : γ → Type) (δ β : Type) where
  work : Work σ ℓ answer δ β
  /-- Milliseconds that the task may take, if there is a limit. -/
  limit : Option Nat := none
  /-- What is done to the state when the time is up. -/
  onTimeout : σ → σ := id
  /-- When its time is up; known from its first turn on. -/
  deadline : Option Nat := none
  ending : Option (Ending β) := none

structure Machine (σ ℓ : Type) {γ : Type} (answer : γ → Type) (δ β : Type) where
  hub : Hub σ ℓ
  tasks : List (Task σ ℓ answer δ β) := []

namespace Task

def poll [DecidableEq ℓ] (respond : Respond σ answer) (number : Nat) (woken : List Nat)
    (h : Hub σ ℓ) (t : Task σ ℓ answer δ β) : Task σ ℓ answer δ β × Hub σ ℓ :=
  let deadline := t.deadline.or (t.limit.map (h.now + ·))
  let (work, h) := t.work.poll respond number woken h
  let finish (ending : Ending β) : Task σ ℓ answer δ β × Hub σ ℓ :=
    ({ t with work, deadline, ending := some ending }, h.forget number)
  match work.ending?, deadline with
  | some (some b), _ => finish (.value b)
  | some none, _ => finish .panicked
  | none, some time =>
    if time ≤ h.now then
      let h := h.forget number
      ({ t with work, deadline, ending := some .timedOut }, { h with state := t.onTimeout h.state })
    else if t.deadline.isSome then ({ t with work }, h)
    else ({ t with work, deadline }, h.setTimer time ⟨number, none⟩)
  | none, none => ({ t with work }, h)

end Task

namespace Machine

def ofState (state : σ) : Machine σ ℓ answer δ β := { hub := { state } }

def spawn [DecidableEq ℓ] (m : Machine σ ℓ answer δ β) (t : Task σ ℓ answer δ β) :
    Machine σ ℓ answer δ β :=
  { hub := m.hub.wake ⟨m.tasks.length, some 0⟩, tasks := m.tasks ++ [t] }

def pollTask [DecidableEq ℓ] (respond : Respond σ answer) (number : Nat)
    (m : Machine σ ℓ answer δ β) : Machine σ ℓ answer δ β :=
  let mine := m.hub.woken.filter fun s => s.task = number
  let hub := { m.hub with woken := m.hub.woken.filter fun s => s.task ≠ number }
  match m.tasks[number]? with
  | none => { m with hub }
  | some t =>
    if t.ending.isSome then { m with hub }
    else
      let (t, hub) := t.poll respond number (mine.filterMap (·.branch)) hub
      { hub, tasks := m.tasks.set number t }

def turn? [DecidableEq ℓ] (respond : Respond σ answer) (m : Machine σ ℓ answer δ β) :
    Option (Machine σ ℓ answer δ β) :=
  m.hub.woken.head?.map fun s => m.pollTask respond s.task

/-- Lets the time pass until the next timer runs out, if there is one. -/
def tick? [DecidableEq ℓ] (m : Machine σ ℓ answer δ β) : Option (Machine σ ℓ answer δ β) :=
  m.hub.nextTime?.map fun time => { m with hub := m.hub.arrive time }

/-- One step: a turn, or else the passing of time. Nothing is left to do when there is none. -/
def step? [DecidableEq ℓ] (respond : Respond σ answer) (m : Machine σ ℓ answer δ β) :
    Option (Machine σ ℓ answer δ β) :=
  (m.turn? respond).or m.tick?

def run [DecidableEq ℓ] (respond : Respond σ answer) :
    Nat → Machine σ ℓ answer δ β → Machine σ ℓ answer δ β
  | 0, m => m
  | n + 1, m => match m.step? respond with
    | some m => run respond n m
    | none => m

def inFlight (m : Machine σ ℓ answer δ β) : Nat := (m.tasks.filter (·.ending.isNone)).length

/-- How the first task ended, the time and the state, after the machine has run. A task that has
not ended counts as broken off. -/
def outcome (m : Machine σ ℓ answer δ β) : Ending β × Nat × σ :=
  (((m.tasks.head?.bind (·.ending)).getD .panicked), m.hub.now, m.hub.state)

/-- Steps that suffice for every run: programs are short, and only a program that makes more
requests than that needs more. -/
def stepLimit : Nat := 1000000

def runAlone [DecidableEq ℓ] (respond : Respond σ answer) (state : σ)
    (work : Work σ ℓ answer δ β) (limit : Option Nat) : Ending β × Nat × σ :=
  (run respond stepLimit ((ofState state).spawn { work, limit })).outcome

end Machine

end GuildBot
