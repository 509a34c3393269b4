import GuildBot.Flow.Machine
/-!
# The course of a machine

What comes of a machine until it is at rest: how its first task ended, when and in which state, and what
was added on the way to a record that is kept in the state.
-/

namespace GuildBot

variable {σ ℓ γ ε : Type} {answer : γ → Type} {δ β : Type}

structure Course (σ ε β : Type) where
  /-- How the first task ended. There is none if it waits for ever. -/
  ending : Option (Ending β)
  time : Nat
  state : σ
  /-- What was added to the record, each entry with its time. -/
  entries : List (Nat × ε)

namespace Machine

variable [DecidableEq ℓ]

def alone (state : σ) (work : Work σ ℓ answer δ β) (limit : Option Nat) :
    Machine σ ℓ answer δ β :=
  (ofState state).spawn { work, limit }

def ending? (m : Machine σ ℓ answer δ β) : Option (Ending β) := m.tasks.head?.bind (·.ending)

variable (respond : Respond σ answer) (record : σ → List ε)

/-- What was added to the record between two machines, with the time of the later one. -/
def added (m m' : Machine σ ℓ answer δ β) : List (Nat × ε) :=
  ((record m'.hub.state).drop (record m.hub.state).length).map (m'.hub.now, ·)

/-- What the next `n` steps add to the record. -/
def entries : Nat → Machine σ ℓ answer δ β → List (Nat × ε)
  | 0, _ => []
  | n + 1, m => match m.step? respond with
    | some m' => added record m m' ++ entries n m'
    | none => []

def course (n : Nat) (m : Machine σ ℓ answer δ β) : Course σ ε β :=
  let m' := m.run respond n
  ⟨m'.ending?, m'.hub.now, m'.hub.state, entries respond record n m⟩

/-- Whether a machine comes to rest, and by that course. -/
def Takes (m : Machine σ ℓ answer δ β) (c : Course σ ε β) : Prop :=
  ∃ n, (m.run respond n).step? respond = none ∧ m.course respond record n = c

/-- Whether a machine comes to rest, and its first task has ended in that way when it does, with that
state left. -/
def Ends (m : Machine σ ℓ answer δ β) (ending : Ending β) (state : σ) : Prop :=
  ∃ n, let m' := m.run respond n
    m'.step? respond = none ∧ m'.ending? = some ending ∧ m'.hub.state = state

/-- Whether the first `n` steps of a machine are those that it makes before a time, and perhaps some
of those that it makes at that very time. -/
structure Reaches (m : Machine σ ℓ answer δ β) (time n : Nat) : Prop where
  before : ∀ i ≤ n, (m.run respond i).hub.now ≤ time
  after : ∀ i > n, (m.run respond n).step? respond = none ∨ time ≤ (m.run respond i).hub.now

end Machine

end GuildBot
