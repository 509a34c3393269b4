import GuildBot.Flow.Work
/-!
# Crowds

A crowd is any number of programs side by side, each a strand of its own, without a fixed order of
turns: which strand has the next turn, when time passes, which task is abandoned and what others do
to the state meanwhile is a list of moves. Every list of moves is a possible run.
-/

namespace GuildBot

variable {σ ℓ γ ι : Type} {answer : γ → Type} {α : Type}

def Progress.abandon : Progress σ ℓ answer α → Progress σ ℓ answer α
  | .waiting _ _ => .ended none
  | .ended result => .ended result

/-- Strands that share a hub. Those that have not had a turn yet are about to begin. -/
structure Crowd (σ ℓ : Type) {γ : Type} (answer : γ → Type) (α : Type) where
  hub : Hub σ ℓ
  progress : Strand → Progress σ ℓ answer α

namespace Crowd

inductive Move (ι : Type) where
  | turn (s : Strand)
  /-- All strands of a task are abandoned. -/
  | drop (task : Nat)
  | pass (milliseconds : Nat)
  /-- Somebody else acts on the state. -/
  | outside (deed : ι)

variable [DecidableEq ℓ]

def start (state : σ) (programs : Strand → Program σ ℓ answer α) : Crowd σ ℓ answer α :=
  { hub := { state }, progress := fun s => .start (programs s) }

def step (respond : Respond σ answer) (act : ι → σ → σ) (c : Crowd σ ℓ answer α) :
    Move ι → Crowd σ ℓ answer α
  | .turn s =>
    let (p, hub) := (c.progress s).poll respond s c.hub
    { hub, progress := fun t => if t = s then p else c.progress t }
  | .drop task =>
    { hub := c.hub.forget task
      progress := fun s => if s.task = task then (c.progress s).abandon else c.progress s }
  | .pass milliseconds => { c with hub := c.hub.arrive (c.hub.now + milliseconds) }
  | .outside deed => { c with hub := { c.hub with state := act deed c.hub.state } }

def run (respond : Respond σ answer) (act : ι → σ → σ) (c : Crowd σ ℓ answer α)
    (moves : List (Move ι)) : Crowd σ ℓ answer α :=
  moves.foldl (step respond act) c

end Crowd

end GuildBot
