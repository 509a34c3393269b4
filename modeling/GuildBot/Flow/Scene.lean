import GuildBot.Flow.Work
/-!
# Work among others

A piece of work whose programs have their turns while others act on the same hub. Nothing is assumed
about the others: a turn may find any hub, whatever the turn before it left behind.
-/

namespace GuildBot

variable {σ ℓ γ : Type} {answer : γ → Type} {α δ β : Type}

namespace Progress

variable [DecidableEq ℓ] (respond : Respond σ answer) (me : Strand)

def turns (p : Progress σ ℓ answer α) (hubs : List (Hub σ ℓ)) : Progress σ ℓ answer α :=
  hubs.foldl (fun p h => (p.poll respond me h).1) p

/-- The hubs in which a program has its turns, each with what the turn makes of it. -/
def trace : Progress σ ℓ answer α → List (Hub σ ℓ) → List (Hub σ ℓ × Hub σ ℓ)
  | _, [] => []
  | p, h :: hubs => (h, (p.poll respond me h).2) :: trace (p.poll respond me h).1 hubs

end Progress

/-- The programs of a piece of work. -/
inductive Part where
  | lead
  | branch (n : Nat)
  | close
  deriving DecidableEq

/-- A turn of one of the programs: the hub that it finds and the hub that it leaves. -/
structure Visit (σ ℓ : Type) where
  part : Part
  before : Hub σ ℓ
  after : Hub σ ℓ

def Progress.visited [DecidableEq ℓ] (respond : Respond σ answer) (me : Strand) (part : Part)
    (p : Progress σ ℓ answer α) (hubs : List (Hub σ ℓ)) : List (Visit σ ℓ) :=
  (trace respond me p hubs).map fun t => ⟨part, t.1, t.2⟩

/-- Something that happens to a piece of work. -/
inductive Work.Move (σ ℓ : Type) where
  /-- The branch of that number has a turn, or else the leading or the closing program. -/
  | turn (n : Nat) (h : Hub σ ℓ)
  /-- The closing program is to begin, if all branches have come to results. -/
  | join

structure Scene (σ ℓ : Type) {γ : Type} (answer : γ → Type) (δ β : Type) where
  work : Work σ ℓ answer δ β
  visits : List (Visit σ ℓ) := []

namespace Scene

variable [DecidableEq ℓ] (respond : Respond σ answer) (task : Nat)

def step (s : Scene σ ℓ answer δ β) : Work.Move σ ℓ → Scene σ ℓ answer δ β
  | .turn n h => match s.work with
    | .lead p =>
      let (p, h') := p.poll respond ⟨task, some 0⟩ h
      let visits := s.visits ++ [⟨.lead, h, h'⟩]
      match p.result? with
      | some plan => { work := .fan (plan.branches.map .start) plan.close, visits }
      | none => { work := .lead p, visits }
    | .fan ps close => match ps[n]? with
      | some p =>
        let (p, h') := p.poll respond ⟨task, some n⟩ h
        { work := .fan (ps.set n p) close, visits := s.visits ++ [⟨.branch n, h, h'⟩] }
      | none => s
    | .closing p =>
      let (p, h') := p.poll respond ⟨task, some 0⟩ h
      { work := .closing p, visits := s.visits ++ [⟨.close, h, h'⟩] }
  | .join => match s.work with
    | .fan ps close => match ps.mapM (·.result?) with
      | some results => { s with work := .closing (.start (close results)) }
      | none => s
    | _ => s

def after (s : Scene σ ℓ answer δ β) (moves : List (Work.Move σ ℓ)) : Scene σ ℓ answer δ β :=
  moves.foldl (step respond task) s

end Scene

def turnsOf (part : Part) (visits : List (Visit σ ℓ)) : List (Visit σ ℓ) :=
  visits.filter (·.part = part)

def hubsOf (part : Part) (visits : List (Visit σ ℓ)) : List (Hub σ ℓ) :=
  (turnsOf part visits).map (·.before)

end GuildBot
