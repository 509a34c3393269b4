import GuildBot.Flow.Hub
/-!
# Work in progress

A program that has begun is either waiting for something or has ended. A piece of work is a
program that leads in, programs that then run side by side, and a program that closes when all of
these have ended. A panic in any of them breaks the whole work off.
-/

namespace GuildBot

variable {σ ℓ γ : Type} {answer : γ → Type} {α β δ : Type}

/-- What a program is waiting for: its first turn, a time, a lock, or its next turn. -/
inductive Obstacle (ℓ : Type) where
  | start
  | time (t : Nat)
  | lock (l : ℓ)
  | turn

/-- A program that has begun. It ends with a result, or with none after a panic. -/
inductive Progress (σ ℓ : Type) {γ : Type} (answer : γ → Type) (α : Type) where
  | waiting (obstacle : Obstacle ℓ) (rest : Program σ ℓ answer α)
  | ended (result : Option α)

/-- How calls are answered: the state after the call has begun, the milliseconds it takes, and the
answer. -/
abbrev Respond (σ : Type) {γ : Type} (answer : γ → Type) : Type :=
  σ → (c : γ) → σ × Nat × answer c

namespace Progress

def start (f : Program σ ℓ answer α) : Progress σ ℓ answer α := .waiting .start f

/-- Runs a program until it has to wait or ends. -/
def run [DecidableEq ℓ] (respond : Respond σ answer) (me : Strand) :
    Program σ ℓ answer α → Hub σ ℓ → Progress σ ℓ answer α × Hub σ ℓ
  | .done a, h => (.ended (some a), h)
  | .panic, h => (.ended none, h)
  | .act update next, h => run respond me (next h.state) { h with state := update h.state }
  | .ask (.lock l) next, h =>
    let h := h.claim l me
    if h.grants l me then run respond me (next ()) h
    else (.waiting (.lock l) (next ()), h)
  | .ask (.unlock l) next, h => run respond me (next ()) (h.release l me)
  | .ask (.wait 0) next, h => run respond me (next ()) h
  | .ask (.wait (n + 1)) next, h =>
    (.waiting (.time (h.now + n + 1)) (next ()), h.setTimer (h.now + n + 1) me)
  | .ask .pause next, h => (.waiting .turn (next ()), h.wake me)
  | .ask (.call c) next, h =>
    let (state, duration, reply) := respond h.state c
    let h := { h with state }
    if duration = 0 then run respond me (next reply) h
    else (.waiting (.time (h.now + duration)) (next reply), h.setTimer (h.now + duration) me)

/-- Whether what a strand waits for has come. -/
def isClear [DecidableEq ℓ] (h : Hub σ ℓ) (me : Strand) : Obstacle ℓ → Bool
  | .start => true
  | .time t => t ≤ h.now
  | .lock l => h.grants l me
  | .turn => true

def poll [DecidableEq ℓ] (respond : Respond σ answer) (me : Strand) (h : Hub σ ℓ) :
    Progress σ ℓ answer α → Progress σ ℓ answer α × Hub σ ℓ
  | .waiting obstacle rest =>
    if isClear h me obstacle then run respond me rest h else (.waiting obstacle rest, h)
  | .ended result => (.ended result, h)

def hasPanicked : Progress σ ℓ answer α → Bool
  | .ended none => true
  | _ => false

def result? : Progress σ ℓ answer α → Option α
  | .ended result => result
  | .waiting _ _ => none

end Progress

/-- Programs to run side by side, and one that closes with their results. -/
structure Plan (σ ℓ : Type) {γ : Type} (answer : γ → Type) (δ β : Type) where
  branches : List (Program σ ℓ answer δ)
  close : List δ → Program σ ℓ answer β

/-- A piece of work, by how far it has come. -/
inductive Work (σ ℓ : Type) {γ : Type} (answer : γ → Type) (δ β : Type) where
  | lead (p : Progress σ ℓ answer (Plan σ ℓ answer δ β))
  | fan (branches : List (Progress σ ℓ answer δ)) (close : List δ → Program σ ℓ answer β)
  | closing (p : Progress σ ℓ answer β)

namespace Work

def ofPlan (lead : Program σ ℓ answer (Plan σ ℓ answer δ β)) : Work σ ℓ answer δ β :=
  .lead (.start lead)

def ofProgram (f : Program σ ℓ answer β) : Work σ ℓ answer δ β := .closing (.start f)

/-- How the work ended, if it has: with a result, or with none after a panic. -/
def ending? : Work σ ℓ answer δ β → Option (Option β)
  | .lead p => if p.hasPanicked then some none else none
  | .fan ps _ => if ps.any (·.hasPanicked) then some none else none
  | .closing (.ended result) => some result
  | .closing (.waiting _ _) => none

/-- Up to this many branches get a turn each whenever one of them is woken. -/
def smallFan : Nat := 30

/-- Gives turns to the branches with the listed numbers, until one of them panics. -/
def pollBranches [DecidableEq ℓ] (respond : Respond σ answer) (task : Nat) :
    List Nat → List (Progress σ ℓ answer δ) → Hub σ ℓ → List (Progress σ ℓ answer δ) × Hub σ ℓ
  | [], ps, h => (ps, h)
  | n :: rest, ps, h =>
    match ps[n]? with
    | none => pollBranches respond task rest ps h
    | some p =>
      let (p, h) := p.poll respond ⟨task, some n⟩ h
      if p.hasPanicked then (ps.set n p, h)
      else pollBranches respond task rest (ps.set n p) h

def pollClosing [DecidableEq ℓ] (respond : Respond σ answer) (task : Nat)
    (p : Progress σ ℓ answer β) (h : Hub σ ℓ) : Work σ ℓ answer δ β × Hub σ ℓ :=
  let (p, h) := p.poll respond ⟨task, some 0⟩ h
  (.closing p, h)

/-- Gives the branches turns: all of them in order if they are few, else those that were woken in
the order in which they were. When all have ended the closing program begins. -/
def pollFan [DecidableEq ℓ] (respond : Respond σ answer) (task : Nat) (woken : List Nat)
    (ps : List (Progress σ ℓ answer δ)) (close : List δ → Program σ ℓ answer β) (h : Hub σ ℓ) :
    Work σ ℓ answer δ β × Hub σ ℓ :=
  let order := if ps.length ≤ smallFan then List.range ps.length else woken
  let (ps, h) := pollBranches respond task order ps h
  match ps.mapM (·.result?) with
  | some results => pollClosing respond task (.start (close results)) h
  | none => (.fan ps close, h)

/-- Gives the work a turn in which the branches listed were woken. -/
def poll [DecidableEq ℓ] (respond : Respond σ answer) (task : Nat) (woken : List Nat)
    (h : Hub σ ℓ) : Work σ ℓ answer δ β → Work σ ℓ answer δ β × Hub σ ℓ
  | .lead p =>
    let (p, h) := p.poll respond ⟨task, some 0⟩ h
    match p.result? with
    | some plan =>
      pollFan respond task (List.range plan.branches.length) (plan.branches.map .start) plan.close h
    | none => (.lead p, h)
  | .fan ps close => pollFan respond task woken ps close h
  | .closing p => pollClosing respond task p h

end Work

end GuildBot
